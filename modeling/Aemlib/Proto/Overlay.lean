import Aemlib.Proto.Encode

/-!
# What an encoder leaves in its buffer

`encode_ensures` says what is at the front of the buffer when an encoder returns OK. A caller that
keeps something else in the same buffer has to know more: which cells an encoder writes, with what,
and also when it fails halfway. `Packet.laid` is that, cell by cell, as a function of the packet
and the size of the buffer alone; every other cell is as before (`encode_lays`).
-/

namespace Aemlib.Proto

open Machine

/-! ## Pieces -/

def Packet.pieces : Packet → List (List UInt8)
  | .connect clientId keepaliveSec =>
    [lengthPrefixed [0x4D, 0x51, 0x54, 0x54], [protocolLevel], [connectCleanSession],
      uint16Be keepaliveSec.toNat, lengthPrefixed clientId]
  | .publish topic payload => [lengthPrefixed topic, payload]
  | .subscribe packetId topic =>
    [uint16Be packetId.toNat, lengthPrefixed topic, [subscribePayloadQos]]
  | .pingreq => []

/-- The pieces that are stored in `room` bytes, up to the first one that does not fit. -/
def fitting : (room : Nat) → List (List UInt8) → List UInt8
  | _, [] => []
  | room, d :: ds => if d.length ≤ room then d ++ fitting (room - d.length) ds else []

theorem flatten_pieces (p : Packet) : p.pieces.flatten = p.body := by
  cases p <;> simp [Packet.pieces, Packet.body]

/-- Pieces that fit all together are stored all. -/
theorem fitting_of_le {room : Nat} {ds : List (List UInt8)} (h : ds.flatten.length ≤ room) :
    fitting room ds = ds.flatten := by
  induction ds generalizing room with
  | nil => rfl
  | cons d ds ih =>
    rw [List.flatten_cons, List.length_append] at h
    rw [fitting, if_pos (by omega), ih (by omega), List.flatten_cons]

/-! ## The cells an encoder writes -/

/-- Whether the encoder of a packet with this body returns OK. -/
def Packet.Fits (p : Packet) (size : Nat) : Prop :=
  5 + p.body.length ≤ size ∧ p.body.length % 2 ^ 32 < 2 ^ 28

instance (p : Packet) (size : Nat) : Decidable (p.Fits size) := inferInstanceAs (Decidable (_ ∧ _))

/-- What a framed encoder leaves at index `i` of a buffer of `size` bytes, if it writes there: the
packet, and behind it what the slide did not cover of the body; or, when it fails, the header byte
and the pieces behind the gap. -/
def Packet.framedLaid (p : Packet) (size i : Nat) : Option UInt8 :=
  if size = 0 then none
  else if size < 5 then slot 0 [p.header] i
  else if p.Fits size then (slot 0 p.bytes i).or (slot 5 p.body i)
  else (slot 0 [p.header] i).or (slot 5 (fitting (size - 5) p.pieces) i)

/-- What the encoder of `p` leaves at index `i` of a buffer of `size` bytes, if it writes there. -/
def Packet.laid (p : Packet) (size i : Nat) : Option UInt8 :=
  match p with
  | .pingreq => if size < 2 then none else slot 0 [headerByte .pingreq 0, 0] i
  | p => p.framedLaid size i

/-! ## Appending -/

/-- A piece of an encoder that appends the pieces `ds` as far as they fit. -/
def Lays (size : Nat) (q : Enc Unit) (ds : List (List UInt8)) : Prop :=
  ∀ e, e.buf.length = size → e.offset ≤ size → e.offset + ds.flatten.length < 2 ^ 64 →
    ∃ buf, store e.buf e.offset (fitting (size - e.offset) ds) = .ok buf ∧
      (e.offset + ds.flatten.length ≤ size ∧
          q e = .ok (.ok (), ⟨buf, e.offset + ds.flatten.length, e.outLen⟩) ∨
        size < e.offset + ds.flatten.length ∧
          ∃ offset, q e = .ok (.error bufferTooSmall, ⟨buf, offset, e.outLen⟩))

theorem append_lays (size : Nat) (d : List UInt8) : Lays size (append size d) [d] := by
  intro e hlen hoff hlt
  simp only [List.flatten_cons, List.flatten_nil, List.append_nil] at hlt ⊢
  rw [append_eq, sizeAdd_of_lt hlt]
  by_cases hroom : e.offset + d.length ≤ size
  · obtain ⟨buf, hstore⟩ := exists_store e.buf e.offset d (by omega)
    have hall : fitting (size - e.offset) [d] = d := by
      rw [fitting, if_pos (by omega), fitting, List.append_nil]
    rw [hall]
    refine ⟨buf, hstore, Or.inl ⟨hroom, ?_⟩⟩
    rw [if_neg (by omega)]
    exact Prog.ofExcept_bind_eq_ok.mpr ⟨buf, hstore, rfl⟩
  · have hnone : fitting (size - e.offset) [d] = [] := by
      rw [fitting, if_neg (by omega)]
    rw [hnone]
    refine ⟨e.buf, store_eq_ok.mpr ⟨by simp; omega, by simp⟩, Or.inr ⟨by omega, e.offset, ?_⟩⟩
    rw [if_pos (by omega)]

theorem Lays.seq {size : Nat} {p q : Enc Unit} {d : List UInt8} {ds : List (List UInt8)}
    (hp : Lays size p [d]) (hq : Lays size q ds) : Lays size (p >>= fun _ => q) (d :: ds) := by
  intro e hlen hoff hlt
  rw [List.flatten_cons, List.length_append] at hlt ⊢
  obtain ⟨buf₁, hstore₁, hp | hp⟩ := hp e hlen hoff (by simp; omega)
  · simp only [List.flatten_cons, List.flatten_nil, List.append_nil] at hp
    obtain ⟨hroom, hrun⟩ := hp
    -- the first piece fits: what the second code lays goes behind it
    have hfirst : fitting (size - e.offset) [d] = d := by
      rw [fitting, if_pos (by omega), fitting, List.append_nil]
    rw [hfirst] at hstore₁
    obtain ⟨buf₂, hstore₂, hrest⟩ := hq ⟨buf₁, e.offset + d.length, e.outLen⟩
      ((length_of_store hstore₁).trans hlen) hroom (by show e.offset + d.length + _ < _; omega)
    have hall : fitting (size - e.offset) (d :: ds) =
        d ++ fitting (size - (e.offset + d.length)) ds := by
      rw [fitting, if_pos (by omega), Nat.sub_sub]
    refine ⟨buf₂, ?_, ?_⟩
    · rw [hall]
      exact store_append hstore₁ hstore₂
    · rw [Prog.bind_of_ok hrun, ← Nat.add_assoc]
      exact hrest
  · simp only [List.flatten_cons, List.flatten_nil, List.append_nil] at hp
    obtain ⟨hfull, offset, hrun⟩ := hp
    -- the first piece does not fit, and then none of the others is laid
    have hnone : ∀ ds', fitting (size - e.offset) (d :: ds') = [] := by
      intro ds'
      rw [fitting, if_neg (by omega)]
    rw [hnone] at hstore₁
    refine ⟨buf₁, ?_, Or.inr ⟨by omega, offset, Prog.bind_of_error hrun⟩⟩
    rw [hnone]
    exact hstore₁

/-! ## A framed packet -/

/-- The packet stored in one go is its three parts stored from the back: the slid body, the digits
over it, the header byte that was there before. -/
theorem slot_bytes (header : UInt8) (digits body : List UInt8) (i : Nat) (old : Option UInt8) :
    (slot 1 digits i).or ((slot (1 + digits.length) body i).or ((slot 0 [header] i).or old)) =
      (slot 0 (header :: (digits ++ body)) i).or old := by
  cases i with
  | zero =>
    have hbody : ¬ 1 + digits.length ≤ 0 := by omega
    simp [slot, hbody]
  | succ i =>
    have hhead : slot 0 [header] (i + 1) = none := by simp [slot]
    rw [hhead, Option.none_or]
    simp only [slot, if_true, Nat.sub_zero, List.getElem?_cons_succ,
      Nat.le_add_left, Nat.add_sub_cancel]
    -- behind the header byte: is the cell one of the digits or one of the body?
    by_cases hi : i < digits.length
    · rw [List.getElem?_append_left hi, List.getElem?_eq_getElem hi, Option.some_or,
        Option.some_or]
    · rw [List.getElem?_append_right (by omega), List.getElem?_eq_none (by omega),
        Option.none_or, if_pos (by omega)]
      congr 2
      omega

/-- The body is behind the header byte, so it does not matter which of them was stored first. -/
theorem slot_header_comm (header : UInt8) (body : List UInt8) (i : Nat) (old : Option UInt8) :
    (slot 5 body i).or ((slot 0 [header] i).or old) =
      (slot 0 [header] i).or ((slot 5 body i).or old) := by
  cases i with
  | zero => simp [slot]
  | succ i => simp [slot]

/-- The steps before the body, with the buffer they leave. -/
theorem framed_start {size : Nat} (header : UInt8) (body : Enc Unit) {e : Encoder}
    (hlen : e.buf.length = size) (hoff : e.offset = 0) :
    (size = 0 ∧ framed size header body e = .ok (.error bufferTooSmall, e)) ∨
    (0 < size ∧ ∃ buf, store e.buf 0 [header] = .ok buf ∧
      (size < 5 ∧ framed size header body e = .ok (.error bufferTooSmall, ⟨buf, 1, e.outLen⟩) ∨
       5 ≤ size ∧ framed size header body e =
        (body >>= fun _ => finishRemainingLength 1) ⟨buf, 5, e.outLen⟩)) := by
  have hone : sizeAdd e.offset [header].length = 1 := by rw [hoff]; rfl
  rcases Nat.eq_zero_or_pos size with hzero | hpos
  · refine Or.inl ⟨hzero, ?_⟩
    have hfull : append size [header] e = .ok (.error bufferTooSmall, e) := by
      rw [append_eq, if_pos (by omega)]
    exact Prog.bind_of_error hfull
  · obtain ⟨buf, hstore⟩ := exists_store e.buf 0 [header] (by simp; omega)
    refine Or.inr ⟨hpos, buf, hstore, ?_⟩
    have hhead : append size [header] e = .ok (.ok (), ⟨buf, 1, e.outLen⟩) := by
      rw [append_eq, if_neg (by omega), hone, hoff]
      exact Prog.ofExcept_bind_eq_ok.mpr ⟨buf, hstore, rfl⟩
    have hfive : sizeAdd 1 remainingLengthMaxBytes = 5 := rfl
    rw [framed, show appendByte size header = append size [header] from rfl, Prog.bind_of_ok hhead]
    simp only [Prog.run_get_bind]
    -- the header byte is in; the five bytes of the gap may not be
    by_cases h5 : size < 5
    · refine Or.inl ⟨h5, Prog.bind_of_error (Prog.bind_of_error ?_)⟩
      simp [ensureSpace, hfive, h5]
    · refine Or.inr ⟨by omega, ?_⟩
      have hroom : ensureSpace remainingLengthMaxBytes size ⟨buf, 1, e.outLen⟩ =
          .ok (.ok (), ⟨buf, 1, e.outLen⟩) := by
        simp [ensureSpace, hfive, h5]
      have hgap : reserveSpace remainingLengthMaxBytes size ⟨buf, 1, e.outLen⟩ =
          .ok (.ok (), ⟨buf, 5, e.outLen⟩) := by
        rw [reserveSpace, Prog.bind_of_ok hroom]
        simp [hfive]
      rw [Prog.bind_of_ok hgap]

theorem framed_lays {size : Nat} {p : Packet} {body : Enc Unit} {e : Encoder}
    (hbuf : size < 2 ^ 64) (hbody : Lays size body p.pieces) (hlen : e.buf.length = size)
    (hoff : e.offset = 0) (hfits : 5 + p.body.length < 2 ^ 64) :
    ∃ r e', framed size p.header body e = .ok (r, e') ∧
      ∀ i, e'.buf[i]? = (p.framedLaid size i).or e.buf[i]? := by
  rcases framed_start p.header body hlen hoff with
    ⟨hzero, hrun⟩ | ⟨hpos, buf, hhead, ⟨h5, hrun⟩ | ⟨h5, hrun⟩⟩
  · refine ⟨_, _, hrun, ?_⟩
    intro i
    rw [Packet.framedLaid, if_pos hzero, Option.none_or]
  · refine ⟨_, _, hrun, ?_⟩
    intro i
    rw [Packet.framedLaid, if_neg (by omega), if_pos h5]
    exact getElem?_of_store hhead i
  · have hlen₁ : buf.length = size := (length_of_store hhead).trans hlen
    have hlaid : ∀ i, p.framedLaid size i = if p.Fits size then (slot 0 p.bytes i).or
        (slot 5 p.body i) else (slot 0 [p.header] i).or
          (slot 5 (fitting (size - 5) p.pieces) i) := by
      intro i
      rw [Packet.framedLaid, if_neg (by omega), if_neg (by omega)]
    obtain ⟨buf₂, hstore, hends⟩ :=
      hbody ⟨buf, 5, e.outLen⟩ hlen₁ h5 (by rw [flatten_pieces]; exact hfits)
    -- what the header byte and the pieces leave
    have hcells : ∀ i, buf₂[i]? = (slot 0 [p.header] i).or
        ((slot 5 (fitting (size - 5) p.pieces) i).or e.buf[i]?) := by
      intro i
      rw [← slot_header_comm, ← getElem?_of_store hhead]
      exact getElem?_of_store hstore i
    rw [flatten_pieces] at hends
    rcases hends with ⟨hroom, hok⟩ | ⟨hfull, offset, herr⟩
    · have hall : fitting (size - 5) p.pieces = p.body := by
        rw [fitting_of_le, flatten_pieces]
        rw [flatten_pieces]
        exact Nat.le_sub_of_add_le' hroom
      have hlen₂ : buf₂.length = size := (length_of_store hstore).trans hlen₁
      have hdata : (buf₂.take (5 + p.body.length)).drop 5 = p.body := by
        rw [List.drop_take, Nat.add_sub_cancel_left, ← hall]
        exact slice_of_store hstore
      rw [Prog.bind_of_ok hok] at hrun
      -- the body is complete; the length is written only if it fits four digits
      rcases finishRemainingLength_eq (e := ⟨buf₂, 5 + p.body.length, e.outLen⟩)
        (hlen₂.symm ▸ hbuf) rfl (hlen₂.symm ▸ hroom) hdata with
        ⟨hlong, hfin⟩ | ⟨hshort, buf₃, buf₄, hmove, hdig, hfin⟩
      · refine ⟨_, _, hrun.trans hfin, ?_⟩
        intro i
        have hno : ¬ p.Fits size := fun h => absurd h.2 (by omega)
        rw [hlaid, if_neg hno, Option.or_assoc]
        exact hcells i
      · refine ⟨_, _, hrun.trans hfin, ?_⟩
        intro i
        rw [hlaid, if_pos ⟨hroom, hshort⟩, Option.or_assoc]
        show buf₄[i]? = _
        -- the slide and then the digits go over the header byte and the body stored before
        rw [getElem?_of_store hdig, getElem?_of_store hmove, hcells, hall]
        exact slot_bytes p.header _ _ i _
    · refine ⟨_, _, hrun.trans (Prog.bind_of_error herr), ?_⟩
      intro i
      -- the pieces that fit are there, and nothing was slid
      have hno : ¬ p.Fits size := fun h => absurd h.1 (Nat.not_le.mpr hfull)
      rw [hlaid, if_neg hno, Option.or_assoc]
      exact hcells i

/-! ## Every packet -/

/-- **What an encoder leaves.** It ends, and every cell holds what was laid there last, or what was
there before. -/
theorem encode_lays {size : Nat} {e : Encoder} (p : Packet) (hbuf : size < 2 ^ 64)
    (hlen : e.buf.length = size) (hoff : e.offset = 0) (hfits : 5 + p.body.length < 2 ^ 64) :
    ∃ r e', p.encode size e = .ok (r, e') ∧
      ∀ i, e'.buf[i]? = (p.laid size i).or e.buf[i]? := by
  have happ := append_lays size
  cases p with
  | connect clientId keepaliveSec =>
    apply framed_lays (p := .connect clientId keepaliveSec) hbuf _ hlen hoff hfits
    exact (happ _).seq ((happ _).seq ((happ _).seq ((happ _).seq (happ _))))
  | publish topic payload =>
    apply framed_lays (p := .publish topic payload) hbuf _ hlen hoff hfits
    exact (happ _).seq (happ _)
  | subscribe packetId topic =>
    apply framed_lays (p := .subscribe packetId topic) hbuf _ hlen hoff hfits
    exact (happ _).seq ((happ _).seq (happ _))
  | pingreq =>
    -- PINGREQ is written whole, without a gap for the length
    have hrun := encodePingreq_eq hlen
    rw [Packet.encode, hrun]
    by_cases h2 : size < 2
    · refine ⟨_, _, if_pos h2, ?_⟩
      intro i
      rw [Packet.laid, if_pos h2, Option.none_or]
    · refine ⟨_, _, if_neg h2, ?_⟩
      intro i
      have hstore : store e.buf 0 [headerByte .pingreq 0, 0] =
          .ok ([headerByte .pingreq 0, 0] ++ e.buf.drop 2) :=
        store_eq_ok.mpr ⟨by simp; omega, by simp⟩
      rw [Packet.laid, if_neg h2]
      exact getElem?_of_store hstore i

end Aemlib.Proto
