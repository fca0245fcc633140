import Aemlib.Proto.Layout

/-!
# The encoders on a `size_t` of any width

The rest of the development is about a 64-bit target. Here the encoders are written once more with
the width of `size_t` as a parameter: at 64 bits they are the encoders of `Proto.Encode`, and as
long as no sum wraps they do the same at every smaller width (`framed_agrees`).

CONNECT and SUBSCRIBE never get near the width. PUBLISH takes the length of its payload from the
caller, adds it to the offset in `size_t`, and narrows what it has written to 32 bits before it
looks whether the length field can hold it. The last section says when neither of the two matters.
-/

namespace Aemlib.Proto

open Machine

namespace SizeT

/-! ## The code -/

def add (w a b : Nat) : Nat := (a + b) % 2 ^ w

def ensureSpace (w needed bufLen : Nat) : Enc Unit := do
  let e ← get
  if add w e.offset needed > bufLen then
    throw bufferTooSmall

def reserveSpace (w size bufLen : Nat) : Enc Unit := do
  ensureSpace w size bufLen
  modify fun e => { e with offset := add w e.offset size }

def append (w bufLen : Nat) (data : List UInt8) : Enc Unit := do
  ensureSpace w data.length bufLen
  let e ← get
  let buf ← Prog.ofExcept (store e.buf e.offset data)
  set { e with buf := buf, offset := add w e.offset data.length }

def appendByte (w bufLen : Nat) (value : UInt8) : Enc Unit := append w bufLen [value]

def appendUint16Be (w bufLen : Nat) (value : UInt16) : Enc Unit :=
  append w bufLen (uint16Be value.toNat)

def writeUtf8 (w bufLen : Nat) (str : List UInt8) : Enc Unit :=
  append w bufLen (uint16Be str.length ++ str)

/-- The end of every framed encoder. The remaining length is a `uint32_t` whatever the width. -/
def finishRemainingLength (w rlPos : Nat) : Enc Unit := do
  let e ← get
  let bodyLen ← Prog.ofExcept (checkedSub e.offset (add w rlPos remainingLengthMaxBytes))
  let rl := bodyLen % 2 ^ 32
  let (result, rlBuf) ← Prog.ofExcept
    (encodeRemainingLength rl remainingLengthMaxBytes (List.replicate remainingLengthMaxBytes 0))
  match result with
  | .error status => throw status
  | .ok rlLen =>
    let buf ← Prog.ofExcept
      (move e.buf (add w rlPos rlLen) (add w rlPos remainingLengthMaxBytes) rl)
    let buf ← Prog.ofExcept (store buf rlPos (rlBuf.take rlLen))
    set { e with buf := buf, outLen := add w (add w rlPos rlLen) rl }

def framed (w bufLen : Nat) (header : UInt8) (body : Enc Unit) : Enc Unit := do
  appendByte w bufLen header
  let rlPos := (← get).offset
  reserveSpace w remainingLengthMaxBytes bufLen
  body
  finishRemainingLength w rlPos

def connectSteps (w bufLen : Nat) (clientId : List UInt8) (keepaliveSec : UInt16) : Enc Unit := do
  writeUtf8 w bufLen [0x4D, 0x51, 0x54, 0x54] -- "MQTT"
  appendByte w bufLen protocolLevel
  appendByte w bufLen connectCleanSession
  appendUint16Be w bufLen keepaliveSec
  writeUtf8 w bufLen clientId

def encodeConnect (w bufLen : Nat) (clientId : List UInt8) (keepaliveSec : UInt16) : Enc Unit :=
  framed w bufLen (headerByte .connect 0) (connectSteps w bufLen clientId keepaliveSec)

def publishSteps (w bufLen : Nat) (topic payload : List UInt8) : Enc Unit := do
  writeUtf8 w bufLen topic
  append w bufLen payload

def encodePublish (w bufLen : Nat) (topic payload : List UInt8) : Enc Unit :=
  framed w bufLen (headerByte .publish 0) (publishSteps w bufLen topic payload)

def subscribeSteps (w bufLen : Nat) (packetId : UInt16) (topic : List UInt8) : Enc Unit := do
  appendUint16Be w bufLen packetId
  writeUtf8 w bufLen topic
  appendByte w bufLen subscribePayloadQos

def encodeSubscribe (w bufLen : Nat) (packetId : UInt16) (topic : List UInt8) : Enc Unit :=
  framed w bufLen (headerByte .subscribe subscribeFlags) (subscribeSteps w bufLen packetId topic)

theorem framed_64 (bufLen : Nat) (header : UInt8) (body : Enc Unit) :
    framed 64 bufLen header body = Proto.framed bufLen header body := rfl

/-- At 64 bits these are the encoders of the rest of the development. -/
theorem encoders_64 :
    encodeConnect 64 = Proto.encodeConnect ∧ encodePublish 64 = Proto.encodePublish ∧
      encodeSubscribe 64 = Proto.encodeSubscribe := ⟨rfl, rfl, rfl⟩

theorem add_of_lt {w a b : Nat} (h : a + b < 2 ^ w) : add w a b = a + b := Nat.mod_eq_of_lt h

/-- The widths there are: a `size_t` has room for the length field, and is one of 64 bits. -/
theorem two_pow_bounds {w : Nat} (hw : 32 ≤ w) (hw' : w ≤ 64) :
    2 ^ 32 ≤ 2 ^ w ∧ 2 ^ w ≤ 2 ^ 64 :=
  ⟨Nat.pow_le_pow_right (by decide) hw, Nat.pow_le_pow_right (by decide) hw'⟩

/-! ## Appending -/

/-- `append`, by cases. -/
theorem append_eq (w bufLen : Nat) (data : List UInt8) (e : Encoder) :
    append w bufLen data e =
      if add w e.offset data.length > bufLen then .ok (.error bufferTooSmall, e)
      else (Prog.ofExcept (store e.buf e.offset data) >>= fun buf =>
        set { e with buf := buf, offset := add w e.offset data.length } : Enc Unit) e := by
  by_cases h : add w e.offset data.length > bufLen
  · have hfull : ensureSpace w data.length bufLen e = .ok (.error bufferTooSmall, e) := by
      simp [ensureSpace, h]
    rw [if_pos h, append]
    exact Prog.bind_of_error hfull
  · have hroom : ensureSpace w data.length bufLen e = .ok (.ok (), e) := by
      simp [ensureSpace, h]
    rw [if_neg h, append]
    exact Prog.bind_of_ok hroom

/-- An append whose sum wraps passes the check and runs off the buffer. -/
theorem append_faults {w bufLen : Nat} {data : List UInt8} {e : Encoder}
    (hlen : e.buf.length = bufLen) (hoff : e.offset ≤ bufLen) (hbuf : bufLen < 2 ^ w)
    (hdata : data.length < 2 ^ w) (h : 2 ^ w ≤ e.offset + data.length) :
    (append w bufLen data).Faults e .outOfBounds := by
  have hsum : add w e.offset data.length = e.offset + data.length - 2 ^ w := by
    rw [add, Nat.mod_eq_sub_mod h, Nat.mod_eq_of_lt (by omega)]
  have hstore : store e.buf e.offset data = .error .outOfBounds := if_neg (by omega)
  rw [Prog.Faults, append_eq, if_neg (by omega), hstore]
  rfl

/-- `p` does the same as `q` on every buffer of this size that still has `n` bytes of numbers above
the offset. -/
def Agrees (w bufLen : Nat) (p q : Enc Unit) (n : Nat) : Prop :=
  ∀ e, e.buf.length = bufLen → e.offset ≤ bufLen → e.offset + n < 2 ^ w → p e = q e

/-- An append whose sum does not wrap is the same at both widths. -/
theorem append_agrees {w : Nat} (bufLen : Nat) (data : List UInt8) (hw : w ≤ 64) :
    Agrees w bufLen (append w bufLen data) (Proto.append bufLen data) data.length := by
  intro e hlen hoff h
  have hpow : 2 ^ w ≤ 2 ^ 64 := Nat.pow_le_pow_right (by decide) hw
  rw [append_eq, Proto.append_eq, add_of_lt h, sizeAdd_of_lt (by omega)]

theorem Agrees.seq {w bufLen : Nat} {p p' q q' : Enc Unit} {d₁ d₂ : List UInt8}
    (hp : Agrees w bufLen p q d₁.length) (hq : Appends bufLen q d₁)
    (hp' : Agrees w bufLen p' q' d₂.length) :
    Agrees w bufLen (p >>= fun _ => p') (q >>= fun _ => q') (d₁ ++ d₂).length := by
  intro e hlen hoff hlt
  rw [List.length_append] at hlt
  refine Prog.bind_congr (hp e hlen hoff (by omega)) fun _ e₁ h₁ => ?_
  have hwrote : Wrote e d₁ e₁ := hq e hlen hoff _ _ h₁
  refine hp' e₁ (hwrote.length.trans hlen) (hlen ▸ hwrote.bound) ?_
  rw [hwrote.offset]
  omega

/-! ## A framed packet -/

/-- The steps before the body, at every width at once: no room for them, or the body starts behind
the header byte and the gap. -/
theorem framed_eq {bufLen : Nat} (header : UInt8) {e : Encoder} (hlen : e.buf.length = bufLen)
    (hoff : e.offset = 0) :
    (bufLen < 5 ∧ ∃ e', e'.buf.length = bufLen ∧ e'.outLen = e.outLen ∧
      ∀ w body, 3 ≤ w → framed w bufLen header body e = .ok (.error bufferTooSmall, e')) ∨
    (5 ≤ bufLen ∧ ∃ e₂, e₂.buf.length = bufLen ∧ e₂.offset = 5 ∧ e₂.outLen = e.outLen ∧
      ∀ w body, 3 ≤ w →
        framed w bufLen header body e = (body >>= fun _ => finishRemainingLength w 1) e₂) := by
  have hpow : ∀ {w}, 3 ≤ w → 5 < 2 ^ w := by
    intro w hw
    have : 2 ^ 3 ≤ 2 ^ w := Nat.pow_le_pow_right (by decide) hw
    omega
  have hone : ∀ {w}, 3 ≤ w → add w e.offset [header].length = 1 := by
    intro w hw
    have := hpow hw
    rw [hoff]
    exact add_of_lt (show 0 + 1 < 2 ^ w by omega)
  have hfive : ∀ {w}, 3 ≤ w → add w 1 remainingLengthMaxBytes = 5 := fun hw => add_of_lt (hpow hw)
  by_cases hempty : bufLen < 1
  · refine Or.inl ⟨by omega, e, hlen, rfl, fun w body hw => ?_⟩
    refine Prog.bind_of_error ?_
    rw [appendByte, append_eq, hone hw, if_pos hempty]
  · -- the header byte is in place, and the gap comes next
    obtain ⟨buf, hstore⟩ := exists_store e.buf e.offset [header] (by
      rw [hoff, hlen, List.length_singleton]
      omega)
    have hlen₁ : buf.length = bufLen := (length_of_store hstore).trans hlen
    have hbyte : ∀ {w}, 3 ≤ w →
        appendByte w bufLen header e = .ok (.ok (), { e with buf := buf, offset := 1 }) := by
      intro w hw
      rw [appendByte, append_eq, hone hw, if_neg (by omega), hstore]
      rfl
    by_cases hshort : bufLen < 5
    · refine Or.inl ⟨hshort, { e with buf := buf, offset := 1 }, hlen₁, rfl, fun w body hw => ?_⟩
      rw [framed, Prog.bind_of_ok (hbyte hw), Prog.run_get_bind]
      refine Prog.bind_of_error (Prog.bind_of_error ?_)
      simp [ensureSpace, hfive hw, hshort]
    · refine Or.inr ⟨by omega, { e with buf := buf, offset := 5 }, hlen₁, rfl, rfl,
        fun w body hw => ?_⟩
      rw [framed, Prog.bind_of_ok (hbyte hw), Prog.run_get_bind]
      refine Prog.bind_of_ok (a := ()) ?_
      have hroom : ensureSpace w remainingLengthMaxBytes bufLen { e with buf := buf, offset := 1 } =
          .ok (.ok (), { e with buf := buf, offset := 1 }) := by
        simp [ensureSpace, hfive hw, hshort]
      refine (Prog.bind_of_ok hroom).trans ?_
      simp only [Prog.run_modify, hfive hw]

/-- The end of the encoder adds up no more than the bytes that have been written. -/
theorem finishRemainingLength_agrees {w : Nat} {e : Encoder} (hw : w ≤ 64) (hfive : 5 ≤ e.offset)
    (h : e.offset < 2 ^ w) : finishRemainingLength w 1 e = Proto.finishRemainingLength 1 e := by
  have hpow : 2 ^ w ≤ 2 ^ 64 := Nat.pow_le_pow_right (by decide) hw
  have hgap : add w 1 remainingLengthMaxBytes = 5 :=
    add_of_lt (show 1 + 4 < 2 ^ w by omega)
  have hsub : checkedSub e.offset 5 = .ok (e.offset - 5) := checkedSub_eq_ok.mpr ⟨hfive, rfl⟩
  have hgap' : sizeAdd 1 remainingLengthMaxBytes = 5 := rfl
  unfold finishRemainingLength Proto.finishRemainingLength
  simp only [Prog.run_get_bind, hgap, hgap', hsub, Prog.run_ofExcept_ok_bind]
  refine Prog.bind_congr rfl fun out e' hout => ?_
  obtain ⟨result, rlBuf⟩ := out
  cases result with
  | error status => rfl
  | ok rlLen =>
    -- the length field has at most four bytes
    have hfour : rlLen ≤ 4 := by
      have hrun : encodeRemainingLength ((e.offset - 5) % 2 ^ 32)
          (List.replicate remainingLengthMaxBytes (0 : UInt8)).length
          (List.replicate remainingLengthMaxBytes 0) = .ok (.ok rlLen, rlBuf) :=
        (Prog.ofExcept_eq_ok.mp hout).1
      obtain ⟨hwidth, hrl, -⟩ := encodeRemainingLength_ok hrun
      rw [hrl]
      exact hwidth
    have hmod : (e.offset - 5) % 2 ^ 32 ≤ e.offset - 5 := Nat.mod_le _ _
    have hpos : add w 1 rlLen = sizeAdd 1 rlLen := by
      rw [add_of_lt (by omega), sizeAdd_of_lt (by omega)]
    have hend : add w (sizeAdd 1 rlLen) ((e.offset - 5) % 2 ^ 32) =
        sizeAdd (sizeAdd 1 rlLen) ((e.offset - 5) % 2 ^ 32) := by
      rw [sizeAdd_of_lt (show 1 + rlLen < 2 ^ 64 by omega), add_of_lt (by omega),
        sizeAdd_of_lt (by omega)]
    simp only [hpos, hend]

/-- **Without a wrap the width does not matter.** A framed packet whose body does the same at `w`
bits as at 64, and is no longer than `w` bits can count, is encoded the same. -/
theorem framed_agrees {w bufLen : Nat} {header : UInt8} {body body' : Enc Unit}
    {data : List UInt8} {e : Encoder} (hw : 3 ≤ w) (hw' : w ≤ 64)
    (hbody : ∀ e₂, e₂.buf.length = bufLen → e₂.offset = 5 → 5 ≤ bufLen → body e₂ = body' e₂)
    (happ : Appends bufLen body' data) (hlen : e.buf.length = bufLen) (hoff : e.offset = 0)
    (hfits : 5 + data.length < 2 ^ w) :
    framed w bufLen header body e = Proto.framed bufLen header body' e := by
  rw [← framed_64]
  rcases framed_eq header hlen hoff with
    ⟨-, e', -, -, hrun⟩ | ⟨hfive, e₂, hlen₂, hoff₂, -, hrun⟩
  · rw [hrun w body hw, hrun 64 body' (by decide)]
  · rw [hrun w body hw, hrun 64 body' (by decide)]
    refine Prog.bind_congr (hbody e₂ hlen₂ hoff₂ hfive) fun _ e₃ h₃ => ?_
    have hwrote : Wrote e₂ data e₃ := happ e₂ hlen₂ (by omega) _ _ h₃
    have hoff₃ : e₃.offset = 5 + data.length := by rw [hwrote.offset, hoff₂]
    exact finishRemainingLength_agrees hw' (by omega) (by omega)

/-! ## What fits -/

/-- The encoder `p` of a packet with a body of `body` bytes accepts exactly what fits, and never
writes outside of the buffer: there is room for the body behind the header byte and the gap, and the
length field can hold its length. -/
def ExactlyFits (bufLen : Nat) (p : Enc Unit) (body : Nat) : Prop :=
  ∀ e : Encoder, e.buf.length = bufLen → e.offset = 0 → p.Returns e fun r e' =>
    e'.buf.length = bufLen ∧
    (5 + body ≤ bufLen ∧ body ≤ 268435455 →
      r = .ok () ∧ e'.outLen = 1 + Varint.width body + body) ∧
    (¬ (5 + body ≤ bufLen ∧ body ≤ 268435455) →
      r = .error bufferTooSmall ∧ e'.outLen = e.outLen)

/-- What the framing makes of a body that the length field does not cut. -/
theorem framedEnd_exactly {header : UInt8} {data : List UInt8} {e e' : Encoder}
    {r : Except Status Unit} (h : FramedEnd header data e r e')
    (hcut : e.buf.length < 5 + data.length ∨ data.length < 2 ^ 28 ∨
      2 ^ 28 ≤ data.length % 2 ^ 32) :
    (5 + data.length ≤ e.buf.length ∧ data.length ≤ 268435455 →
      r = .ok () ∧ e'.outLen = 1 + Varint.width data.length + data.length) ∧
    (¬ (5 + data.length ≤ e.buf.length ∧ data.length ≤ 268435455) →
      r = .error bufferTooSmall ∧ e'.outLen = e.outLen) := by
  cases r with
  | error status =>
    obtain ⟨rfl, -, hout, hbad⟩ := h
    refine ⟨fun hfit => ?_, fun _ => ⟨rfl, hout⟩⟩
    have hmod : data.length % 2 ^ 32 = data.length := Nat.mod_eq_of_lt (by omega)
    omega
  | ok u =>
    obtain ⟨-, hrl, hroom, hout, -⟩ := h
    -- what is left of the length is all of it
    have hsmall : data.length < 2 ^ 28 := by omega
    have hmod : data.length % 2 ^ 32 = data.length := Nat.mod_eq_of_lt (by omega)
    have hwidth := (width_le_four_iff data.length).mpr (by omega)
    refine ⟨fun _ => ⟨rfl, ?_⟩, fun hno => absurd ⟨hroom, by omega⟩ hno⟩
    rw [hout, hmod, List.take_length, List.length_cons, List.length_append,
      Varint.length_encode hwidth]
    omega

/-- **What the framing accepts.** -/
theorem exactlyFits_of_framedEnd {bufLen : Nat} {p : Enc Unit} {data : List UInt8} (header : UInt8)
    (h : ∀ e : Encoder, e.buf.length = bufLen → e.offset = 0 →
      p.Returns e (FramedEnd header data e))
    (hcut : bufLen < 5 + data.length ∨ data.length < 2 ^ 28 ∨ 2 ^ 28 ≤ data.length % 2 ^ 32) :
    ExactlyFits bufLen p data.length := by
  intro e hlen hoff
  refine (h e hlen hoff).mono fun r e' hend => ⟨hend.length.trans hlen, ?_⟩
  have hexact := framedEnd_exactly hend (by rwa [hlen])
  rwa [hlen] at hexact

/-- The framing at `w` bits, for a body that does the same as at 64. -/
theorem framed_returns {w bufLen : Nat} {header : UInt8} {body body' : Enc Unit}
    {data : List UInt8} {e : Encoder} (hw : 3 ≤ w) (hw' : w ≤ 64) (hbuf : bufLen < 2 ^ w)
    (hbody : ∀ e₂, e₂.buf.length = bufLen → e₂.offset = 5 → 5 ≤ bufLen → body e₂ = body' e₂)
    (happ : Appends bufLen body' data) (hsafe : Safe bufLen body' data.length)
    (hlen : e.buf.length = bufLen) (hoff : e.offset = 0) (hfits : 5 + data.length < 2 ^ w) :
    (framed w bufLen header body).Returns e (FramedEnd header data e) := by
  have hpow : 2 ^ w ≤ 2 ^ 64 := Nat.pow_le_pow_right (by decide) hw'
  rw [Prog.Returns, framed_agrees hw hw' hbody happ hlen hoff hfits]
  exact Proto.framed_returns (by omega) happ hsafe hlen hoff (by omega)

/-! ## The bodies -/

section Bodies

variable {w bufLen : Nat}

theorem connectSteps_agrees (hw : w ≤ 64) (hbuf : bufLen < 2 ^ 64) (clientId : List UInt8)
    (keepaliveSec : UInt16) :
    Agrees w bufLen (connectSteps w bufLen clientId keepaliveSec)
      (connectSteps 64 bufLen clientId keepaliveSec)
      (Packet.connect clientId keepaliveSec).body.length := by
  have hagree := fun data => append_agrees bufLen data hw
  have happ : ∀ data, Appends bufLen (Proto.append bufLen data) data := append_appends hbuf
  exact (hagree _).seq (happ _) <| (hagree _).seq (happ _) <| (hagree _).seq (happ _) <|
    (hagree _).seq (happ _) (hagree _)

theorem subscribeSteps_agrees (hw : w ≤ 64) (hbuf : bufLen < 2 ^ 64) (packetId : UInt16)
    (topic : List UInt8) :
    Agrees w bufLen (subscribeSteps w bufLen packetId topic)
      (subscribeSteps 64 bufLen packetId topic) (Packet.subscribe packetId topic).body.length := by
  have hagree := fun data => append_agrees bufLen data hw
  have happ : ∀ data, Appends bufLen (Proto.append bufLen data) data := append_appends hbuf
  exact (hagree _).seq (happ _) <| (hagree _).seq (happ _) (hagree _)

theorem publishSteps_agrees (hw : w ≤ 64) (hbuf : bufLen < 2 ^ 64) (topic payload : List UInt8) :
    Agrees w bufLen (publishSteps w bufLen topic payload) (publishSteps 64 bufLen topic payload)
      (Packet.publish topic payload).body.length :=
  (append_agrees bufLen _ hw).seq (append_appends hbuf _) (append_agrees bufLen _ hw)

/-- If the topic is already too long, the payload is not looked at. -/
theorem publishSteps_short {e : Encoder} {topic : List UInt8} (hw : w ≤ 64) (hbuf : bufLen < 2 ^ 64)
    (payload : List UInt8) (hlen : e.buf.length = bufLen) (hoff : e.offset ≤ bufLen)
    (hfits : e.offset + (2 + topic.length) < 2 ^ w)
    (hshort : bufLen < e.offset + (2 + topic.length)) :
    publishSteps w bufLen topic payload e = publishSteps 64 bufLen topic [] e := by
  have hdata : (uint16Be topic.length ++ topic).length = 2 + topic.length := by
    rw [List.length_append, length_uint16Be]
  refine Prog.bind_congr (append_agrees bufLen _ hw e hlen hoff (by omega)) fun _ e₁ h₁ => ?_
  have hwrote : Wrote e (uint16Be topic.length ++ topic) e₁ :=
    append_appends hbuf _ e hlen hoff _ _ h₁
  have hbound := hwrote.bound
  rw [hwrote.offset] at hbound
  omega

/-- If the topic fits, a payload that makes the sum wrap is copied past the end of the buffer. -/
theorem publishSteps_faults {e : Encoder} {topic payload : List UInt8} (hw : w ≤ 64)
    (hbuf : bufLen < 2 ^ w) (hpayload : payload.length < 2 ^ w) (hlen : e.buf.length = bufLen)
    (hroom : e.offset + (2 + topic.length) ≤ bufLen)
    (hwrap : 2 ^ w ≤ e.offset + (2 + topic.length) + payload.length) :
    (publishSteps w bufLen topic payload).Faults e .outOfBounds := by
  have hpow : 2 ^ w ≤ 2 ^ 64 := Nat.pow_le_pow_right (by decide) hw
  have hdata : (uint16Be topic.length ++ topic).length = 2 + topic.length := by
    rw [List.length_append, length_uint16Be]
  obtain ⟨e₁, h₁⟩ := exists_append e (uint16Be topic.length ++ topic) (by omega) (by omega)
  rw [hlen] at h₁
  have hwrote : Wrote e (uint16Be topic.length ++ topic) e₁ :=
    append_appends (by omega) _ e hlen (by omega) _ _ h₁
  have hoff₁ : e₁.offset = e.offset + (2 + topic.length) := by rw [hwrote.offset, hdata]
  have htopic : writeUtf8 w bufLen topic e = .ok (.ok (), e₁) :=
    (append_agrees bufLen _ hw e hlen (by omega) (by omega)).trans h₁
  rw [Prog.Faults, publishSteps, Prog.bind_of_ok htopic]
  exact append_faults (hwrote.length.trans hlen) (by omega) hbuf hpayload (by omega)

end Bodies

/-! ## The encoders -/

section Encoders

variable {w bufLen : Nat} (hw : 32 ≤ w) (hw' : w ≤ 64) (hbuf : bufLen < 2 ^ w)

include hw hw' hbuf

theorem encodeConnect_exactlyFits {clientId : List UInt8} (hid : clientId.length ≤ 65535)
    (keepaliveSec : UInt16) :
    ExactlyFits bufLen (encodeConnect w bufLen clientId keepaliveSec) (12 + clientId.length) := by
  obtain ⟨hlow, hhigh⟩ := two_pow_bounds hw hw'
  have hbody := length_connect_body clientId keepaliveSec
  rw [← hbody]
  refine exactlyFits_of_framedEnd (headerByte .connect 0) (fun e hlen hoff => ?_) (by omega)
  refine framed_returns (by omega) hw' hbuf (fun e₂ hlen₂ hoff₂ h5 => ?_)
    (connect_appends (by omega) clientId keepaliveSec)
    (connect_safe (by omega) clientId keepaliveSec) hlen hoff (by omega)
  exact connectSteps_agrees hw' (by omega) clientId keepaliveSec e₂ hlen₂ (by omega) (by omega)

theorem encodeSubscribe_exactlyFits {topic : List UInt8} (htopic : topic.length ≤ 65535)
    (packetId : UInt16) :
    ExactlyFits bufLen (encodeSubscribe w bufLen packetId topic) (5 + topic.length) := by
  obtain ⟨hlow, hhigh⟩ := two_pow_bounds hw hw'
  have hbody := length_subscribe_body packetId topic
  rw [← hbody]
  refine exactlyFits_of_framedEnd (headerByte .subscribe subscribeFlags) (fun e hlen hoff => ?_)
    (by omega)
  refine framed_returns (by omega) hw' hbuf (fun e₂ hlen₂ hoff₂ h5 => ?_)
    (subscribe_appends (by omega) packetId topic) (subscribe_safe (by omega) packetId topic)
    hlen hoff (by omega)
  exact subscribeSteps_agrees hw' (by omega) packetId topic e₂ hlen₂ (by omega) (by omega)

/-- A topic that is too long for the buffer is refused, whatever the length of the payload. -/
theorem encodePublish_short {topic payload : List UInt8} (htopic : topic.length ≤ 65535)
    (hshort : bufLen < 7 + topic.length) :
    ExactlyFits bufLen (encodePublish w bufLen topic payload)
      (2 + topic.length + payload.length) := by
  obtain ⟨hlow, hhigh⟩ := two_pow_bounds hw hw'
  have hbody := length_publish_body topic []
  rw [List.length_nil] at hbody
  -- the run is that of the topic alone
  have hfits : ExactlyFits bufLen (encodePublish w bufLen topic payload)
      (Packet.publish topic []).body.length := by
    refine exactlyFits_of_framedEnd (headerByte .publish 0) (fun e hlen hoff => ?_) (by omega)
    refine framed_returns (by omega) hw' hbuf (fun e₂ hlen₂ hoff₂ h5 => ?_)
      (publish_appends (by omega) topic []) (publish_safe (by omega) topic []) hlen hoff (by omega)
    exact publishSteps_short hw' (by omega) payload hlen₂ (by omega) (by omega) (by omega)
  intro e hlen hoff
  refine (hfits e hlen hoff).mono fun r e' h => ⟨h.1, fun hroom => ?_, fun _ => h.2.2 ?_⟩
  · omega
  · omega

/-- A sum that does not wrap: the encoder goes by the length field. -/
theorem encodePublish_framed {topic payload : List UInt8} {e : Encoder}
    (hlen : e.buf.length = bufLen) (hoff : e.offset = 0)
    (hsum : 7 + topic.length + payload.length < 2 ^ w) :
    (encodePublish w bufLen topic payload).Returns e
      (FramedEnd (headerByte .publish 0) (Packet.publish topic payload).body e) := by
  have hpow : 2 ^ w ≤ 2 ^ 64 := Nat.pow_le_pow_right (by decide) hw'
  have hbody := length_publish_body topic payload
  refine framed_returns (by omega) hw' hbuf (fun e₂ hlen₂ hoff₂ h5 => ?_)
    (publish_appends (by omega) topic payload) (publish_safe (by omega) topic payload) hlen hoff
    (by omega)
  exact publishSteps_agrees hw' (by omega) topic payload e₂ hlen₂ (by omega) (by omega)

/-- A sum that wraps behind a topic that fits: the encoder writes past the end of the buffer. -/
theorem encodePublish_faults {topic payload : List UInt8} {e : Encoder}
    (hlen : e.buf.length = bufLen) (hoff : e.offset = 0) (hpayload : payload.length < 2 ^ w)
    (hroom : 7 + topic.length ≤ bufLen) (hwrap : 2 ^ w ≤ 7 + topic.length + payload.length) :
    (encodePublish w bufLen topic payload).Faults e .outOfBounds := by
  rcases framed_eq (headerByte .publish 0) hlen hoff with
    ⟨h5, -⟩ | ⟨-, e₂, hlen₂, hoff₂, -, hrun⟩
  · omega
  · have hfault : (publishSteps w bufLen topic payload).Faults e₂ .outOfBounds :=
      publishSteps_faults hw' hbuf hpayload hlen₂ (by omega) (by omega)
    rw [Prog.Faults, encodePublish, hrun w _ (by omega)]
    exact Prog.bind_of_fault hfault

/-- **When PUBLISH accepts exactly what fits.** -/
theorem encodePublish_exactlyFits_iff {topic payload : List UInt8} (htopic : topic.length ≤ 65535)
    (hpayload : payload.length < 2 ^ w) :
    ExactlyFits bufLen (encodePublish w bufLen topic payload)
        (2 + topic.length + payload.length) ↔
      bufLen < 7 + topic.length ∨ 7 + topic.length + payload.length < 2 ^ w ∧
        (bufLen < 7 + topic.length + payload.length ∨
          2 + topic.length + payload.length < 2 ^ 28 ∨
          2 ^ 28 ≤ (2 + topic.length + payload.length) % 2 ^ 32) := by
  have hbody := length_publish_body topic payload
  constructor
  · intro hfits
    by_contra hno
    obtain ⟨e, hlen, hoff⟩ : ∃ e : Encoder, e.buf.length = bufLen ∧ e.offset = 0 :=
      ⟨⟨List.replicate bufLen 0, 0, 0⟩, List.length_replicate, rfl⟩
    obtain ⟨r, e', hrun, -, -, hrefused⟩ := hfits e hlen hoff
    by_cases hwrap : 2 ^ w ≤ 7 + topic.length + payload.length
    · -- no result at all
      have hfault := encodePublish_faults hw hw' hbuf hlen hoff hpayload (by omega) hwrap
      rw [Prog.Faults, hrun] at hfault
      cases hfault
    · -- a length of more than 32 bits that looks like a short one
      obtain ⟨r', e'', hrun', hend⟩ := encodePublish_framed hw hw' hbuf hlen hoff
        (show 7 + topic.length + payload.length < 2 ^ w by omega)
      rw [hrun] at hrun'
      cases hrun'
      obtain ⟨rfl, -⟩ := hrefused (by omega)
      obtain ⟨-, -, -, hshort | hlong⟩ := hend
      · omega
      · omega
  · rintro (hshort | ⟨hsum, hcut⟩)
    · exact encodePublish_short hw hw' hbuf htopic hshort
    · rw [← hbody]
      refine exactlyFits_of_framedEnd (headerByte .publish 0) (fun e hlen hoff => ?_) (by omega)
      exact encodePublish_framed hw hw' hbuf hlen hoff hsum

/-- **What fits, at every width.** CONNECT and SUBSCRIBE accept exactly what fits. PUBLISH does so
exactly if the topic alone is already too long, or else the sum of its lengths does not wrap and the
packet is too long for the buffer, or short enough for the length field, or too long for it in the
low 32 bits too. -/
theorem encode_exactlyFits_iff (str : List UInt8) (hstr : str.length ≤ 65535) :
    (∀ keepaliveSec,
      ExactlyFits bufLen (encodeConnect w bufLen str keepaliveSec) (12 + str.length)) ∧
    (∀ packetId, ExactlyFits bufLen (encodeSubscribe w bufLen packetId str) (5 + str.length)) ∧
    (∀ payload : List UInt8, payload.length < 2 ^ w →
      (ExactlyFits bufLen (encodePublish w bufLen str payload)
          (2 + str.length + payload.length) ↔
        bufLen < 7 + str.length ∨ 7 + str.length + payload.length < 2 ^ w ∧
          (bufLen < 7 + str.length + payload.length ∨
            2 + str.length + payload.length < 2 ^ 28 ∨
            2 ^ 28 ≤ (2 + str.length + payload.length) % 2 ^ 32))) := by
  refine ⟨fun keepaliveSec => ?_, fun packetId => ?_, fun payload hpayload => ?_⟩
  · exact encodeConnect_exactlyFits hw hw' hbuf hstr keepaliveSec
  · exact encodeSubscribe_exactlyFits hw hw' hbuf hstr packetId
  · exact encodePublish_exactlyFits_iff hw hw' hbuf hstr hpayload

end Encoders

/-- Topic "a" and one byte of payload in a buffer of 9 bytes, at 32 bits. -/
theorem encode_exactlyFits_iff_a :
    ExactlyFits 9 (encodePublish 32 9 [0x61] [1]) 4 ∧
      ExactlyFits 9 (encodeSubscribe 32 9 1 [0x61]) 6 := by
  obtain ⟨-, hsubscribe, hpublish⟩ :=
    @encode_exactlyFits_iff 32 9 (by decide) (by decide) (by decide) [0x61] (by decide)
  exact ⟨(hpublish [1] (by decide)).mpr (by decide), hsubscribe 1⟩

/-- A payload that brings the body to `2 ^ 32` bytes goes out as a packet of two bytes; and where
`size_t` has 32 bits, a payload that wraps the sum runs off a buffer of sixteen. -/
theorem encodePublish_not_exactlyFits :
    ¬ ExactlyFits (2 ^ 32 + 5)
        (encodePublish 64 (2 ^ 32 + 5) [0x61] (List.replicate (2 ^ 32 - 3) 0)) (2 ^ 32) ∧
      ((encodePublish 64 (2 ^ 32 + 5) [0x61] (List.replicate (2 ^ 32 - 3) 0)).Returns
        ⟨List.replicate (2 ^ 32 + 5) 0, 0, 0⟩ fun r e' => r = .ok () ∧ e'.outLen = 2) ∧
      (encodePublish 32 16 [0x61] (List.replicate (2 ^ 32 - 1) 0)).Faults
        ⟨List.replicate 16 0, 0, 0⟩ .outOfBounds := by
  have hlength : (List.replicate (2 ^ 32 - 3) (0 : UInt8)).length = 2 ^ 32 - 3 :=
    List.length_replicate
  have hbody := length_publish_body [0x61] (List.replicate (2 ^ 32 - 3) 0)
  rw [hlength, List.length_singleton] at hbody
  refine ⟨fun hfits => ?_, ?_, ?_⟩
  · -- 2^32 - 3 bytes of payload make the body 2^32 bytes long, whose `uint32_t` is 0
    have hiff := @encodePublish_exactlyFits_iff 64 (2 ^ 32 + 5) (by decide) (by decide) (by decide)
      [0x61] (List.replicate (2 ^ 32 - 3) 0) (by decide) (by rw [hlength]; decide)
    rw [hlength, List.length_singleton] at hiff
    exact absurd (hiff.mp hfits) (by decide)
  · refine (encodePublish_framed (w := 64) (by decide) (by decide) (by decide)
      List.length_replicate rfl (by rw [hlength]; decide)).mono fun r e' hend => ?_
    cases r with
    | error status =>
      obtain ⟨-, -, -, hshort | hlong⟩ := hend
      · rw [List.length_replicate] at hshort
        omega
      · rw [hbody] at hlong
        exact absurd hlong (by decide)
    | ok u =>
      obtain ⟨-, -, -, hout, -⟩ := hend
      refine ⟨rfl, ?_⟩
      rw [hout, hbody]
      rfl
  · -- with a 32-bit `size_t` the sum of offset and payload wraps past the check
    refine encodePublish_faults (by decide) (by decide) (by decide) List.length_replicate rfl ?_
      (by decide) ?_
    · rw [List.length_replicate]
      decide
    · rw [List.length_replicate]
      decide

end SizeT

end Aemlib.Proto
