import Aemlib.Behaviour.Bounds
import Aemlib.Trace

/-!
# A staged packet drains

One packet from its `client_send` to the last byte of it. Whatever the transport takes at a time,
the part it has taken and the part still staged are the packet, so no byte is lost or sent twice at
any of the places where a write can stop.
-/

namespace Aemlib

open Machine Proto

variable {σ : Type}

def flushTimes (n : Nat) : Api σ Unit := Prog.forAll (fun _ => clientFlushPending) (List.range n)

/-- Since the world was `w`, the transport has taken the front of `packet` and the rest is staged.
Nothing is staged exactly if all of it was taken. -/
def Drains (w : World σ) (packet : List UInt8) (w' : World σ) : Prop :=
  ∃ events, w'.trace = events ++ w.trace ∧ accepted events ++ w'.client.staged = packet ∧
    (w'.client.txPendingLen = 0 ↔ accepted events = packet)

/-! ## One call -/

/-- With a sound client the two readings of "nothing staged" are the same. -/
theorem Drains.of_split {w w' : World σ} {packet : List UInt8} (events : List Event)
    (hs : w'.client.Sound) (htrace : w'.trace = events ++ w.trace)
    (hsplit : accepted events ++ w'.client.staged = packet) : Drains w packet w' := by
  refine ⟨events, htrace, hsplit, ?_⟩
  rw [← hs.length_staged, List.length_eq_zero_iff, ← hsplit]
  constructor
  · intro hnil
    rw [hnil, List.append_nil]
  · intro hall
    exact List.append_right_eq_self.mp hall.symm

/-- The send takes what the transport takes, and stages the rest. -/
theorem clientSend_drains {w w' : World σ} {p : Packet} {len : Nat} (hs : w.client.Sound)
    (hlen : len ≤ w.client.txBufferSize) (hzero : w.client.txPendingLen = 0)
    (h : clientSend p len w = .ok (.ok (), w')) :
    Drains w (w.client.txBuffer.take len) w' ∧ w'.client.Sound ∧
      w'.client.transport = w.client.transport := by
  have hroom : len ≤ w.client.txBuffer.length := by rw [hs.txLength]; exact hlen
  cases hf : w.client.transport.write with
  | none =>
    -- without a transport the send does not return OK
    have hmissing : HardError (mkStatus .io .invalidArg) := by decide
    have hwrite : transportWrite len w = .ok (.ok ⟨mkStatus .io .invalidArg, 0⟩, w) := by
      unfold transportWrite
      simp only [Prog.run_get_bind, hf]
      rfl
    unfold clientSend at h
    simp only [run_getClient_bind] at h
    rw [if_neg (by omega), Prog.bind_of_ok hwrite] at h
    simp only [if_pos hmissing] at h
    cases h
  | some write =>
    rcases hcall : write w.env (w.client.txBuffer.take len) with ⟨res, env⟩
    rw [clientSend_eq hroom hzero hf rfl hcall] at h
    split at h
    · cases h
    · next hres =>
      cases h
      have hsound : ({ w.client with
          txBuffer := slide w.client.txBuffer res.written (len - res.written)
          txPendingLen := len - res.written } : Client σ).Sound :=
        { hs with
          txLength := (length_slide hroom).trans hs.txLength
          txPending := (Nat.sub_le _ _).trans hlen }
      refine ⟨.of_split [.sent p, .write (w.client.txBuffer.take len) res] hsound rfl ?_, hsound,
        rfl⟩
      rw [Client.staged, take_slide hroom]
      exact WriteResult.taken_append_drop hres _

/-- A flush takes what the transport takes from the front of what is staged. -/
theorem Flushes.drains {w v v' : World σ} {packet : List UInt8} {r : Except Status Unit}
    (hv : v.client.Sound) (h : Flushes v r v') (hd : Drains w packet v) :
    Drains w packet v' ∧ v'.client.Sound ∧ v'.client.transport = v.client.transport ∧
      v'.client.txPendingLen ≤ v.client.txPendingLen := by
  obtain ⟨events, htrace, hsplit, -⟩ := hd
  cases h with
  | idle hzero => exact ⟨.of_split events hv htrace hsplit, hv, rfl, Nat.le_refl _⟩
  | failed write res env hpos hf hcall hres =>
    refine ⟨.of_split (.write v.client.staged res :: events) hv ?_ ?_, hv, rfl,
      Nat.le_refl _⟩
    · rw [htrace, List.cons_append]
    · rw [accepted, WriteResult.taken_of_hardError hres, List.append_nil]
      exact hsplit
  | flushed write res env hpos hf hcall hres hle =>
    refine ⟨.of_split (.write v.client.staged res :: events) (hv.unstage _) ?_ ?_,
      hv.unstage _, rfl, Nat.sub_le _ _⟩
    · rw [htrace, List.cons_append]
    · show accepted (.write v.client.staged res :: events) ++ (v.client.unstage res.written).staged
        = packet
      rw [hv.staged_unstage, accepted, List.append_assoc, WriteResult.taken_append_drop hres]
      exact hsplit

/-! ## Any number of calls -/

/-- **A staged packet drains.** From a client with nothing staged, a `client_send` of the first
`len` bytes of `tx_buffer` that returns OK, and any number of `client_flush_pending` after it:
whatever the transport has answered, the bytes it has taken and the bytes staged are the packet,
and nothing is staged exactly if all of them were taken. One more flush never stages more. -/
theorem flushTimes_drains {w w₁ : World σ} {p : Packet} {len : Nat} (hs : w.client.Sound)
    (hwrites : w.client.transport.WritesWithin) (hlen : len ≤ w.client.txBufferSize)
    (hzero : w.client.txPendingLen = 0) (hsend : clientSend p len w = .ok (.ok (), w₁)) (n : Nat) :
    (flushTimes n).Returns w₁ fun _ w₂ => Drains w (w.client.txBuffer.take len) w₂ ∧
      clientFlushPending.Returns w₂ fun _ w₃ =>
        w₃.client.txPendingLen ≤ w₂.client.txPendingLen := by
  obtain ⟨hdrains, hsound, htransport⟩ := clientSend_drains hs hlen hzero hsend
  have hflush : ∀ v : World σ, v.client.Sound → v.client.transport = w.client.transport →
      clientFlushPending.Returns v (Flushes v) := fun v hv htv =>
    clientFlushPending_returns hv (htv ▸ hwrites)
  suffices h : (flushTimes n).Returns w₁ fun _ v => Drains w (w.client.txBuffer.take len) v ∧
      v.client.Sound ∧ v.client.transport = w.client.transport by
    refine h.mono fun _ v hv => ⟨hv.1, ?_⟩
    refine (hflush v hv.2.1 hv.2.2).mono fun _ _ h' => ?_
    exact (h'.drains hv.2.1 hv.1).2.2.2
  -- the invariant: sound, the transport of the beginning, taken and staged make up the packet
  refine Prog.forAll_returns ⟨hdrains, hsound, htransport⟩ fun _ _ v hv => ?_
  refine (hflush v hv.2.1 hv.2.2).mono fun _ _ h' => ?_
  obtain ⟨hd, hsv, htv, -⟩ := h'.drains hv.2.1 hv.1
  exact ⟨hd, hsv, htv.trans hv.2.2⟩

/-- Seven bytes in a buffer of eight, of which the transport takes two with the send; after that it
answers with `WOULD_BLOCK`, a hard error, three bytes and no byte. -/
theorem flushTimes_drains_seven :
    ∃ w w₁ : World Script, w.client.txBuffer = [1, 2, 3, 4, 5, 6, 7, 8] ∧
      clientSend .pingreq 7 w = .ok (.ok (), w₁) ∧ w₁.client.txPendingLen = 5 ∧
      (flushTimes 4).Returns w₁ fun _ w₂ =>
        w₂.client.txPendingLen = 2 ∧ Drains w [1, 2, 3, 4, 5, 6, 7] w₂ := by
  obtain ⟨w, hw⟩ : ∃ w : World Script, w =
      ⟨{ (Script.config 8 8 0 none).client with txBuffer := [1, 2, 3, 4, 5, 6, 7, 8] },
        ⟨[], [], [⟨statusOk, 2⟩, ⟨ioWouldBlock, 1⟩, ⟨Script.ioError, 0⟩, ⟨statusOk, 3⟩,
          ⟨statusOk, 0⟩], []⟩, []⟩ := ⟨_, rfl⟩
  have hs : w.client.Sound := by
    subst hw
    exact ⟨rfl, rfl, by decide, by decide, by decide, by decide, Or.inl ⟨rfl, rfl⟩⟩
  have hhonest : w.client.transport.WritesWithin := by
    subst hw
    exact Script.honest.writesWithin
  obtain ⟨_, w₁, hsend, rfl, hpending, r, w₂, hflush, hleft⟩ :
      (clientSend .pingreq 7).Returns w fun r w₁ => r = .ok () ∧ w₁.client.txPendingLen = 5 ∧
        (flushTimes 4).Returns w₁ fun _ w₂ => w₂.client.txPendingLen = 2 := by
    subst hw
    decide +kernel
  obtain ⟨r', w₂', hflush', hdrains, -⟩ := flushTimes_drains hs hhonest (by subst hw; decide)
    (by subst hw; rfl) hsend 4
  rw [hflush] at hflush'
  cases hflush'
  have hpacket : w.client.txBuffer.take 7 = [1, 2, 3, 4, 5, 6, 7] := by
    subst hw
    rfl
  rw [hpacket] at hdrains
  exact ⟨w, w₁, by subst hw; rfl, hsend, hpending, r, w₂, hflush, hleft, hdrains⟩

end Aemlib
