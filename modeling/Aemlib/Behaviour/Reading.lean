import Aemlib.Behaviour.Inbound
import Aemlib.Proto.RoundTrip

/-!
# What the packet loop leaves

`client_read` takes whole packets off the front of `rx_buffer`, on any bytes at all. What it leaves
behind is described for every end it can come to. What it does not survive is a message callback
that calls `aemlib_connect`, which empties the buffer under the loop.
-/

namespace Aemlib

open Machine Proto

variable {σ : Type}

/-! ## Callbacks that leave the buffer alone -/

/-- Code that leaves a sound client sound, and its inbound side as it was. -/
structure Spares (w w' : World σ) : Prop where
  sound : w'.client.Sound
  setup : w'.client.setup = w.client.setup
  held : w'.client.held = w.client.held
  trace : ∃ t, w'.trace = t ++ w.trace ∧ inbound t = [] ∧ messages t = []

theorem Spares.refl {w : World σ} (hs : w.client.Sound) : Spares w w :=
  ⟨hs, rfl, rfl, [], rfl, rfl, rfl⟩

theorem Spares.trans {w₁ w₂ w₃ : World σ} (h₁ : Spares w₁ w₂) (h₂ : Spares w₂ w₃) :
    Spares w₁ w₃ := by
  obtain ⟨t₁, ht₁, hin₁, hmsg₁⟩ := h₁.trace
  obtain ⟨t₂, ht₂, hin₂, hmsg₂⟩ := h₂.trace
  refine ⟨h₂.sound, h₂.setup.trans h₁.setup, h₂.held.trans h₁.held, t₂ ++ t₁, ?_, ?_, ?_⟩
  · rw [ht₂, ht₁, List.append_assoc]
  · rw [inbound_append, hin₁, hin₂, List.append_nil]
  · rw [messages_append, hmsg₁, hmsg₂, List.append_nil]

/-- Every request but `aemlib_connect`. -/
theorem request_spares {w : World σ} {q : Request} (hs : w.client.Sound) (hfits : q.Fits)
    (hq : q ≠ .connect) : (request q).Returns w fun _ w' => Spares w w' := by
  obtain ⟨r, w', hrun, href, -⟩ := request_returns hs hfits
  suffices h : w'.client.held = w.client.held ∧
      ∃ t, w'.trace = t ++ w.trace ∧ inbound t = [] ∧ messages t = [] from
    ⟨r, w', hrun, href.sound, href.setup, h.1, h.2⟩
  cases q with
  | connect => exact absurd rfl hq
  | disconnect =>
    have h : disconnect w = .ok (r, w') := hrun
    rw [disconnect_eq] at h
    split at h
    · cases h
      exact ⟨rfl, [], rfl, rfl, rfl⟩
    · cases h
      exact ⟨rfl, [], rfl, rfl, rfl⟩
  | publish topic payload qos =>
    have haside := request_aside hs rfl hrun
    exact ⟨haside.held, haside.trace⟩
  | subscribe topic qos =>
    have haside := request_aside hs rfl hrun
    exact ⟨haside.held, haside.trace⟩

/-- A message that a packet can carry: the topic has a length of 16 bits, and the whole body one of
four base-128 digits. -/
def Deliverable (topic payload : List UInt8) : Prop :=
  topic.length ≤ 65535 ∧ 2 + topic.length + payload.length ≤ 268435455

/-- A callback that sends and disconnects at most, on the messages it can be told. -/
def MessageFn.Gentle (f : MessageFn σ) : Prop :=
  ∀ env topic payload, Deliverable topic payload →
    ∀ q ∈ (f env topic payload).1, q.Fits ∧ q ≠ .connect

theorem MessageFn.Quiet.gentle {f : MessageFn σ} (h : f.Quiet) : f.Gentle := by
  intro env topic payload _ q hq
  rw [h env topic payload] at hq
  cases hq

/-- What the decoder accepts can be delivered. -/
theorem deliverable_of_packetMessage {header : FixedHeader}
    {bytes packet topic payload : List UInt8} (hparse : parseHeader bytes = .ok header)
    (h : packetMessage header packet = .ok (some (topic, payload))) :
    Deliverable topic payload := by
  have hbounds := parseHeader_bounds hparse
  unfold packetMessage at h
  split at h
  · split at h
    · cases h
    · next view hview =>
      have hmsg : view.message packet = (topic, payload) := Option.some.inj (Except.ok.inj h)
      obtain ⟨rfl, rfl⟩ := Prod.mk.inj hmsg
      unfold parsePublish at hview
      simp only at hview
      split at hview
      · cases hview
      · split at hview
        · cases hview
        · split at hview
          · cases hview
          -- two bytes hold the length of the topic, and the packet is one the header can announce
          · next hlong =>
            cases hview
            have hhi := (packet.getD header.headerSize 0).toNat_lt
            have hlo := (packet.getD (header.headerSize + 1) 0).toNat_lt
            unfold Deliverable
            simp only [List.length_take]
            omega
  · cases h

/-- Telling a callback a message to which it only sends and disconnects. -/
theorem callOnMessage_spares {w : World σ} {f : MessageFn σ} (topic payload : List UInt8)
    (hs : w.client.Sound)
    (hgentle : ∀ q ∈ (f w.env topic payload).1, q.Fits ∧ q ≠ .connect) :
    (callOnMessage f topic payload).Returns w fun r w' => r = .ok () ∧
      Spares ⟨w.client, (f w.env topic payload).2, .message topic payload :: w.trace⟩ w' := by
  generalize hw₁ : (⟨w.client, (f w.env topic payload).2, .message topic payload :: w.trace⟩ :
    World σ) = w₁
  have hs₁ : w₁.client.Sound := by
    rw [← hw₁]
    exact hs
  have hstep : ∀ q ∈ (f w.env topic payload).1, ∀ v : World σ, Spares w₁ v →
      (request q).Returns v fun _ v' => Spares w₁ v' := by
    intro q hq v hv
    obtain ⟨hfits, hne⟩ := hgentle q hq
    exact (request_spares hv.sound hfits hne).mono fun _ v' hv' => hv.trans hv'
  obtain ⟨r, w', hrun, hw'⟩ := Prog.forAll_returns (Spares.refl hs₁) hstep
  refine ⟨r, w', ?_, Prog.forAll_ok hrun, hw'⟩
  rw [← hw₁] at hrun
  exact hrun

/-- Dispatching the packet at the front: an error and nothing else, or its message, with the packet
still where it was. -/
theorem clientDispatchPacket_spares {w : World σ} {header : FixedHeader} (hs : w.client.Sound)
    (hgentle : ∀ f, w.client.onMessage = some f → f.Gentle)
    (hparse : parseHeader w.client.held = .ok header) (hn : header.packetLen ≤ w.client.rxLen) :
    (∃ status, packetMessage header (w.client.held.take header.packetLen) = .error status ∧
      clientDispatchPacket header header.packetLen w = .ok (.error status, w)) ∨
    (∃ m w', packetMessage header (w.client.held.take header.packetLen) = .ok m ∧
      clientDispatchPacket header header.packetLen w = .ok (.ok (), w') ∧
      w'.client.Sound ∧ w'.client.setup = w.client.setup ∧ w'.client.held = w.client.held ∧
      ∃ t, w'.trace = t ++ w.trace ∧ inbound t = [] ∧
        (w.client.onMessage.isSome → messages t = m.toList)) := by
  rw [clientDispatchPacket_eq hs hparse hn]
  cases hmsg : packetMessage header (w.client.held.take header.packetLen) with
  | error status => exact Or.inl ⟨status, rfl, rfl⟩
  | ok m =>
    refine Or.inr ⟨m, ?_⟩
    cases m with
    | none => exact ⟨w, rfl, rfl, hs, rfl, rfl, [], rfl, rfl, fun _ => rfl⟩
    | some message =>
      obtain ⟨topic, payload⟩ := message
      cases hon : w.client.onMessage with
      | none => exact ⟨w, rfl, rfl, hs, rfl, rfl, [], rfl, rfl, fun h => nomatch h⟩
      | some f =>
        -- what the callback calls leaves the packet where it is, and adds no message
        obtain ⟨r, w', hrun, rfl, hw'⟩ := callOnMessage_spares topic payload hs
          (hgentle f hon w.env topic payload (deliverable_of_packetMessage hparse hmsg))
        obtain ⟨t, ht, hin, hquiet⟩ := hw'.trace
        refine ⟨w', rfl, hrun, hw'.sound, hw'.setup, hw'.held, t ++ [.message topic payload], ?_,
          ?_, fun _ => ?_⟩
        · rw [ht, List.append_assoc]
          rfl
        · rw [inbound_append, hin]
          rfl
        · rw [messages_append, hquiet]
          rfl

/-! ## The loop on any bytes -/

/-- Bytes to wait with: none, an incomplete fixed header, or a proper part of a packet that a buffer
of `size` bytes can hold. -/
def Unfinished (size : Nat) (bytes : List UInt8) : Prop :=
  bytes = [] ∨ decodeFixedHeader bytes bytes.length = .ok (.error bufferTooSmall) ∨
    ∃ header, decodeFixedHeader bytes bytes.length = .ok (.ok header) ∧
      bytes.length < header.packetLen ∧ header.packetLen ≤ size

/-- What the loop has done between `w` and `w'`: taken `packets` off the front, told the callback
their messages, and kept the rest. -/
structure TakesOff (packets : List (List UInt8)) (w : World σ) (r : Except Status Unit)
    (w' : World σ) : Prop where
  sound : w'.client.Sound
  setup : w'.client.setup = w.client.setup
  bytes : w.client.held = packets.flatten ++ w'.client.held
  framed : ∀ p ∈ packets, WellFormed w.client.rxBufferSize p
  trace : ∃ t, w'.trace = t ++ w.trace ∧ inbound t = [] ∧
    (w.client.onMessage.isSome → messages t = packets.filterMap messageOf)
  ended : r = .ok () → Unfinished w'.client.rxBufferSize w'.client.held ∧
    (1 ≤ w'.client.rxBufferSize → w'.client.rxLen < w'.client.rxBufferSize)

/-- The loop ends without having taken anything off. -/
theorem takesOff_nil {w : World σ} {r : Except Status Unit} (hs : w.client.Sound)
    (hended : r = .ok () → Unfinished w.client.rxBufferSize w.client.held ∧
      (1 ≤ w.client.rxBufferSize → w.client.rxLen < w.client.rxBufferSize)) :
    TakesOff [] w r w where
  sound := hs
  setup := rfl
  bytes := rfl
  framed := by simp
  trace := ⟨[], rfl, rfl, fun _ => rfl⟩
  ended := hended

/-- A complete packet at the front, as the loop cuts it off. -/
theorem wellFormed_front {bytes : List UInt8} {header : FixedHeader} {size : Nat}
    {m : Option (List UInt8 × List UInt8)} (hparse : parseHeader bytes = .ok header)
    (hn : header.packetLen ≤ bytes.length) (hsize : header.packetLen ≤ size)
    (hmsg : packetMessage header (bytes.take header.packetLen) = .ok m) :
    WellFormed size (bytes.take header.packetLen) ∧
      messageOf (bytes.take header.packetLen) = m := by
  have hlen : (bytes.take header.packetLen).length = header.packetLen := by
    rw [List.length_take, Nat.min_eq_left hn]
  have hbounds := parseHeader_bounds hparse
  have hpacket := packetLen_eq hparse
  -- cutting behind the header does not change what the header decoder sees
  have hheader := parseHeader_take hparse (show header.headerSize ≤ header.packetLen by omega)
  have hdecode : decodeFixedHeader (bytes.take header.packetLen)
      (bytes.take header.packetLen).length = .ok (.ok header) := by
    rw [decodeFixedHeader_eq (Nat.le_refl _), List.take_length, hheader]
  have hview := decodePublish_eq (Nat.le_refl (bytes.take header.packetLen).length) hbounds.2.1
    hbounds.2.2.2
  rw [List.take_length] at hview
  have hgood : WellFormed size (bytes.take header.packetLen) := by
    refine ⟨header, hdecode, hlen.symm, by omega, ?_⟩
    intro htype
    unfold packetMessage at hmsg
    rw [htype] at hmsg
    simp only at hmsg
    split at hmsg
    · cases hmsg
    · next view hok =>
      rw [hok] at hview
      exact ⟨view, hview⟩
  refine ⟨hgood, ?_⟩
  obtain ⟨header', hparse', -, -, hmsg'⟩ := hgood.parse
  rw [hheader] at hparse'
  cases hparse'
  rw [hmsg] at hmsg'
  exact (Except.ok.inj hmsg').symm

/-- One packet, and then the rest of the loop. -/
theorem TakesOff.cons {packet : List UInt8} {packets : List (List UInt8)} {w w₁ w' : World σ}
    {n : Nat} {r : Except Status Unit} {m : Option (List UInt8 × List UInt8)} {t : List Event}
    (hgood : WellFormed w.client.rxBufferSize packet) (hmsg : messageOf packet = m)
    (hsetup : w₁.client.setup = w.client.setup) (htrace : w₁.trace = t ++ w.trace)
    (hin : inbound t = []) (hmsgs : w.client.onMessage.isSome → messages t = m.toList)
    (hheld : w.client.held = packet ++ (w₁.client.consumed n).held)
    (h : TakesOff packets ⟨w₁.client.consumed n, w₁.env, w₁.trace⟩ r w') :
    TakesOff (packet :: packets) w r w' := by
  -- the packet and the rest are judged by the same buffer and told to the same callback
  have hsize : w₁.client.rxBufferSize = w.client.rxBufferSize :=
    congrArg Setup.rxBufferSize hsetup
  have hon : w₁.client.onMessage = w.client.onMessage := congrArg Setup.onMessage hsetup
  refine ⟨h.sound, h.setup.trans hsetup, ?_, ?_, ?_, h.ended⟩
  · rw [hheld, h.bytes, List.flatten_cons, List.append_assoc]
  · intro p hp
    rcases List.mem_cons.mp hp with rfl | hp
    · exact hgood
    · rw [← hsize]
      exact h.framed p hp
  · obtain ⟨t', ht', hin', hmsgs'⟩ := h.trace
    refine ⟨t' ++ t, ?_, ?_, ?_⟩
    · rw [ht', htrace, List.append_assoc]
    · rw [inbound_append, hin, hin', List.append_nil]
    · intro hsome
      rw [messages_append, hmsgs hsome, hmsgs' (hon.symm ▸ hsome), ← hmsg]
      cases hm : messageOf packet <;> simp [hm]

/-- **The packet loop.** From a sound client with a gentle callback it ends, whatever bytes are
held. -/
theorem clientReadLoop_takesOff {w : World σ} {fuel : Nat} (hs : w.client.Sound)
    (hgentle : ∀ f, w.client.onMessage = some f → f.Gentle) (hfuel : w.client.rxLen < fuel) :
    ∃ packets, (clientReadLoop fuel).Returns w (TakesOff packets w) := by
  -- the induction is on the fuel; every turn but the last takes at least two bytes off
  induction fuel generalizing w with
  | zero => omega
  | succ fuel ih =>
    have hlen := hs.length_held
    rcases clientReadLoop_turn fuel hs with
      ⟨r, hrun, hstop⟩ | ⟨header, hparse, hsize, hn, hrun⟩
    · -- the loop has stopped: with OK, what is held is unfinished
      have hdecode := decodeFixedHeader_eq (Nat.le_refl w.client.held.length)
      rw [List.take_length] at hdecode
      refine ⟨[], r, w, hrun, takesOff_nil hs fun hok => ?_⟩
      obtain ⟨hroom, hsmall | ⟨header, hparse, hshort, hfits⟩⟩ := hstop hok
      · rw [hsmall] at hdecode
        exact ⟨Or.inr (Or.inl hdecode), hroom⟩
      · rw [hparse] at hdecode
        exact ⟨Or.inr (Or.inr ⟨header, hdecode, by omega, hfits⟩), hroom⟩
    · have htwo := two_le_packetLen hparse
      unfold Prog.Returns
      rw [hrun]
      rcases clientDispatchPacket_spares hs hgentle hparse hn with
        ⟨status, -, hdisp⟩ | ⟨m, w₁, hmsg, hdisp, hs₁, hsetup, hheld, t, ht, hin, hmsgs⟩
      · exact ⟨[], _, _, Prog.bind_of_error hdisp, takesOff_nil hs (fun h => nomatch h)⟩
      · have hrx : w₁.client.rxLen = w.client.rxLen := by
          rw [← hs₁.length_held, hheld, hlen]
        have hcons : consume header.packetLen w₁ =
            .ok (.ok (), ⟨w₁.client.consumed header.packetLen, w₁.env, w₁.trace⟩) := by
          rw [consume_eq hs₁, if_pos (by omega)]
        have hon : w₁.client.onMessage = w.client.onMessage := congrArg Setup.onMessage hsetup
        -- the callback has left the buffer alone, so the packet dispatched is the one taken off
        obtain ⟨packets, r, w', hrest, hoff⟩ := ih
          (w := ⟨w₁.client.consumed header.packetLen, w₁.env, w₁.trace⟩) (hs₁.consumed _)
          (fun f hf => hgentle f (hon ▸ hf))
          (by show w₁.client.rxLen - header.packetLen < fuel; omega)
        obtain ⟨hgood, hmessage⟩ := wellFormed_front hparse (by omega) hsize hmsg
        refine ⟨w.client.held.take header.packetLen :: packets, r, w', ?_, ?_⟩
        · rw [Prog.bind_of_ok hdisp, Prog.bind_of_ok hcons, hrest]
        · refine TakesOff.cons hgood hmessage hsetup ht hin hmsgs ?_ hoff
          rw [hs₁.held_consumed, hheld, List.take_append_drop]

/-- A read and the loop behind it. A read that fails leaves the loop out. -/
theorem clientRead_takesOff {w : World σ} {read : σ → Nat → ReadResult × σ} {res : ReadResult}
    {env : σ} (hs : w.client.Sound) (hread : w.client.transport.read = some read)
    (hcall : read w.env (w.client.rxBufferSize - w.client.rxLen) = (res, env))
    (hfits : res.data.length ≤ w.client.rxBufferSize - w.client.rxLen)
    (hgentle : ∀ f, w.client.onMessage = some f → f.Gentle) :
    ∃ packets, clientRead.Returns w (TakesOff packets (w.afterRead res env)) := by
  have hheld := hs.rxHeld
  have hroom : w.client.rxLen + res.data.length ≤ w.client.rxBufferSize := by omega
  have hs₁ : (w.afterRead res env).client.Sound := hs.received hroom
  unfold Prog.Returns
  rw [clientRead_eq hs hread hcall, if_pos hroom]
  split
  · exact ⟨[], _, _, rfl, takesOff_nil hs₁ (fun h => nomatch h)⟩
  · exact clientReadLoop_takesOff hs₁ hgentle (Nat.lt_succ_self _)

/-- **What `client_read` leaves behind.** It ends; the bytes it took off are whole packets, framed
by the header decoder, and the rest is kept in order; and if it reports OK there is room for the
next read and the rest is the beginning of something that can still become a packet. -/
theorem clientRead_leaves {w : World σ} {read : σ → Nat → ReadResult × σ} {res : ReadResult}
    {env : σ} (hs : w.client.Sound) (hsize : 1 ≤ w.client.rxBufferSize)
    (hread : w.client.transport.read = some read)
    (hcall : read w.env (w.client.rxBufferSize - w.client.rxLen) = (res, env))
    (hfits : res.data.length ≤ w.client.rxBufferSize - w.client.rxLen)
    (hquiet : ∀ f, w.client.onMessage = some f → f.Quiet) :
    ∃ r w', ∃ packets : List (List UInt8), clientRead w = .ok (r, w') ∧
      w.client.held ++ res.taken = packets.flatten ++ w'.client.held ∧
      (∀ p ∈ packets, ∃ header, decodeFixedHeader p p.length = .ok (.ok header) ∧
        header.headerSize + header.remainingLength = p.length) ∧
      w'.client.held.length = w'.client.rxLen ∧
      w'.client.rxBufferSize = w.client.rxBufferSize ∧
      (r = .ok () → w'.client.rxLen < w.client.rxBufferSize ∧
        Unfinished w.client.rxBufferSize w'.client.held) := by
  obtain ⟨packets, r, w', hrun, hoff⟩ :=
    clientRead_takesOff hs hread hcall hfits fun f hf => (hquiet f hf).gentle
  have hsame : w'.client.rxBufferSize = w.client.rxBufferSize :=
    congrArg Setup.rxBufferSize hoff.setup
  refine ⟨r, w', packets, hrun, ?_, ?_, hoff.sound.length_held, hsame, ?_⟩
  · rw [← hs.held_received res]
    exact hoff.bytes
  · intro p hp
    obtain ⟨header, hdecode, hlen, -, -⟩ := hoff.framed p hp
    refine ⟨header, hdecode, ?_⟩
    rw [decodeFixedHeader_eq (Nat.le_refl _), List.take_length] at hdecode
    rw [← hlen, packetLen_eq (Except.ok.inj hdecode)]
  · intro hok
    obtain ⟨hunfinished, hroom⟩ := hoff.ended hok
    rw [hsame] at hunfinished hroom
    exact ⟨hroom hsize, hunfinished⟩

/-- A whole packet and the first byte of the next one. -/
theorem clientRead_leaves_byte :
    ∃ (w w' : World Script) (r : Except Status Unit) (packets : List (List UInt8)),
      Reachable w ∧ clientRead w = .ok (r, w') ∧
      w.client.held ++ [0x30, 4, 0, 1, 0x61, 1, 0xD0] = packets.flatten ++ w'.client.held ∧
      (r = .ok () → w'.client.rxLen < 16 ∧ Unfinished 16 w'.client.held) := by
  obtain ⟨w, hr, hsetup, hzero, henv⟩ := exists_reachable
    (P := fun w => w.client.rxLen = 0 ∧
      w.env = ⟨[], [⟨statusOk, [0x30, 4, 0, 1, 0x61, 1, 0xD0]⟩], [], []⟩)
    (Script.config 64 16 60000 (some Script.listen))
    ⟨[], [⟨statusOk, [0x20, 2, 0, 0]⟩, ⟨ioWouldBlock, []⟩,
      ⟨statusOk, [0x30, 4, 0, 1, 0x61, 1, 0xD0]⟩], [], []⟩
    [.request .connect, .poll, .poll] (by decide) (by decide +kernel)
  have hsize : w.client.rxBufferSize = 16 := congrArg Setup.rxBufferSize hsetup
  have hread : w.client.transport.read = some Script.read :=
    congrArg (fun s => s.transport.read) hsetup
  have hcall : Script.read w.env (w.client.rxBufferSize - w.client.rxLen) =
      (⟨statusOk, [0x30, 4, 0, 1, 0x61, 1, 0xD0]⟩, ⟨[], [], [], []⟩) := by
    rw [henv, hsize, hzero]
    rfl
  obtain ⟨r, w', packets, hrun, hbytes, -, -, -, hok⟩ := clientRead_leaves hr.sound
    (by rw [hsize]; decide) hread hcall (by rw [hsize, hzero]; decide) (by
      intro f hf
      cases (congrArg Setup.onMessage hsetup).symm.trans hf
      exact fun _ _ _ => rfl)
  rw [hsize] at hok
  exact ⟨w, w', r, packets, hr, hrun, hbytes, hok⟩

/-! ## Callbacks that call back -/

/-- The packet loop survives the callback `f`: whatever is held and whatever the next read brings,
`client_read` returns with its length in range, and the messages told are those of packets taken
off the front, in order and once each. -/
def LoopSurvives (f : MessageFn σ) : Prop :=
  ∀ (w : World σ) (read : σ → Nat → ReadResult × σ) (res : ReadResult) (env : σ),
    w.client.Sound → w.client.onMessage = some f → w.client.transport.read = some read →
    read w.env (w.client.rxBufferSize - w.client.rxLen) = (res, env) →
    res.data.length ≤ w.client.rxBufferSize - w.client.rxLen →
    ∃ r w', ∃ packets : List (List UInt8), ∃ t, clientRead w = .ok (r, w') ∧
      w'.client.rxLen ≤ w'.client.rxBufferSize ∧
      w.client.held ++ res.taken = packets.flatten ++ w'.client.held ∧
      (∀ p ∈ packets, WellFormed w.client.rxBufferSize p) ∧
      w'.trace = t ++ w.trace ∧ messages t = packets.filterMap messageOf

theorem MessageFn.Gentle.loopSurvives {f : MessageFn σ} (h : f.Gentle) : LoopSurvives f := by
  intro w read res env hs hf hread hcall hfits
  have hgentle : ∀ g, w.client.onMessage = some g → g.Gentle := by
    intro g hg
    cases hf.symm.trans hg
    exact h
  obtain ⟨packets, r, w', hrun, hoff⟩ := clientRead_takesOff hs hread hcall hfits hgentle
  obtain ⟨t, ht, -, hmsgs⟩ := hoff.trace
  refine ⟨r, w', packets, t ++ [.read (w.client.rxBufferSize - w.client.rxLen) res], hrun,
    hoff.sound.rxHeld, ?_, hoff.framed, ?_, ?_⟩
  · rw [← hs.held_received res]
    exact hoff.bytes
  · rw [ht, List.append_assoc]
    rfl
  · rw [messages_append, hmsgs (by
      show w.client.onMessage.isSome = true
      rw [hf]
      rfl)]
    rfl

/-- Once `aemlib_connect` is among the requests, the buffer is empty behind them. -/
theorem requests_empty {w : World σ} {requests : List Request} (hs : w.client.Sound)
    (hfits : ∀ q ∈ requests, q.Fits) (h : w.client.rxLen = 0 ∨ .connect ∈ requests) :
    (Prog.forAll request requests).Returns w fun _ w' =>
      w'.client.Sound ∧ w'.client.rxLen = 0 := by
  induction requests generalizing w with
  | nil =>
    rcases h with hzero | hmem
    · exact ⟨_, _, rfl, hs, hzero⟩
    · cases hmem
  | cons q requests ih =>
    obtain ⟨r₁, w₁, h₁, href, hkeep⟩ := request_returns hs (hfits q List.mem_cons_self)
    -- `aemlib_connect` empties the buffer also when it is refused, and no other request fills it
    have hnext : w₁.client.rxLen = 0 ∨ .connect ∈ requests := by
      by_cases hq : q = .connect
      · subst hq
        have hconn : connect w = .ok (r₁, w₁) := h₁
        rw [connect_eq] at hconn
        split at hconn
        · cases hconn
          exact Or.inl rfl
        · cases hconn
          exact Or.inl rfl
      · rcases h with hzero | hmem
        · exact Or.inl ((hkeep hq).trans hzero)
        · rcases List.mem_cons.mp hmem with heq | hmem
          · exact absurd heq.symm hq
          · exact Or.inr hmem
    obtain ⟨r, w', hrest, hw'⟩ :=
      ih href.sound (fun q hq => hfits q (List.mem_cons_of_mem _ hq)) hnext
    exact ⟨r, w', Prog.attempt_bind_eq_ok.mpr ⟨r₁, w₁, h₁, hrest⟩, hw'⟩

/-- The packet loop at a message that the callback answers with a reconnect: what is then left of
the buffer is less than the packet the loop takes off. -/
theorem clientReadLoop_underflows {w : World σ} {fuel : Nat} {f : MessageFn σ}
    {header : FixedHeader} {topic payload : List UInt8} (hs : w.client.Sound)
    (hf : w.client.onMessage = some f) (hparse : parseHeader w.client.held = .ok header)
    (hn : header.packetLen ≤ w.client.rxLen)
    (hmsg : packetMessage header (w.client.held.take header.packetLen) =
      .ok (some (topic, payload)))
    (hfits : ∀ q ∈ (f w.env topic payload).1, q.Fits)
    (hmem : .connect ∈ (f w.env topic payload).1) :
    clientReadLoop (fuel + 1) w = .error .underflow := by
  have htwo := two_le_packetLen hparse
  obtain ⟨r, w', hreq, hs', hzero⟩ := requests_empty
    (w := ⟨w.client, (f w.env topic payload).2, .message topic payload :: w.trace⟩) hs hfits
    (Or.inr hmem)
  have hr : r = .ok () := Prog.forAll_ok hreq
  subst hr
  have hdispatch : clientDispatchPacket header header.packetLen w = .ok (.ok (), w') := by
    rw [clientDispatchPacket_eq hs hparse hn, hmsg, hf]
    exact hreq
  have hcons : consume header.packetLen w' = .error .underflow := by
    rw [consume_eq hs', if_neg (by omega)]
  rw [clientReadLoop_of_whole fuel hs hparse hn, Prog.bind_of_ok hdispatch,
    Prog.bind_of_fault hcons]

/-- A connected client that holds one packet, in a buffer of just that size, and whose next read
brings nothing and leaves the environment `env`. -/
def holding (packet : List UInt8) (f : MessageFn σ) (env : σ) : World σ where
  client := { Client.zero σ with
    state := .mqttConnected
    transport :=
      { connect := some fun env => (statusOk, env)
        disconnect := some fun env => (statusOk, env)
        read := some fun _ _ => (⟨statusOk, []⟩, env)
        write := some fun env data => (⟨statusOk, data.length⟩, env) }
    nowMs := some fun env => (0, env)
    rxBuffer := packet
    rxBufferSize := packet.length
    rxLen := packet.length
    onMessage := some f }
  env := env
  trace := []

theorem holding_sound {packet : List UInt8} (f : MessageFn σ) (env : σ)
    (h : packet.length < 2 ^ 64) : (holding packet f env).client.Sound where
  txLength := rfl
  rxLength := rfl
  txSize := Nat.two_pow_pos 64
  rxSize := h
  txPending := Nat.le_refl _
  rxHeld := Nat.le_refl _
  callbacks := Or.inl ⟨rfl, rfl⟩

theorem length_publish_lt {topic payload : List UInt8} (h : Deliverable topic payload) :
    (Packet.publish topic payload).bytes.length < 2 ^ 64 := by
  obtain ⟨header, -, hparse, -, -, hsize, -, -⟩ := parse_publish_bytes [] h.1 h.2
  have hbounds := parseHeader_bounds hparse
  omega

/-- The one packet is a PUBLISH, and the callback answers its message with a reconnect. -/
theorem clientRead_holding {f : MessageFn σ} {env : σ} {topic payload : List UInt8}
    (hdel : Deliverable topic payload) (hfits : ∀ q ∈ (f env topic payload).1, q.Fits)
    (hmem : .connect ∈ (f env topic payload).1) :
    clientRead (holding (Packet.publish topic payload).bytes f env) = .error .underflow := by
  obtain ⟨header, view, hparse, htype, -, hsize, hview, hmessage⟩ :=
    parse_publish_bytes [] hdel.1 hdel.2
  rw [List.append_nil] at hparse hview hmessage
  have hlen := packetLen_eq hparse
  have hlt := length_publish_lt hdel
  generalize (Packet.publish topic payload).bytes = packet at hparse hview hmessage hsize hlt ⊢
  have hmsg : packetMessage header packet = .ok (some (topic, payload)) := by
    unfold packetMessage
    rw [htype]
    simp only [hview, hmessage]
  have hs := holding_sound f env hlt
  -- the read brings nothing
  obtain ⟨w₁, hw₁⟩ : ∃ w₁, w₁ = (holding packet f env).afterRead ⟨statusOk, []⟩ env := ⟨_, rfl⟩
  have hrun : clientRead (holding packet f env) = clientReadLoop (w₁.client.rxLen + 1) w₁ := by
    rw [clientRead_eq hs rfl rfl, ← hw₁, if_neg not_hardError_ok]
    exact if_pos (Nat.le_refl packet.length)
  have hs₁ : w₁.client.Sound := by
    rw [hw₁]
    exact hs.received (Nat.le_refl _)
  have hheld : w₁.client.held = packet := by
    rw [hw₁]
    refine (hs.held_received ⟨statusOk, []⟩).trans ?_
    show packet.take packet.length ++ [] = packet
    rw [List.take_length, List.append_nil]
  have hrx : w₁.client.rxLen = packet.length := by rw [← hs₁.length_held, hheld]
  rw [hrun]
  refine clientReadLoop_underflows (f := f) hs₁ (by rw [hw₁]; rfl) (by rw [hheld]; exact hparse)
    (by omega) ?_ (by rw [hw₁]; exact hfits) (by rw [hw₁]; exact hmem)
  rw [hheld, show header.packetLen = packet.length by omega, List.take_length]
  exact hmsg

/-- **When the packet loop survives the callback.** A callback with any calls that fit in memory:
the loop survives it exactly when it never calls `aemlib_connect` on a message that can be
delivered. -/
theorem loopSurvives_iff (f : MessageFn σ)
    (hfits : ∀ env topic payload, ∀ q ∈ (f env topic payload).1, q.Fits) :
    LoopSurvives f ↔
      ∀ env topic payload, Deliverable topic payload → .connect ∉ (f env topic payload).1 := by
  constructor
  · intro hsurvives env topic payload hdel hmem
    -- one packet with that message is enough to bring the loop down
    have hcrash := clientRead_holding hdel (hfits env topic payload) hmem
    obtain ⟨r, w', -, -, hrun, -⟩ := hsurvives
      (holding (Packet.publish topic payload).bytes f env) (fun _ _ => (⟨statusOk, []⟩, env))
      ⟨statusOk, []⟩ env (holding_sound f env (length_publish_lt hdel)) rfl rfl rfl (Nat.zero_le _)
    rw [hcrash] at hrun
    cases hrun
  · intro hcalls
    refine MessageFn.Gentle.loopSurvives fun env topic payload hdel q hq => ?_
    refine ⟨hfits env topic payload q hq, ?_⟩
    rintro rfl
    exact hcalls env topic payload hdel hq

def Script.thankAndLeave : MessageFn Script := fun s topic payload =>
  if h : topic.length < 2 ^ 63 then
    ([.publish ⟨topic, h⟩ (payload.take 16) 0, .disconnect], s)
  else ([.disconnect], s)

def Script.reconnect : MessageFn Script := fun s _ _ => ([.connect], s)

theorem loopSurvives_iff_thankAndLeave : LoopSurvives Script.thankAndLeave := by
  refine (loopSurvives_iff Script.thankAndLeave ?_).mpr ?_
  · intro env topic payload q hq
    unfold Script.thankAndLeave at hq
    split at hq
    · next hlt =>
      rcases List.mem_cons.mp hq with rfl | hq
      · have htake : (payload.take 16).length ≤ 16 := List.length_take_le 16 payload
        show 7 + topic.length + (payload.take 16).length < 2 ^ 64
        omega
      · cases List.mem_singleton.mp hq
        trivial
    · cases List.mem_singleton.mp hq
      trivial
  · intro env topic payload _
    unfold Script.thankAndLeave
    split <;> simp

/-- A connected client, a whole PUBLISH in the next read, and a callback that calls
`aemlib_connect`: the loop takes six bytes off an empty buffer. -/
theorem loop_underflows :
    ¬ LoopSurvives Script.reconnect ∧ ∃ w : World Script, Reachable w ∧
      w.client.state = .mqttConnected ∧ w.client.onMessage = some Script.reconnect ∧
      w.env.reads = [⟨statusOk, [0x30, 4, 0, 1, 0x61, 1]⟩] ∧
      clientRead w = .error .underflow := by
  obtain ⟨w, hr, hsetup, hstate, hzero, hreads, hcrash⟩ := exists_reachable
    (P := fun w => w.client.state = .mqttConnected ∧ w.client.rxLen = 0 ∧
      w.env.reads = [⟨statusOk, [0x30, 4, 0, 1, 0x61, 1]⟩] ∧
      clientRead.Faults w .underflow)
    (Script.config 64 16 60000 (some Script.reconnect))
    ⟨[], [⟨statusOk, [0x20, 2, 0, 0]⟩, ⟨ioWouldBlock, []⟩,
      ⟨statusOk, [0x30, 4, 0, 1, 0x61, 1]⟩], [], []⟩
    [.request .connect, .poll, .poll] (by decide) (by decide +kernel)
  have hon : w.client.onMessage = some Script.reconnect := congrArg Setup.onMessage hsetup
  refine ⟨fun hsurvives => ?_, w, hr, hstate, hon, hreads, hcrash⟩
  have hsize : w.client.rxBufferSize = 16 := congrArg Setup.rxBufferSize hsetup
  have hread : w.client.transport.read = some Script.read :=
    congrArg (fun s => s.transport.read) hsetup
  obtain ⟨r, w', -, -, hok, -⟩ := hsurvives w Script.read
    ⟨statusOk, [0x30, 4, 0, 1, 0x61, 1]⟩ { w.env with reads := [] } hr.sound hon hread
    (by rw [hsize, hzero]; simp [Script.read, hreads])
    (by rw [hsize, hzero]; decide)
  rw [hcrash] at hok
  cases hok

end Aemlib
