import Aemlib.Script

/-!
# No fault

With a transport that reports no more bytes than it was asked for or offered, packets whose size is
a `size_t`, and a message callback that does not empty the buffers under the packet loop, no call
reads, writes or moves anything outside of the two buffers, no length goes below zero, and the
packet loop ends.
-/

namespace Aemlib

open Machine Proto

variable {σ : Type}

/-! ## The caller's side of the contract -/

/-- The packet a request makes has a size that is a `size_t`. A topic is shorter than that by its
type, so only the payload counts. -/
def Request.Fits : Request → Prop
  | .publish topic payload _ => 7 + topic.val.length + payload.length < 2 ^ 64
  | _ => True

/-- A callback may send and disconnect, but `aemlib_connect` would empty `rx_buffer` while a packet
in it is being handled. -/
def MessageFn.Tame (f : MessageFn σ) : Prop :=
  ∀ env topic payload, ∀ q ∈ (f env topic payload).1, q.Fits ∧ q ≠ .connect

/-- A setup whose callbacks keep to their part. -/
structure Setup.Contract (s : Setup σ) : Prop where
  transport : s.transport.Honest
  onMessage : ∀ f, s.onMessage = some f → MessageFn.Tame f

/-- A sound client under contract: what every call starts from and leaves. -/
structure World.Safe (w : World σ) : Prop where
  sound : w.client.Sound
  contract : w.client.setup.Contract

theorem Refines.safe {w w' : World σ} (h : Refines w w') (hw : w.Safe) : w'.Safe :=
  ⟨h.sound, by rw [h.setup]; exact hw.contract⟩

/-! ## Sending -/

theorem clientFlushPending_returns {w : World σ} (hs : w.client.Sound)
    (hwrites : w.client.transport.WritesWithin) : clientFlushPending.Returns w (Flushes w) := by
  suffices h : ∃ r w', clientFlushPending w = .ok (r, w') by
    obtain ⟨r, w', hrun⟩ := h
    exact ⟨r, w', hrun, clientFlushPending_flushes hs hrun⟩
  rcases Nat.eq_zero_or_pos w.client.txPendingLen with hzero | hpos
  · exact ⟨_, _, clientFlushPending_nil hzero⟩
  · obtain ⟨write, hf⟩ := hs.exists_write (Nat.lt_of_lt_of_le hpos hs.txPending)
    rcases hcall : write w.env w.client.staged with ⟨res, env⟩
    have hout := hwrites write hf w.env w.client.staged
    rw [hcall, hs.length_staged] at hout
    rw [clientFlushPending_eq hs hpos hf hcall]
    split
    · exact ⟨_, _, rfl⟩
    · next hres =>
      have hle : res.written ≤ w.client.txPendingLen := by
        rw [WriteResult.written_eq hres]
        split
        · next hok => exact hout hok
        · exact Nat.zero_le _
      rw [if_pos hle]
      exact ⟨_, _, rfl⟩

/-- Sends, and `aemlib_disconnect`, leave `rx_buffer` alone. -/
theorem request_returns {w : World σ} {q : Request} (hs : w.client.Sound) (hq : q.Fits) :
    (request q).Returns w fun _ w' =>
      Refines w w' ∧ (q ≠ .connect → w'.client.rxLen = w.client.rxLen) := by
  -- that it refines the link is known of every request that returns
  suffices h : ∃ r w', request q w = .ok (r, w') ∧
      (q ≠ .connect → w'.client.rxLen = w.client.rxLen) by
    obtain ⟨r, w', hrun, hkeep⟩ := h
    exact ⟨r, w', hrun, (request_refines hs hrun).1, hkeep⟩
  -- the encoders are safe as long as the size of the packet is a `size_t`
  have hsend : ∀ {v : World σ} {p : Packet}, v.client.Sound → 5 + p.body.length < 2 ^ 64 →
      ∃ r w', encodeAndSend p v = .ok (r, w') ∧ w'.client.rxLen = v.client.rxLen := by
    intro v p hv hfits
    obtain ⟨r, w', hrun, hsends⟩ := encodeAndSend_returns hv hfits
    exact ⟨r, w', hrun, by rw [hsends.client_eq]⟩
  cases q with
  | connect =>
    rw [show request .connect w = connect w from rfl, connect_eq]
    split
    · exact ⟨_, _, rfl, fun h => absurd rfl h⟩
    · exact ⟨_, _, rfl, fun h => absurd rfl h⟩
  | disconnect =>
    rw [show request .disconnect w = disconnect w from rfl, disconnect_eq]
    split
    · exact ⟨_, _, rfl, fun _ => rfl⟩
    · exact ⟨_, _, rfl, fun _ => rfl⟩
  | publish topic payload qos =>
    rw [show request (.publish topic payload qos) w = publish topic payload qos w from rfl,
      publish_eq]
    split
    · have hlen : 5 + (Packet.publish topic payload).body.length < 2 ^ 64 := by
        have : 7 + topic.val.length + payload.length < 2 ^ 64 := hq
        simp only [Packet.body, lengthPrefixed, uint16Be, List.length_append, List.length_cons,
          List.length_nil]
        omega
      obtain ⟨r, w', hrun, hrx⟩ := hsend hs hlen
      exact ⟨r, w', hrun, fun _ => hrx⟩
    · exact ⟨_, _, rfl, fun _ => rfl⟩
  | subscribe topic qos =>
    rw [show request (.subscribe topic qos) w = subscribe topic qos w from rfl, subscribe_eq]
    split
    · have hlen : ∀ id, 5 + (Packet.subscribe id topic).body.length < 2 ^ 64 := by
        intro id
        have := topic.property
        simp only [Packet.body, lengthPrefixed, uint16Be, List.length_append, List.length_cons,
          List.length_nil]
        omega
      obtain ⟨r, w', hrun, hrx⟩ := hsend (v := ⟨{ w.client with
        packetId := packetIdAfter w.client.packetId }, w.env, w.trace⟩) { hs with } (hlen _)
      exact ⟨r, w', hrun, fun _ => hrx⟩
    · exact ⟨_, _, rfl, fun _ => rfl⟩

/-! ## The packet loop -/

/-- A tame callback leaves the packet it is told about where it is. -/
theorem clientDispatchPacket_returns {w : World σ} {header : FixedHeader} (hw : w.Safe)
    (hest : w.link.Established) (hparse : parseHeader w.client.held = .ok header)
    (hn : header.packetLen ≤ w.client.rxLen) :
    (clientDispatchPacket header header.packetLen).Returns w fun _ w' =>
      Refines w w' ∧ w'.link.Established ∧ w'.client.rxLen = w.client.rxLen := by
  suffices h : ∃ r w', clientDispatchPacket header header.packetLen w = .ok (r, w') ∧
      w'.client.rxLen = w.client.rxLen by
    obtain ⟨r, w', hrun, hrx⟩ := h
    obtain ⟨href, hest'⟩ := dispatch_refines hw.sound hest hparse hn hrun
    exact ⟨r, w', hrun, href, hest', hrx⟩
  rw [clientDispatchPacket_eq hw.sound hparse hn]
  split
  · exact ⟨_, _, rfl, rfl⟩
  · next topic payload onMessage _ hon =>
    have htame := hw.contract.onMessage onMessage hon
    have hw₁ : World.Safe ⟨w.client, (onMessage w.env topic payload).2,
        .message topic payload :: w.trace⟩ := ⟨hw.sound, hw.contract⟩
    -- each request of the callback returns, and none of them is `aemlib_connect`
    have hstep : ∀ q ∈ (onMessage w.env topic payload).1, ∀ v : World σ,
        v.Safe ∧ v.client.rxLen = w.client.rxLen →
        (request q).Returns v fun _ v' => v'.Safe ∧ v'.client.rxLen = w.client.rxLen := by
      intro q hq v hv
      obtain ⟨hfits, hne⟩ := htame w.env topic payload q hq
      refine (request_returns hv.1.sound hfits).mono fun _ v' hv' => ?_
      exact ⟨hv'.1.safe hv.1, (hv'.2 hne).trans hv.2⟩
    obtain ⟨r, w', hrun, -, hrx⟩ := Prog.forAll_returns ⟨hw₁, rfl⟩ hstep
    exact ⟨r, w', hrun, hrx⟩
  · exact ⟨_, _, rfl, rfl⟩

/-- Every turn but the last consumes a packet of at least two bytes, so one turn more than there
are bytes is enough. -/
theorem clientReadLoop_returns {w : World σ} {fuel : Nat} (hw : w.Safe)
    (hest : w.link.Established) (hfuel : w.client.rxLen < fuel) :
    ∃ r w', clientReadLoop fuel w = .ok (r, w') := by
  induction fuel generalizing w with
  | zero => omega
  | succ fuel ih =>
    rcases clientReadLoop_turn fuel hw.sound with ⟨r, hrun, -⟩ | ⟨header, hparse, -, hn, hrun⟩
    · exact ⟨r, w, hrun⟩
    · have htwo := two_le_packetLen hparse
      obtain ⟨r₁, w₁, hdisp, href₁, hest₁, hrx⟩ := clientDispatchPacket_returns hw hest hparse hn
      rw [hrun]
      cases r₁ with
      | error status => exact ⟨_, _, Prog.bind_of_error hdisp⟩
      | ok u =>
        have hcons : consume header.packetLen w₁ =
            .ok (.ok (), ⟨w₁.client.consumed header.packetLen, w₁.env, w₁.trace⟩) := by
          rw [consume_eq href₁.sound, if_pos (by omega)]
        obtain ⟨href₂, hest₂⟩ := consume_refines href₁.sound hest₁ hcons
        rw [Prog.bind_of_ok hdisp, Prog.bind_of_ok hcons]
        refine ih (href₂.safe (href₁.safe hw)) hest₂ ?_
        show w₁.client.rxLen - header.packetLen < fuel
        omega

/-- An honest transport fills at most the room it was given. -/
theorem World.Safe.read_fits {w : World σ} {read : σ → Nat → ReadResult × σ} {res : ReadResult}
    {env : σ} (hw : w.Safe) (hf : w.client.transport.read = some read)
    (hcall : read w.env (w.client.rxBufferSize - w.client.rxLen) = (res, env)) :
    w.client.rxLen + res.data.length ≤ w.client.rxBufferSize := by
  have hle := hw.contract.transport.read read hf w.env (w.client.rxBufferSize - w.client.rxLen)
  have hheld := hw.sound.rxHeld
  rw [hcall] at hle
  simp only at hle
  omega

theorem clientRead_returns {w : World σ} (hw : w.Safe)
    (hstate : w.client.state = .mqttConnected) : ∃ r w', clientRead w = .ok (r, w') := by
  obtain ⟨read, close, hf, -⟩ :=
    hw.sound.exists_read (by rw [hstate]; decide) (by rw [hstate]; decide)
  rcases hcall : read w.env (w.client.rxBufferSize - w.client.rxLen) with ⟨res, env⟩
  have hfits := hw.read_fits hf hcall
  rw [clientRead_eq hw.sound hf hcall, if_pos hfits]
  split
  · exact ⟨_, _, rfl⟩
  · have hw₁ : (w.afterRead res env).Safe := ⟨hw.sound.received hfits, hw.contract⟩
    exact clientReadLoop_returns hw₁ (Or.inl hstate) (Nat.lt_succ_self _)

/-! ## The calls -/

theorem keepalive_returns {w : World σ} (hs : w.client.Sound) :
    ∃ r w', keepalive w = .ok (r, w') := by
  unfold keepalive clientSendPing
  rw [Prog.bind_of_ok (timeNow_eq w)]
  simp only [run_getClient_bind, Prog.run_ite]
  split
  · obtain ⟨r, w₁, hsend, -⟩ := encodeAndSend_returns (p := .pingreq) (readClock_refines hs).sound
      (by decide)
    cases r with
    | error status => exact ⟨_, _, Prog.bind_of_error hsend⟩
    | ok u => exact ⟨_, _, by rw [Prog.bind_of_ok hsend]; rfl⟩
  · exact ⟨_, _, rfl⟩

theorem readAndKeepalive_returns {w : World σ} (hw : w.Safe)
    (hstate : w.client.state = .mqttConnected) :
    ∃ r w', (clientRead >>= fun _ => keepalive) w = .ok (r, w') := by
  obtain ⟨r₁, w₁, hread⟩ := clientRead_returns hw hstate
  cases r₁ with
  | error status => exact ⟨_, _, Prog.bind_of_error hread⟩
  | ok u =>
    rw [Prog.bind_of_ok hread]
    exact keepalive_returns (clientRead_refines hw.sound hstate hread).1.sound

theorem pollConnectSent_returns {w : World σ} (hs : w.client.Sound) :
    ∃ r w', pollConnectSent w = .ok (r, w') := by
  unfold pollConnectSent
  simp only [run_getClient_bind, Prog.run_ite]
  split
  · obtain ⟨r, w₁, hsend, -⟩ := encodeAndSend_returns (p := w.client.connectPacket) hs (by
      simp only [Client.connectPacket, Packet.body, lengthPrefixed, uint16Be, List.length_append,
        List.length_cons, List.length_nil]
      decide)
    have hconn : clientSendConnect w = .ok (r, w₁) := hsend
    cases r with
    | error status => exact ⟨_, _, Prog.bind_of_error hconn⟩
    | ok u => exact ⟨_, _, by rw [Prog.bind_of_ok hconn]; rfl⟩
  · exact ⟨_, _, rfl⟩

theorem corePoll_returns {w : World σ} (hw : w.Safe) : ∃ r w', Core.poll w = .ok (r, w') := by
  cases hstate : w.client.state with
  | disconnected => exact ⟨_, _, corePoll_of_idle (Or.inl hstate)⟩
  | connecting =>
    obtain ⟨r, w', hrun, -⟩ := corePoll_opens hstate
    exact ⟨r, w', hrun⟩
  | mqttConnectSent =>
    obtain ⟨read, _, res, env, hread, hcall, hturn⟩ := corePoll_waits hw.sound hstate
    have hfits := hw.read_fits hread hcall
    rcases hturn with ⟨hover, -⟩ | ⟨-, r, w', hrun, -⟩
    · omega
    · exact ⟨r, w', hrun⟩
  | mqttConnected => exact ⟨_, _, corePoll_of_idle (Or.inr hstate)⟩
  | mqttDisconnecting =>
    obtain ⟨close, hclose⟩ := corePoll_closes hw.sound hstate
    exact ⟨_, _, hclose⟩

theorem poll_returns {w : World σ} (hw : w.Safe) : ∃ r w', poll w = .ok (r, w') := by
  unfold poll
  obtain ⟨r₁, w₁, hflush, hflushes⟩ := clientFlushPending_returns hw.sound
    hw.contract.transport.writesWithin
  have hw₁ := (hflushes.refines hw.sound).safe hw
  cases r₁ with
  | error status => exact ⟨_, _, Prog.bind_of_error hflush⟩
  | ok u =>
    rw [Prog.bind_of_ok hflush]
    obtain ⟨r₂, w₂, hcore⟩ := corePoll_returns hw₁
    have hw₂ := (corePoll_refines hw₁.sound hcore).safe hw₁
    cases r₂ with
    | error status => exact ⟨_, _, Prog.bind_of_error hcore⟩
    | ok u =>
      rw [Prog.bind_of_ok hcore]
      simp only [run_getClient_bind]
      cases hstate : w₂.client.state with
      | mqttConnectSent => exact pollConnectSent_returns hw₂.sound
      | mqttConnected => exact readAndKeepalive_returns hw₂ hstate
      | disconnected => exact ⟨_, _, rfl⟩
      | connecting => exact ⟨_, _, rfl⟩
      | mqttDisconnecting => exact ⟨_, _, rfl⟩

def Call.Contract : Call σ → Prop
  | .init (some cfg) => cfg.client.setup.Contract
  | .init none => True
  | .request q => q.Fits
  | .poll => True

/-- A client without callbacks is under contract. -/
theorem zero_safe (env : σ) (trace : List Event) : World.Safe ⟨Client.zero σ, env, trace⟩ where
  sound := zero_sound
  contract :=
    { transport := ⟨(nomatch ·, ·), (nomatch ·, ·)⟩
      onMessage := (nomatch ·, ·) }

theorem Inits.safe {config : Option (Config σ)} {w w' : World σ} {r : Except Status Unit}
    (h : Inits w config r w') (hc : (Call.init config).Contract) : w'.Safe := by
  have hsound := h.refines.1
  cases h with
  | failed => exact zero_safe _ _
  | ok cfg hs => exact ⟨hsound, hc⟩

/-- One call: it ends, and leaves what the next call needs. -/
theorem call_returns {w : World σ} {c : Call σ} (hw : w.Safe) (hc : c.Contract) :
    (call c).Returns w fun _ w' => w'.Safe := by
  cases c with
  | init config =>
    obtain ⟨r, w', hrun, hinits⟩ := init_returns config w
    exact ⟨r, w', hrun, hinits.safe hc⟩
  | request q =>
    exact (request_returns hw.sound hc).mono fun _ w' h => h.1.safe hw
  | poll =>
    obtain ⟨r, w', hrun⟩ := poll_returns hw
    exact ⟨r, w', hrun, (poll_refines hw.sound hrun).safe hw⟩

/-- **Buffer bounds.** From a successful `aemlib_init`, every run whose calls and callbacks keep to
the contract ends without a fault: no access outside of a buffer, no length below zero, no packet
loop that does not end. Both length fields are within their buffers. -/
theorem buffers_bounded {cfg : Config σ} {w₀ w₁ : World σ} {calls : List (Call σ)}
    (hcfg : cfg.client.setup.Contract) (hinit : init (some cfg) w₀ = .ok (.ok (), w₁))
    (hcalls : ∀ c ∈ calls, c.Contract) :
    (run calls).Returns w₁ fun _ w =>
      w.client.rxLen ≤ w.client.rxBufferSize ∧ w.client.rxBuffer.length = w.client.rxBufferSize ∧
      w.client.txPendingLen ≤ w.client.txBufferSize ∧
      w.client.txBuffer.length = w.client.txBufferSize := by
  obtain ⟨r, w₁', hinit', hinits⟩ := init_returns (some cfg) w₀
  rw [hinit'] at hinit
  cases hinit
  refine (Prog.forAll_returns (P := World.Safe) (hinits.safe hcfg) fun c hc w hw => ?_).mono
    fun _ w hw => ⟨hw.sound.rxHeld, hw.sound.rxLength, hw.sound.txPending, hw.sound.txLength⟩
  exact call_returns hw (hcalls c hc)

/-- The contract of a script: its transport is honest and nobody calls back. -/
theorem Script.contract (tx rx : Fin (2 ^ 64)) (keepaliveMs : UInt64) :
    (Script.config tx rx keepaliveMs (some Script.listen)).client.setup.Contract where
  transport := Script.honest
  onMessage f hf := by
    cases hf
    intro env topic payload q hq
    cases hq

/-- A CONNACK and two packets in one read, the second one cut short. -/
theorem buffers_bounded_coalesced :
    ∃ w₁, init (some (Script.config 16 16 60000 (some Script.listen)))
        ⟨Client.zero Script, ⟨[], [⟨statusOk, [0x20, 2, 0, 0, 0xD0, 0, 0x30]⟩], [], []⟩, []⟩ =
          .ok (.ok (), w₁) ∧
      (run [.request .connect, .poll, .poll, Script.publishA [1]]).Returns w₁ fun _ w =>
        w.client.rxLen ≤ w.client.rxBufferSize ∧
        w.client.rxBuffer.length = w.client.rxBufferSize ∧
        w.client.txPendingLen ≤ w.client.txBufferSize ∧
        w.client.txBuffer.length = w.client.txBufferSize := by
  refine ⟨_, rfl, buffers_bounded (Script.contract 16 16 60000) rfl ?_⟩
  simp [Call.Contract, Request.Fits, Script.publishA]

end Aemlib
