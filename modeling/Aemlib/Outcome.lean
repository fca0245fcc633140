import Aemlib.Link

/-!
# What each function does

One lemma for each piece of the client: run from a sound client, what does it return and what does
it leave behind? The buffers of a sound client have the size they are said to have, and both length
fields are within it. Everything above this module uses these lemmas and unfolds no code.
-/

namespace Aemlib

open Machine Proto

variable {σ : Type}

/-! ## Sound clients -/

def Client.Equipped (c : Client σ) : Prop :=
  c.transport.validate = true ∧ c.nowMs.isSome = true

/-- The bounds every part of the library relies on. The callbacks are all there, or an
`aemlib_init` has failed and there is neither a transport nor a buffer. -/
structure Client.Sound (c : Client σ) : Prop where
  txLength : c.txBuffer.length = c.txBufferSize
  rxLength : c.rxBuffer.length = c.rxBufferSize
  txSize : c.txBufferSize < 2 ^ 64
  rxSize : c.rxBufferSize < 2 ^ 64
  txPending : c.txPendingLen ≤ c.txBufferSize
  rxHeld : c.rxLen ≤ c.rxBufferSize
  callbacks : c.Equipped ∨
    (c.transport.connect = none ∧ c.txBufferSize = 0 ∧
      (c.state = .disconnected ∨ c.state = .connecting))

structure Setup (σ : Type) where
  transport : Transport σ
  nowMs : Option (σ → UInt64 × σ)
  txBufferSize : Nat
  rxBufferSize : Nat
  keepaliveIntervalMs : UInt64
  onMessage : Option (MessageFn σ)

def Client.setup (c : Client σ) : Setup σ where
  transport := c.transport
  nowMs := c.nowMs
  txBufferSize := c.txBufferSize
  rxBufferSize := c.rxBufferSize
  keepaliveIntervalMs := c.keepaliveIntervalMs
  onMessage := c.onMessage

theorem Client.Sound.length_staged {c : Client σ} (h : c.Sound) :
    c.staged.length = c.txPendingLen := by
  rw [Client.staged, List.length_take, h.txLength, Nat.min_eq_left h.txPending]

theorem Client.Sound.length_held {c : Client σ} (h : c.Sound) : c.held.length = c.rxLen := by
  rw [Client.held, List.length_take, h.rxLength, Nat.min_eq_left h.rxHeld]

theorem Transport.validate_eq_true {t : Transport σ} (h : t.validate = true) :
    ∃ connect disconnect read write, t.connect = some connect ∧ t.disconnect = some disconnect ∧
      t.read = some read ∧ t.write = some write := by
  simp only [Transport.validate, Bool.and_eq_true, Option.isSome_iff_exists] at h
  obtain ⟨⟨⟨⟨c, hc⟩, d, hd⟩, r, hr⟩, w, hw⟩ := h
  exact ⟨c, d, r, w, hc, hd, hr, hw⟩

/-- A client with anything staged has a transport to write it to. -/
theorem Client.Sound.exists_write {c : Client σ} (h : c.Sound) (hpos : 0 < c.txBufferSize) :
    ∃ write, c.transport.write = some write := by
  rcases h.callbacks with hv | ⟨-, hz, -⟩
  · obtain ⟨_, _, _, write, _, _, _, hw⟩ := Transport.validate_eq_true hv.1
    exact ⟨write, hw⟩
  · omega

/-- A client that has left `CONNECTING` has all its callbacks. -/
theorem Client.Sound.equipped {c : Client σ} (h : c.Sound) (hd : c.state ≠ .disconnected)
    (hc : c.state ≠ .connecting) : c.Equipped := by
  rcases h.callbacks with hv | ⟨-, -, hs | hs⟩
  · exact hv
  · exact absurd hs hd
  · exact absurd hs hc

/-- A client with all its callbacks may be in any state. -/
theorem Client.Sound.withState {c : Client σ} (h : c.Sound) (hv : c.Equipped) (s : State) :
    ({ c with state := s } : Client σ).Sound :=
  { h with callbacks := Or.inl hv }

theorem Client.Sound.disconnected {c : Client σ} (h : c.Sound) :
    ({ c with state := .disconnected } : Client σ).Sound :=
  { h with callbacks := h.callbacks.imp_right fun hc => ⟨hc.1, hc.2.1, Or.inl rfl⟩ }

/-! ## The clock and the closing of the transport -/

/-- The clock's answer in a world, and the world after asking. -/
def World.readClock (w : World σ) : UInt64 × World σ :=
  match w.client.nowMs with
  | none => (0, w)
  | some f => ((f w.env).1, { w with env := (f w.env).2, trace := .now (f w.env).1 :: w.trace })

theorem timeNow_eq (w : World σ) : timeNow w = .ok (.ok w.readClock.1, w.readClock.2) := by
  unfold timeNow World.readClock
  simp only [Prog.run_get_bind]
  cases w.client.nowMs with
  | none => rfl
  | some f => rfl

@[simp] theorem readClock_client (w : World σ) : w.readClock.2.client = w.client := by
  unfold World.readClock
  split <;> rfl

theorem readClock_steps (w : World σ) : Link.Steps w.link w.readClock.2.link := by
  unfold World.readClock
  split
  · exact .refl
  · exact .single (Link.Step.clock w.link _)

def World.stamped (w : World σ) : World σ :=
  ⟨{ w.client with lastActivityMs := w.readClock.1 }, w.readClock.2.env, w.readClock.2.trace⟩

theorem stamp_eq (w : World σ) :
    (timeNow >>= fun now => modifyClient fun c => { c with lastActivityMs := now }) w =
      .ok (.ok (), w.stamped) := by
  rw [Prog.bind_of_ok (timeNow_eq w), run_modifyClient, readClock_client]
  rfl

theorem stamped_steps {w : World σ} (hs : w.client.state ≠ .mqttConnectSent) :
    Link.Steps w.link w.stamped.link := by
  have hlink : w.stamped.link = { w.readClock.2.link with stamp := w.readClock.1 } := by
    simp only [World.link, World.stamped, readClock_client]
    rfl
  have hnoted := Link.Step.noted w.readClock.2.link w.readClock.1
    (by simpa only [World.link, readClock_client] using hs)
  rw [hlink]
  exact (readClock_steps w).tail hnoted

def World.dropped (w : World σ) (close : σ → Status × σ) : World σ :=
  { client := { w.client with state := .disconnected }
    env := (close w.env).2
    trace := .disconnect (close w.env).1 :: w.trace }

theorem dropTransport_eq {w : World σ} {close : σ → Status × σ}
    (h : w.client.transport.disconnect = some close) :
    dropTransport w = .ok (.ok (), w.dropped close) := by
  have hclose : transportDisconnect w = .ok (.ok (), ⟨w.client, (close w.env).2,
      .disconnect (close w.env).1 :: w.trace⟩) := by
    unfold transportDisconnect
    simp only [Prog.run_get_bind, h]
    rfl
  rw [dropTransport, Prog.bind_of_ok hclose]
  rfl

/-! ## Sending -/

theorem WriteResult.written_eq {res : WriteResult} (h : ¬ HardError res.status) :
    res.written = if res.status = statusOk then res.outLen else 0 := by
  unfold WriteResult.written
  rcases not_hardError_iff.mp h with hok | hwb
  · rw [if_pos hok, if_neg (by rw [hok]; exact not_wouldBlock_ok)]
  · rw [if_pos hwb, if_neg hwb.ne_ok]

theorem transportWrite_eq {w : World σ} {write : σ → List UInt8 → WriteResult × σ} {len : Nat}
    (hf : w.client.transport.write = some write) (hlen : len ≤ w.client.txBuffer.length) :
    transportWrite len w =
      .ok (.ok (write w.env (w.client.txBuffer.take len)).1,
        { w with
          env := (write w.env (w.client.txBuffer.take len)).2
          trace := .write (w.client.txBuffer.take len)
            (write w.env (w.client.txBuffer.take len)).1 :: w.trace }) := by
  have hload : load w.client.txBuffer 0 len = .ok (w.client.txBuffer.take len) :=
    load_eq_ok.mpr ⟨by omega, by simp⟩
  unfold transportWrite
  simp only [Prog.run_get_bind, hf, hload, Prog.run_ofExcept_ok_bind]
  rfl

/-- The client once `n` of its staged bytes are gone. -/
def Client.unstage (c : Client σ) (n : Nat) : Client σ :=
  { c with
    txBuffer := slide c.txBuffer n (c.txPendingLen - n)
    txPendingLen := c.txPendingLen - n }

theorem Client.Sound.staged_unstage {c : Client σ} (h : c.Sound) (n : Nat) :
    (c.unstage n).staged = c.staged.drop n :=
  take_slide (h.txLength ▸ h.txPending)

theorem Client.Sound.unstage {c : Client σ} (h : c.Sound) (n : Nat) : (c.unstage n).Sound :=
  { h with
    txLength := (length_slide (h.txLength ▸ h.txPending)).trans h.txLength
    txPending := (Nat.sub_le _ _).trans h.txPending }

theorem clientFlushPending_nil {w : World σ} (h : w.client.txPendingLen = 0) :
    clientFlushPending w = .ok (.ok (), w) := by
  unfold clientFlushPending
  simp [h]

/-- A flush, by what the transport answers to the staged bytes. -/
theorem clientFlushPending_eq {w : World σ} {write : σ → List UInt8 → WriteResult × σ}
    {res : WriteResult} {env : σ} (hs : w.client.Sound) (hpos : 0 < w.client.txPendingLen)
    (hf : w.client.transport.write = some write)
    (hcall : write w.env w.client.staged = (res, env)) :
    clientFlushPending w =
      if HardError res.status then
        .ok (.error res.status, ⟨w.client, env, .write w.client.staged res :: w.trace⟩)
      else if res.written ≤ w.client.txPendingLen then
        .ok (.ok (), ⟨w.client.unstage res.written, env, .write w.client.staged res :: w.trace⟩)
      else .error .underflow := by
  have htx := hs.txLength
  have hpend := hs.txPending
  have hlen : w.client.txPendingLen ≤ w.client.txBuffer.length := by omega
  have hwrite := transportWrite_eq hf hlen
  rw [show w.client.txBuffer.take w.client.txPendingLen = w.client.staged from rfl, hcall] at hwrite
  unfold clientFlushPending
  simp only [run_getClient_bind]
  rw [if_neg (by omega), Prog.bind_of_ok hwrite]
  simp only [Prog.run_ite, Prog.run_throw_bind]
  split
  · rfl
  · by_cases hle : res.written ≤ w.client.txPendingLen
    · rw [if_pos hle]
      have hsub : checkedSub w.client.txPendingLen res.written =
          .ok (w.client.txPendingLen - res.written) := checkedSub_eq_ok.mpr ⟨hle, rfl⟩
      have hmove := move_zero_eq w.client.txBuffer res.written
        (w.client.txPendingLen - res.written) (by omega)
      simp only [hsub, hmove, Prog.run_ofExcept_ok_bind, run_modifyClient_bind, Prog.run_ite,
        run_modifyClient, Prog.run_pure, Client.unstage]
      -- the two tests only skip moves that change nothing
      split
      · split
        · rfl
        · next hleft =>
          rw [show w.client.txPendingLen - res.written = 0 by omega, slide_zero_right]
      · next hnone =>
        rw [show res.written = 0 by omega, slide_zero_left]
        rfl
    · rw [if_neg hle, if_pos (by omega)]
      have hsub : checkedSub w.client.txPendingLen res.written = .error .underflow := by
        rw [checkedSub, if_neg hle]
      rw [hsub]
      rfl

/-- How a flush can end, if it does not fault. -/
inductive Flushes (w : World σ) : Except Status Unit → World σ → Prop
  | idle (hzero : w.client.txPendingLen = 0) : Flushes w (.ok ()) w
  | failed (write : σ → List UInt8 → WriteResult × σ) (res : WriteResult) (env : σ)
      (hpos : 0 < w.client.txPendingLen) (hf : w.client.transport.write = some write)
      (hcall : write w.env w.client.staged = (res, env)) (hres : HardError res.status) :
      Flushes w (.error res.status) ⟨w.client, env, .write w.client.staged res :: w.trace⟩
  | flushed (write : σ → List UInt8 → WriteResult × σ) (res : WriteResult) (env : σ)
      (hpos : 0 < w.client.txPendingLen) (hf : w.client.transport.write = some write)
      (hcall : write w.env w.client.staged = (res, env)) (hres : ¬ HardError res.status)
      (hle : res.written ≤ w.client.txPendingLen) :
      Flushes w (.ok ())
        ⟨w.client.unstage res.written, env, .write w.client.staged res :: w.trace⟩

theorem clientFlushPending_flushes {w w' : World σ} {r : Except Status Unit} (hs : w.client.Sound)
    (h : clientFlushPending w = .ok (r, w')) : Flushes w r w' := by
  rcases Nat.eq_zero_or_pos w.client.txPendingLen with hzero | hpos
  · rw [clientFlushPending_nil hzero] at h
    cases h
    exact .idle hzero
  · obtain ⟨write, hf⟩ := hs.exists_write (Nat.lt_of_lt_of_le hpos hs.txPending)
    rcases hcall : write w.env w.client.staged with ⟨res, env⟩
    rw [clientFlushPending_eq hs hpos hf hcall] at h
    split at h
    · next hres =>
      cases h
      exact .failed write res env hpos hf hcall hres
    · next hres =>
      split at h
      · next hle =>
        cases h
        exact .flushed write res env hpos hf hcall hres hle
      · cases h

/-- How a send path for `p` can end. -/
inductive Sends (p : Packet) (w : World σ) : Except Status Unit → World σ → Prop
  /-- The packet does not fit; the encoder has written over the front of `tx_buffer`. -/
  | encodeFailed (buf : List UInt8) (hlen : buf.length = w.client.txBuffer.length) :
      Sends p w (.error bufferTooSmall)
        ⟨{ w.client with txBuffer := buf }, w.env,
          .encode w.client.state w.client.txPendingLen p :: w.trace⟩
  /-- The packet was written over the front of `tx_buffer`, where unsent bytes are staged, and the
  send was refused because of them. -/
  | refused (buf : List UInt8) (hlen : buf.length = w.client.txBuffer.length)
      (hpos : 0 < w.client.txPendingLen)
      (hfront : buf.take p.bytes.length = p.bytes) :
      Sends p w (.error ioWouldBlock)
        ⟨{ w.client with txBuffer := buf }, w.env,
          .refused p (buf.take w.client.txPendingLen) ::
            .encode w.client.state w.client.txPendingLen p :: w.trace⟩
  /-- The transport failed. -/
  | failed (buf : List UInt8) (write : σ → List UInt8 → WriteResult × σ) (res : WriteResult)
      (env : σ) (hlen : buf.length = w.client.txBuffer.length)
      (hzero : w.client.txPendingLen = 0) (hf : w.client.transport.write = some write)
      (hcall : write w.env p.bytes = (res, env)) (hres : HardError res.status) :
      Sends p w (.error res.status)
        ⟨{ w.client with txBuffer := buf }, env,
          .write p.bytes res :: .encode w.client.state w.client.txPendingLen p :: w.trace⟩
  /-- The transport took some of the packet and the rest is staged. -/
  | sent (buf : List UInt8) (write : σ → List UInt8 → WriteResult × σ) (res : WriteResult)
      (env : σ) (hlen : buf.length = w.client.txBuffer.length)
      (hfits : p.bytes.length ≤ w.client.txBuffer.length)
      (hzero : w.client.txPendingLen = 0) (hf : w.client.transport.write = some write)
      (hcall : write w.env p.bytes = (res, env)) (hres : ¬ HardError res.status)
      (hstaged : buf.take (p.bytes.length - res.written) = p.bytes.drop res.written) :
      Sends p w (.ok ())
        ⟨{ w.client with txBuffer := buf, txPendingLen := p.bytes.length - res.written }, env,
          .sent p :: .write p.bytes res ::
            .encode w.client.state w.client.txPendingLen p :: w.trace⟩

/-- `client_send` with nothing staged, by what the transport answers. It cannot fault. -/
theorem clientSend_eq {w : World σ} {p : Packet} {write : σ → List UInt8 → WriteResult × σ}
    {res : WriteResult} {env : σ} {len : Nat} {data : List UInt8}
    (hlen : len ≤ w.client.txBuffer.length) (hzero : w.client.txPendingLen = 0)
    (hf : w.client.transport.write = some write) (hdata : w.client.txBuffer.take len = data)
    (hcall : write w.env data = (res, env)) :
    clientSend p len w =
      if HardError res.status then
        .ok (.error res.status, ⟨w.client, env, .write data res :: w.trace⟩)
      else
        .ok (.ok (),
          ⟨{ w.client with
              txBuffer := slide w.client.txBuffer res.written (len - res.written)
              txPendingLen := len - res.written }, env,
            .sent p :: .write data res :: w.trace⟩) := by
  have hwrite := transportWrite_eq hf hlen
  rw [hdata, hcall] at hwrite
  unfold clientSend
  simp only [run_getClient_bind]
  rw [if_neg (by omega), Prog.bind_of_ok hwrite]
  simp only [Prog.run_ite, Prog.run_throw_bind]
  split
  · rfl
  · split
    -- the rest of the packet is moved to the front and stays staged
    · next hlt =>
      have hsub : checkedSub len res.written = .ok (len - res.written) :=
        checkedSub_eq_ok.mpr ⟨by omega, rfl⟩
      have hmove := move_zero_eq w.client.txBuffer res.written (len - res.written) (by omega)
      simp only [hsub, hmove, Prog.run_ofExcept_ok_bind, run_modifyClient_bind, run_mark]
    -- everything was taken: no move, and nothing staged as before
    · next hge =>
      rw [show len - res.written = 0 by omega, slide_zero_right, ← hzero]
      rfl

/-- `client_send` with bytes staged. -/
theorem clientSend_refused {w : World σ} {p : Packet} {len : Nat}
    (hpos : 0 < w.client.txPendingLen) :
    clientSend p len w =
      .ok (.error ioWouldBlock, ⟨w.client, w.env, .refused p w.client.staged :: w.trace⟩) := by
  unfold clientSend
  simp only [run_getClient_bind]
  rw [if_pos hpos]
  rfl

/-- A send path ends in one of the four ways as soon as the encoder ends. -/
theorem encodeAndSend_of_encode {w : World σ} {p : Packet} {r : Except Status Unit} {e : Encoder}
    (hs : w.client.Sound)
    (henc : p.encode w.client.txBufferSize ⟨w.client.txBuffer, 0, 0⟩ = .ok (r, e)) :
    ∃ r' w', encodeAndSend p w = .ok (r', w') ∧ Sends p w r' w' := by
  have hdone := encode_ensures p hs.txSize (e := ⟨w.client.txBuffer, 0, 0⟩) hs.txLength rfl r e henc
  unfold encodeAndSend
  simp only [run_getClient_bind, run_mark_bind, henc, Prog.run_ofExcept_ok_bind,
    run_modifyClient_bind]
  cases r with
  | error status =>
    obtain ⟨rfl, hlen, -⟩ := hdone
    exact ⟨_, _, rfl, Sends.encodeFailed e.buf hlen⟩
  | ok u =>
    obtain ⟨hlen, hout, hbytes⟩ := hdone
    have hle := le_length_of_take hout hbytes
    rw [hout] at hle
    have hone : 0 < p.bytes.length := by simp [Packet.bytes]
    rw [hout] at hbytes
    simp only [hout]
    -- only now does `client_send` look at what is staged; the encoder has written over it
    by_cases hpos : 0 < w.client.txPendingLen
    · exact ⟨_, _, clientSend_refused hpos, Sends.refused e.buf hlen hpos hbytes⟩
    · have hzero : w.client.txPendingLen = 0 := by omega
      have htx := hs.txLength
      simp only at hlen
      obtain ⟨write, hf⟩ := hs.exists_write (by omega)
      rcases hcall : write w.env p.bytes with ⟨res, env⟩
      have hsend := clientSend_eq (p := p) (w := ⟨{ w.client with txBuffer := e.buf }, w.env,
        .encode w.client.state w.client.txPendingLen p :: w.trace⟩) hle hzero hf hbytes hcall
      rw [hsend]
      split
      · next hres => exact ⟨_, _, rfl, Sends.failed e.buf write res env hlen hzero hf hcall hres⟩
      · next hres =>
        refine ⟨_, _, rfl, Sends.sent _ write res env ?_ (hlen ▸ hle) hzero hf hcall hres ?_⟩
        · exact (length_slide hle).trans hlen
        · rw [take_slide hle, hbytes]

/-- How a send path ends, if it does not fault. -/
theorem encodeAndSend_sends {w w' : World σ} {p : Packet} {r : Except Status Unit}
    (hs : w.client.Sound) (h : encodeAndSend p w = .ok (r, w')) : Sends p w r w' := by
  cases henc : p.encode w.client.txBufferSize ⟨w.client.txBuffer, 0, 0⟩ with
  | error fault =>
    unfold encodeAndSend at h
    simp only [run_getClient_bind, run_mark_bind, henc] at h
    cases h
  | ok q =>
    obtain ⟨r₀, e⟩ := q
    obtain ⟨r', w'', hrun, hsends⟩ := encodeAndSend_of_encode hs henc
    rw [hrun] at h
    cases h
    exact hsends

/-- A packet whose size is a `size_t` is sent, or not, without a fault. -/
theorem encodeAndSend_returns {w : World σ} {p : Packet} (hs : w.client.Sound)
    (hfits : 5 + p.body.length < 2 ^ 64) : (encodeAndSend p).Returns w (Sends p w) := by
  obtain ⟨r, e, henc, -⟩ := encode_returns (e := ⟨w.client.txBuffer, 0, 0⟩) p hs.txSize
    hs.txLength rfl hfits
  exact encodeAndSend_of_encode hs henc

/-! ## Requests -/

/-- `aemlib_connect`: the buffers are emptied first, whatever the state. -/
theorem connect_eq (w : World σ) :
    connect w =
      if w.client.state = .disconnected then
        .ok (.ok (), ⟨{ w.client with
            txPendingLen := 0, rxLen := 0, state := .connecting, connectSent := false }, w.env,
          .connectCall w.client.state w.client.txPendingLen :: w.trace⟩)
      else
        .ok (.error stateInvalid, ⟨{ w.client with txPendingLen := 0, rxLen := 0 }, w.env,
          .connectCall w.client.state w.client.txPendingLen :: w.trace⟩) := by
  unfold connect Core.connect
  simp only [run_getClient_bind, run_mark_bind, run_modifyClient_bind, ne_eq, ite_not,
    Prog.run_throw_bind, Prog.run_ite, run_modifyClient]

theorem disconnect_eq (w : World σ) :
    disconnect w =
      if w.client.state = .mqttConnected then
        .ok (.ok (), ⟨{ w.client with state := .mqttDisconnecting }, w.env, w.trace⟩)
      else .ok (.error stateInvalid, w) := by
  unfold disconnect Core.disconnect
  simp only [run_getClient_bind, ne_eq, ite_not, Prog.run_throw_bind, Prog.run_ite,
    run_modifyClient]

theorem publish_eq (w : World σ) (topic payload : List UInt8) (qos : Int) :
    publish topic payload qos w =
      if qos = 0 then encodeAndSend (.publish topic payload) w
      else .ok (.error (mkStatus .general .unsupported), w) := by
  unfold publish
  simp only [ne_eq, ite_not, Prog.run_throw_bind, Prog.run_ite]

/-- The packet id after `id`; 0 is skipped. -/
def packetIdAfter (id : UInt16) : UInt16 := if id + 1 = 0 then 1 else id + 1

/-- `aemlib_subscribe` takes a packet id before it knows whether the packet can be sent. -/
theorem subscribe_eq (w : World σ) (topic : List UInt8) (qos : Int) :
    subscribe topic qos w =
      if qos = 0 then
        encodeAndSend (.subscribe (packetIdAfter w.client.packetId) topic)
          ⟨{ w.client with packetId := packetIdAfter w.client.packetId }, w.env, w.trace⟩
      else .ok (.error (mkStatus .general .unsupported), w) := by
  unfold subscribe
  simp only [ne_eq, ite_not, Prog.run_throw_bind, Prog.run_ite]
  rfl

def Request.sends : Request → Bool
  | .publish _ _ _ | .subscribe _ _ => true
  | .connect | .disconnect => false

/-- How such a request can end: turned down for its QoS, or with a send path for a packet that is
neither a CONNECT nor a PINGREQ, which may have taken a packet id first. -/
inductive Posts (w : World σ) : Except Status Unit → World σ → Prop
  | unsupported : Posts w (.error (mkStatus .general .unsupported)) w
  | attempted (p : Packet) (id : UInt16) (r : Except Status Unit) (w' : World σ)
      (hconnect : p.isConnect = false) (hping : p ≠ .pingreq)
      (hsends : Sends p ⟨{ w.client with packetId := id }, w.env, w.trace⟩ r w') : Posts w r w'

theorem request_posts {w w' : World σ} {q : Request} {r : Except Status Unit}
    (hs : w.client.Sound) (hq : q.sends = true) (h : request q w = .ok (r, w')) :
    Posts w r w' := by
  cases q with
  | connect | disconnect => cases hq
  | publish topic payload qos =>
    have h' : publish topic payload qos w = .ok (r, w') := h
    rw [publish_eq] at h'
    split at h'
    · exact .attempted (.publish topic payload) w.client.packetId r w' rfl (by simp)
        (encodeAndSend_sends hs h')
    · cases h'
      exact .unsupported
  | subscribe topic qos =>
    have h' : subscribe topic qos w = .ok (r, w') := h
    rw [subscribe_eq] at h'
    split at h'
    · refine .attempted (.subscribe (packetIdAfter w.client.packetId) topic)
        (packetIdAfter w.client.packetId) r w' rfl (by simp) ?_
      exact encodeAndSend_sends { hs with } h'
    · cases h'
      exact .unsupported

/-! ## The two sends of a poll -/

/-- How a poll that waits for CONNACK can deal with its CONNECT. -/
inductive Introduces (w : World σ) : Except Status Unit → World σ → Prop
  | already (hsent : w.client.connectSent = true) : Introduces w (.ok ()) w
  | failed (status : Status) (w' : World σ) (hnot : w.client.connectSent = false)
      (hsends : Sends w.client.connectPacket w (.error status) w') :
      Introduces w (.error status) w'
  | sent (w' : World σ) (hnot : w.client.connectSent = false)
      (hsends : Sends w.client.connectPacket w (.ok ()) w') :
      Introduces w (.ok ()) ⟨{ w'.client with connectSent := true }, w'.env, w'.trace⟩

theorem pollConnectSent_introduces {w w' : World σ} {r : Except Status Unit}
    (hs : w.client.Sound) (h : pollConnectSent w = .ok (r, w')) : Introduces w r w' := by
  unfold pollConnectSent clientSendConnect at h
  simp only [run_getClient_bind, Prog.run_ite] at h
  split at h
  · next hnot =>
    rw [Bool.not_eq_true] at hnot
    rcases Prog.bind_eq_ok.mp h with ⟨e, hsend, rfl⟩ | ⟨u, w₁, hsend, hset⟩
    · exact .failed e w' hnot (encodeAndSend_sends hs hsend)
    · cases hset
      exact .sent w₁ hnot (encodeAndSend_sends hs hsend)
  · next hsent =>
    rw [not_not] at hsent
    cases h
    exact .already hsent

/-- How the keepalive can end. -/
inductive Beats (w : World σ) : Except Status Unit → World σ → Prop
  | early (hearly : ¬ w.readClock.1 - w.client.lastActivityMs ≥ w.client.keepaliveIntervalMs) :
      Beats w (.ok ()) w.readClock.2
  | failed (status : Status) (w' : World σ)
      (hsends : Sends .pingreq w.readClock.2 (.error status) w') : Beats w (.error status) w'
  | pinged (w' : World σ)
      (hdue : w.readClock.1 - w.client.lastActivityMs ≥ w.client.keepaliveIntervalMs)
      (hsends : Sends .pingreq w.readClock.2 (.ok ()) w') :
      Beats w (.ok ()) ⟨{ w'.client with lastActivityMs := w.readClock.1 }, w'.env, w'.trace⟩

theorem keepalive_beats {w w' : World σ} {r : Except Status Unit} (hs : w.client.Sound)
    (h : keepalive w = .ok (r, w')) : Beats w r w' := by
  have hclock : w.readClock.2.client.Sound := by
    rw [readClock_client]
    exact hs
  unfold keepalive clientSendPing at h
  rw [Prog.bind_of_ok (timeNow_eq w)] at h
  simp only [run_getClient_bind, Prog.run_ite, readClock_client] at h
  split at h
  · next hdue =>
    rcases Prog.bind_eq_ok.mp h with ⟨e, hsend, rfl⟩ | ⟨u, w₁, hsend, hset⟩
    · exact .failed e w' (encodeAndSend_sends hclock hsend)
    · cases hset
      exact .pinged w₁ hdue (encodeAndSend_sends hclock hsend)
  · next hearly =>
    cases h
    exact .early hearly

/-! ## Receiving -/

/-- The client once a read has stored its bytes. Bytes that come with a status other than OK are in
the buffer but are not counted. -/
def Client.received (c : Client σ) (res : ReadResult) : Client σ :=
  { c with
    rxBuffer := c.rxBuffer.take c.rxLen ++ res.data ++ c.rxBuffer.drop (c.rxLen + res.data.length)
    rxLen := c.rxLen + res.taken.length }

theorem ReadResult.length_taken_le (res : ReadResult) : res.taken.length ≤ res.data.length := by
  unfold ReadResult.taken
  split <;> simp

theorem Client.Sound.held_received {c : Client σ} (h : c.Sound) (res : ReadResult) :
    (c.received res).held = c.held ++ res.taken := by
  have hlen : (c.rxBuffer.take c.rxLen).length = c.rxLen := h.length_held
  unfold Client.held Client.received ReadResult.taken
  simp only
  split
  · rw [List.take_left']
    simp [hlen]
  · simp only [List.length_nil, Nat.add_zero, List.append_nil, List.append_assoc]
    rw [List.take_left' hlen]

theorem Client.Sound.received {c : Client σ} {res : ReadResult} (h : c.Sound)
    (hfits : c.rxLen + res.data.length ≤ c.rxBufferSize) : (c.received res).Sound := by
  have hrx := h.rxLength
  have hle := res.length_taken_le
  refine { h with rxLength := ?_, rxHeld := ?_ }
  · simp only [Client.received, List.length_append, List.length_take, List.length_drop]
    omega
  · simp only [Client.received]
    omega

def World.afterRead (w : World σ) (res : ReadResult) (env : σ) : World σ :=
  ⟨w.client.received res, env, .read (w.client.rxBufferSize - w.client.rxLen) res :: w.trace⟩

/-- A read, by what the transport answers. -/
theorem readMore_eq {w : World σ} {read : σ → Nat → ReadResult × σ} {res : ReadResult} {env : σ}
    (hs : w.client.Sound) (hf : w.client.transport.read = some read)
    (hcall : read w.env (w.client.rxBufferSize - w.client.rxLen) = (res, env)) :
    readMore w =
      if w.client.rxLen + res.data.length ≤ w.client.rxBufferSize then
        .ok (.ok res.status, w.afterRead res env)
      else .error .outOfBounds := by
  have hsub : checkedSub w.client.rxBufferSize w.client.rxLen =
      .ok (w.client.rxBufferSize - w.client.rxLen) := checkedSub_eq_ok.mpr ⟨hs.rxHeld, rfl⟩
  unfold readMore
  simp only [run_getClient_bind, hsub, Prog.run_ofExcept_ok_bind]
  by_cases hfits : w.client.rxLen + res.data.length ≤ w.client.rxBufferSize
  · -- the bytes fit behind those held, so the store is the one `received` describes
    have hstore : store w.client.rxBuffer w.client.rxLen res.data =
        .ok (w.client.received res).rxBuffer :=
      store_eq_ok.mpr ⟨by rw [hs.rxLength]; exact hfits, rfl⟩
    have hread : transportRead w.client.rxLen (w.client.rxBufferSize - w.client.rxLen) w =
        .ok (.ok res, ⟨{ w.client with rxBuffer := (w.client.received res).rxBuffer }, env,
          .read (w.client.rxBufferSize - w.client.rxLen) res :: w.trace⟩) := by
      unfold transportRead
      simp only [Prog.run_get_bind, hf, hcall, hstore, Prog.run_ofExcept_ok_bind,
        Prog.run_set_bind, Prog.run_pure]
    have hsize := hs.rxSize
    have hle := res.length_taken_le
    rw [if_pos hfits, Prog.bind_of_ok hread]
    simp only [Prog.run_ite, run_modifyClient_bind, Prog.run_pure]
    split
    · next hres =>
      simp only [World.afterRead, Client.received, ReadResult.taken, if_neg hres.1,
        List.length_nil, Nat.add_zero]
    · next hres =>
      -- `WOULD_BLOCK` counts as no bytes, and every other status that gets here is OK
      have hcount : (if WouldBlock res.status then 0 else res.data.length) = res.taken.length := by
        unfold ReadResult.taken
        rcases not_hardError_iff.mp hres with hok | hwb
        · rw [if_pos hok, if_neg (by rw [hok]; exact not_wouldBlock_ok)]
        · rw [if_pos hwb, if_neg hwb.ne_ok, List.length_nil]
      rw [hcount, sizeAdd_of_lt (by omega)]
      rfl
  · -- the callback has reported more bytes than it was asked for
    have hstore : store w.client.rxBuffer w.client.rxLen res.data = .error .outOfBounds := by
      rw [store, if_neg (by rw [hs.rxLength]; exact hfits)]
    have hread : transportRead w.client.rxLen (w.client.rxBufferSize - w.client.rxLen) w =
        .error .outOfBounds := by
      unfold transportRead
      simp only [Prog.run_get_bind, hf, hcall, hstore]
      rfl
    rw [if_neg hfits, Prog.bind_of_fault hread]

/-- The client once a packet of `n` bytes is gone from the front of `rx_buffer`. -/
def Client.consumed (c : Client σ) (n : Nat) : Client σ :=
  { c with rxBuffer := slide c.rxBuffer n (c.rxLen - n), rxLen := c.rxLen - n }

theorem Client.Sound.held_consumed {c : Client σ} (h : c.Sound) (n : Nat) :
    (c.consumed n).held = c.held.drop n :=
  take_slide (h.rxLength ▸ h.rxHeld)

theorem Client.Sound.consumed {c : Client σ} (h : c.Sound) (n : Nat) : (c.consumed n).Sound :=
  { h with
    rxLength := (length_slide (h.rxLength ▸ h.rxHeld)).trans h.rxLength
    rxHeld := (Nat.sub_le _ _).trans h.rxHeld }

theorem consume_eq {w : World σ} (hs : w.client.Sound) (n : Nat) :
    consume n w =
      if n ≤ w.client.rxLen then .ok (.ok (), ⟨w.client.consumed n, w.env, w.trace⟩)
      else .error .underflow := by
  have hrx := hs.rxLength
  have hheld := hs.rxHeld
  unfold consume
  simp only [run_getClient_bind]
  by_cases hle : n ≤ w.client.rxLen
  · have hsub : checkedSub w.client.rxLen n = .ok (w.client.rxLen - n) :=
      checkedSub_eq_ok.mpr ⟨hle, rfl⟩
    have hmove := move_zero_eq w.client.rxBuffer n (w.client.rxLen - n) (by omega)
    simp only [if_pos hle, hsub, hmove, Prog.run_ofExcept_ok_bind, run_modifyClient_bind,
      Prog.run_ite, run_modifyClient, Prog.run_pure, Client.consumed]
    split
    · rfl
    · rw [show w.client.rxLen - n = 0 by omega, slide_zero_right]
  · have hsub : checkedSub w.client.rxLen n = .error .underflow := by rw [checkedSub, if_neg hle]
    rw [if_neg hle, hsub]
    rfl

/-! ## The CONNACK wait -/

/-- A complete CONNACK of `n` bytes: consumed, and then the connection stands or is dropped. -/
theorem answerConnack_eq {w : World σ} {close : σ → Status × σ} {n : Nat} (hs : w.client.Sound)
    (hclose : w.client.transport.disconnect = some close) (hn : n ≤ w.client.rxLen) :
    answerConnack n w =
      if n < 4 ∨ w.client.held.getD 3 0 ≠ 0 then
        .ok (.error (mkStatus .protocol .connect),
          World.dropped ⟨w.client.consumed n, w.env, w.trace⟩ close)
      else
        .ok (.ok (), World.stamped
          ⟨{ w.client.consumed n with state := .mqttConnected }, w.env, w.trace⟩) := by
  have hrx := hs.rxLength
  have hheld := hs.rxHeld
  have hn' : n ≤ w.client.rxBuffer.length := by omega
  have hdecode := decodeConnack_eq hn'
  have hdrop : dropTransport ⟨w.client.consumed n, w.env, w.trace⟩ =
      .ok (.ok (), World.dropped ⟨w.client.consumed n, w.env, w.trace⟩ close) :=
    dropTransport_eq hclose
  unfold answerConnack
  simp only [run_getClient_bind, hdecode, Prog.run_ofExcept_ok_bind]
  rw [Prog.bind_of_ok (by rw [consume_eq hs, if_pos hn])]
  -- the decoder refuses a packet of less than four bytes, and the handler a code other than 0
  by_cases h4 : n < 4
  · simp only [h4, true_or, if_true, Bool.false_eq_true, if_false]
    rw [Prog.bind_of_ok hdrop]
    rfl
  · have hget : w.client.held.getD 3 0 = w.client.rxBuffer.getD 3 0 := by
      rw [Client.held, List.getD_eq_getElem?_getD, List.getD_eq_getElem?_getD,
        List.getElem?_take_of_lt (by omega)]
    simp only [h4, false_or, hget, if_false]
    by_cases h3 : w.client.rxBuffer.getD 3 0 = 0
    · rw [if_pos (beq_iff_eq.mpr h3), if_neg (not_not.mpr h3)]
      exact stamp_eq ⟨{ w.client.consumed n with state := .mqttConnected }, w.env, w.trace⟩
    · rw [if_neg (by simpa using h3), if_pos h3, Prog.bind_of_ok hdrop]
      rfl

/-- The client after a rejected answer: as it was, or with the CONNACK consumed, and closed. -/
def Rejected (w : World σ) (close : σ → Status × σ) (w' : World σ) : Prop :=
  ∃ c, (c = w.client ∨ ∃ n, n ≤ w.client.rxLen ∧ c = w.client.consumed n) ∧
    w' = World.dropped ⟨c, w.env, w.trace⟩ close

/-- What the CONNACK wait does with the bytes held follows its verdict on them. -/
def Judged (w : World σ) (close : σ → Status × σ) : Verdict → Except Status Bool → World σ → Prop
  | .wait, r, w' => r = .ok false ∧ w' = w
  | .accept n, r, w' => r = .ok true ∧ n ≤ w.client.rxLen ∧
      w' = World.stamped ⟨{ w.client.consumed n with state := .mqttConnected }, w.env, w.trace⟩
  | .reject status, r, w' => r = .error status ∧ Rejected w close w'

theorem checkConnack_returns {w : World σ} {close : σ → Status × σ} (hs : w.client.Sound)
    (hclose : w.client.transport.disconnect = some close) :
    checkConnack.Returns w
      (Judged w close (connackVerdict w.client.rxBufferSize w.client.held)) := by
  have hrx := hs.rxLength
  have hheld := hs.rxHeld
  have hlen := hs.length_held
  have hdrop := dropTransport_eq hclose
  have hdecode : decodeFixedHeader w.client.rxBuffer w.client.rxLen =
      .ok (parseHeader w.client.held) := decodeFixedHeader_eq (by omega)
  unfold checkConnack connackVerdict
  simp only [Prog.Returns, run_getClient_bind]
  -- the cases of the handler are those of the verdict, in the same order
  by_cases hzero : w.client.rxLen = 0
  · have hnil : w.client.held = [] := List.eq_nil_of_length_eq_zero (by omega)
    rw [if_pos hzero, hnil]
    exact ⟨_, _, rfl, rfl, rfl⟩
  · rw [if_neg hzero]
    simp only [hdecode, Prog.run_ofExcept_ok_bind, hlen]
    cases parseHeader w.client.held with
    | error status =>
      simp only [Prog.run_ite]
      by_cases hsmall : TooSmall status
      · rw [if_pos hsmall, if_neg (not_not.mpr hsmall)]
        exact ⟨_, _, rfl, rfl, rfl⟩
      · rw [if_neg hsmall, if_pos hsmall, Prog.bind_of_ok hdrop]
        exact ⟨_, _, rfl, rfl, _, Or.inl rfl, rfl⟩
    | ok header =>
      simp only [Prog.run_ite]
      split
      · rw [Prog.bind_of_ok hdrop]
        exact ⟨_, _, rfl, rfl, _, Or.inl rfl, rfl⟩
      · split
        · rw [Prog.bind_of_ok hdrop]
          exact ⟨_, _, rfl, rfl, _, Or.inl rfl, rfl⟩
        · -- a CONNACK that `rx_buffer` can hold: is all of it there?
          by_cases hfull : header.packetLen ≤ w.client.rxLen
          · rw [if_pos hfull, if_neg (by omega)]
            have hanswer := answerConnack_eq hs hclose hfull
            split at hanswer
            · next hbad =>
              rw [Prog.bind_of_error hanswer, if_pos hbad]
              exact ⟨_, _, rfl, rfl, _, Or.inr ⟨_, hfull, rfl⟩, rfl⟩
            · next hgood =>
              rw [Prog.bind_of_ok hanswer, if_neg hgood]
              exact ⟨_, _, rfl, rfl, hfull, rfl⟩
          · rw [if_neg hfull, if_pos (by omega)]
            exact ⟨_, _, rfl, rfl, rfl⟩

/-- How one turn of the CONNACK wait can end, once the read has answered `res` and left `w`. -/
inductive Waits (w : World σ) (close : σ → Status × σ) (res : ReadResult) :
    Except Status Unit → World σ → Prop
  | failed (hres : HardError res.status) : Waits w close res (.error res.status) (w.dropped close)
  | rejected (status : Status) (w' : World σ) (hres : ¬ HardError res.status)
      (hv : connackVerdict w.client.rxBufferSize w.client.held = .reject status)
      (hw' : Rejected w close w') : Waits w close res (.error status) w'
  | accepted (n : Nat) (hres : ¬ HardError res.status)
      (hv : connackVerdict w.client.rxBufferSize w.client.held = .accept n)
      (hn : n ≤ w.client.rxLen) :
      Waits w close res (.ok ())
        (World.stamped ⟨{ w.client.consumed n with state := .mqttConnected }, w.env, w.trace⟩)
  | timedOut (hres : ¬ HardError res.status)
      (hv : connackVerdict w.client.rxBufferSize w.client.held = .wait)
      (hlate : w.readClock.1 - w.client.lastActivityMs ≥ connackTimeoutMs) :
      Waits w close res (.error (mkStatus .general .timeout)) (w.readClock.2.dropped close)
  | waiting (hres : ¬ HardError res.status)
      (hv : connackVerdict w.client.rxBufferSize w.client.held = .wait)
      (hearly : ¬ w.readClock.1 - w.client.lastActivityMs ≥ connackTimeoutMs) :
      Waits w close res (.ok ()) w.readClock.2

theorem checkConnackTimeout_eq {w : World σ} {close : σ → Status × σ}
    (hclose : w.client.transport.disconnect = some close) :
    checkConnackTimeout w =
      if w.readClock.1 - w.client.lastActivityMs ≥ connackTimeoutMs then
        .ok (.error (mkStatus .general .timeout), w.readClock.2.dropped close)
      else .ok (.ok (), w.readClock.2) := by
  have hdrop := dropTransport_eq (w := w.readClock.2) (by rw [readClock_client]; exact hclose)
  unfold checkConnackTimeout
  rw [Prog.bind_of_ok (timeNow_eq w)]
  simp only [run_getClient_bind, readClock_client, Prog.run_ite]
  split
  · rw [Prog.bind_of_ok hdrop]
    rfl
  · rfl

/-- One turn of the CONNACK wait, by what the transport answers. -/
theorem handleStateMqttConnectSent_eq {w : World σ} {close : σ → Status × σ}
    {read : σ → Nat → ReadResult × σ} {res : ReadResult} {env : σ} (hs : w.client.Sound)
    (hclose : w.client.transport.disconnect = some close)
    (hf : w.client.transport.read = some read)
    (hcall : read w.env (w.client.rxBufferSize - w.client.rxLen) = (res, env)) :
    (w.client.rxBufferSize < w.client.rxLen + res.data.length ∧
      handleStateMqttConnectSent w = .error .outOfBounds) ∨
    (w.client.rxLen + res.data.length ≤ w.client.rxBufferSize ∧
      handleStateMqttConnectSent.Returns w
        (Waits (w.afterRead res env) close res)) := by
  have hread := readMore_eq hs hf hcall
  unfold handleStateMqttConnectSent
  split at hread
  · next hfits =>
    refine Or.inr ⟨hfits, ?_⟩
    unfold Prog.Returns
    rw [Prog.bind_of_ok hread]
    have hclose₁ : (w.afterRead res env).client.transport.disconnect = some close := hclose
    have hs₁ : (w.afterRead res env).client.Sound := hs.received hfits
    -- what follows the read depends on it through the world it left alone
    generalize w.afterRead res env = w₁ at hclose₁ hs₁
    simp only [Prog.run_ite]
    split
    · next hres =>
      rw [Prog.bind_of_ok (dropTransport_eq hclose₁)]
      exact ⟨_, _, rfl, .failed hres⟩
    · next hres =>
      obtain ⟨r, w₂, hcheck, hjudged⟩ := checkConnack_returns hs₁ hclose₁
      cases hv : connackVerdict w₁.client.rxBufferSize w₁.client.held with
      | wait =>
        rw [hv] at hjudged
        obtain ⟨rfl, rfl⟩ := hjudged
        rw [Prog.bind_of_ok hcheck]
        simp only [Bool.false_eq_true, if_false]
        rw [checkConnackTimeout_eq hclose₁]
        split
        · next hlate => exact ⟨_, _, rfl, .timedOut hres hv hlate⟩
        · next hearly => exact ⟨_, _, rfl, .waiting hres hv hearly⟩
      | accept n =>
        rw [hv] at hjudged
        obtain ⟨rfl, hn, rfl⟩ := hjudged
        rw [Prog.bind_of_ok hcheck]
        exact ⟨_, _, rfl, .accepted n hres hv hn⟩
      | reject status =>
        rw [hv] at hjudged
        obtain ⟨rfl, hrej⟩ := hjudged
        rw [Prog.bind_of_error hcheck]
        exact ⟨_, _, rfl, .rejected status w₂ hres hv hrej⟩
  · next hover => exact Or.inl ⟨by omega, Prog.bind_of_fault hread⟩

/-! ## Connecting -/

/-- How one turn of `CONNECTING` can end. -/
inductive Opens (w : World σ) : Except Status Unit → World σ → Prop
  | opened (open_ : σ → Status × σ) (env : σ) (hf : w.client.transport.connect = some open_)
      (hcall : open_ w.env = (statusOk, env)) :
      Opens w (.ok ()) (World.stamped
        ⟨{ w.client with state := .mqttConnectSent }, env, .connect statusOk :: w.trace⟩)
  | blocked (open_ : σ → Status × σ) (status : Status) (env : σ)
      (hf : w.client.transport.connect = some open_) (hcall : open_ w.env = (status, env))
      (hst : WouldBlock status) :
      Opens w (.ok ()) ⟨w.client, env, .connect status :: w.trace⟩
  | failed (open_ : σ → Status × σ) (status : Status) (env : σ)
      (hf : w.client.transport.connect = some open_) (hcall : open_ w.env = (status, env))
      (hst : HardError status) :
      Opens w (.error status)
        ⟨{ w.client with state := .disconnected }, env, .connect status :: w.trace⟩
  | missing (hf : w.client.transport.connect = none) :
      Opens w (.error (mkStatus .io .invalidArg))
        ⟨{ w.client with state := .disconnected }, w.env, w.trace⟩

theorem handleStateConnecting_returns (w : World σ) :
    handleStateConnecting.Returns w (Opens w) := by
  unfold handleStateConnecting
  cases hf : w.client.transport.connect with
  | none =>
    have hopen : transportConnect w = .ok (.ok (mkStatus .io .invalidArg), w) := by
      unfold transportConnect
      simp only [Prog.run_get_bind, hf]
      rfl
    have hbad : mkStatus .io .invalidArg ≠ statusOk := by decide
    have hnb : ¬ WouldBlock (mkStatus .io .invalidArg) := by decide
    -- a transport without `connect` answers like one that fails
    refine ⟨_, _, ?_, Opens.missing hf⟩
    rw [Prog.bind_of_ok hopen, if_neg hbad, if_neg hnb]
    rfl
  | some open_ =>
    rcases hcall : open_ w.env with ⟨status, env⟩
    have hopen : transportConnect w =
        .ok (.ok status, ⟨w.client, env, .connect status :: w.trace⟩) := by
      unfold transportConnect
      simp only [Prog.run_get_bind, hf, hcall]
      rfl
    unfold Prog.Returns
    rw [Prog.bind_of_ok hopen]
    by_cases hok : status = statusOk
    · subst hok
      rw [if_pos rfl]
      exact ⟨_, _, stamp_eq _, Opens.opened open_ env hf hcall⟩
    · rw [if_neg hok]
      by_cases hwb : WouldBlock status
      · rw [if_pos hwb]
        exact ⟨_, _, rfl, Opens.blocked open_ status env hf hcall hwb⟩
      · rw [if_neg hwb]
        exact ⟨_, _, rfl, Opens.failed open_ status env hf hcall ⟨hok, hwb⟩⟩

/-! ## The packet loop -/

/-- What a complete packet at the front of the bytes held asks for: nothing, a message, or an end
with an error. -/
def packetMessage (header : FixedHeader) (packet : List UInt8) :
    Except Status (Option (List UInt8 × List UInt8)) :=
  match header.type with
  | .publish =>
    match parsePublish packet header with
    | .error status => .error status
    | .ok view => .ok (some (view.message packet))
  | _ => .ok none

/-- Dispatching the packet at the front. -/
theorem clientDispatchPacket_eq {w : World σ} {header : FixedHeader} (hs : w.client.Sound)
    (hparse : parseHeader w.client.held = .ok header) (hn : header.packetLen ≤ w.client.rxLen) :
    clientDispatchPacket header header.packetLen w =
      match packetMessage header (w.client.held.take header.packetLen), w.client.onMessage with
      | .error status, _ => .ok (.error status, w)
      | .ok (some (topic, payload)), some onMessage => callOnMessage onMessage topic payload w
      | .ok _, _ => .ok (.ok (), w) := by
  have hrx := hs.rxLength
  have hheld := hs.rxHeld
  have hbounds := parseHeader_bounds hparse
  have htake : w.client.held.take header.packetLen = w.client.rxBuffer.take header.packetLen := by
    rw [Client.held, List.take_take, Nat.min_eq_left hn]
  unfold clientDispatchPacket packetMessage
  rw [htake]
  cases header.type with
  | publish =>
    simp only [run_getClient_bind]
    rw [decodePublish_eq (by omega) hbounds.2.1 hbounds.2.2.2]
    simp only [Prog.run_ofExcept_ok_bind]
    cases hpub : parsePublish (w.client.rxBuffer.take header.packetLen) header with
    | error status => rfl
    | ok view =>
      cases w.client.onMessage with
      | none => rfl
      | some onMessage =>
        obtain ⟨ht, hp⟩ := parsePublish_bounds hpub
        rw [List.length_take] at ht hp
        -- the view points into the packet, so that the callback reads within the buffer
        have hload : ∀ {a b}, a + b ≤ header.packetLen → load w.client.rxBuffer a b =
            .ok (((w.client.rxBuffer.take header.packetLen).drop a).take b) := by
          intro a b hab
          refine load_eq_ok.mpr ⟨by omega, ?_⟩
          rw [List.drop_take, List.take_take, Nat.min_eq_left (by omega)]
        simp only [hload (show view.topicStart + view.topicLen ≤ header.packetLen by omega),
          hload (show view.payloadStart + view.payloadLen ≤ header.packetLen by omega),
          Prog.run_ofExcept_ok_bind]
        rfl
  | _ => rfl

/-- One turn of the packet loop, by the header at the front of the bytes held. -/
theorem clientReadLoop_succ {w : World σ} (fuel : Nat) (hs : w.client.Sound) :
    clientReadLoop (fuel + 1) w =
      match parseHeader w.client.held with
      | .error status =>
        if TooSmall status then
          if w.client.rxLen ≠ 0 ∧ w.client.rxLen = w.client.rxBufferSize then
            .ok (.error bufferTooSmall, w)
          else .ok (.ok (), w)
        else .ok (.error status, w)
      | .ok header =>
        if header.packetLen > w.client.rxBufferSize then .ok (.error bufferTooSmall, w)
        else if header.packetLen > w.client.rxLen then .ok (.ok (), w)
        else
          (clientDispatchPacket header header.packetLen >>= fun _ =>
            consume header.packetLen >>= fun _ => clientReadLoop fuel) w := by
  have hrx := hs.rxLength
  have hheld := hs.rxHeld
  have hlen := hs.length_held
  have hdecode : decodeFixedHeader w.client.rxBuffer w.client.rxLen =
      .ok (parseHeader w.client.held) := decodeFixedHeader_eq (by omega)
  rw [clientReadLoop]
  simp only [run_getClient_bind]
  -- an empty buffer is to the header parser what it is to the loop: too few bytes
  by_cases hzero : w.client.rxLen = 0
  · have hnil : w.client.held = [] := List.eq_nil_of_length_eq_zero (by omega)
    rw [if_pos hzero, hnil]
    simp [parseHeader, hzero, tooSmall_bufferTooSmall]
  · rw [if_neg hzero]
    simp only [hdecode, Prog.run_ofExcept_ok_bind]
    cases parseHeader w.client.held with
    | error status =>
      simp only [Prog.run_ite, hzero, ne_eq, not_false_eq_true, true_and]
      rfl
    | ok header =>
      simp only [Prog.run_ite]
      rfl

/-- A whole packet at the front is dispatched and taken off. -/
theorem clientReadLoop_of_whole {w : World σ} {header : FixedHeader} (fuel : Nat)
    (hs : w.client.Sound) (hparse : parseHeader w.client.held = .ok header)
    (hn : header.packetLen ≤ w.client.rxLen) :
    clientReadLoop (fuel + 1) w =
      (clientDispatchPacket header header.packetLen >>= fun _ =>
        consume header.packetLen >>= fun _ => clientReadLoop fuel) w := by
  have hheld := hs.rxHeld
  rw [clientReadLoop_succ fuel hs, hparse]
  simp only
  rw [if_neg (by omega), if_neg (by omega)]

/-- A turn of the packet loop. It stops with the client as it is, and if it reports OK there is room
for more and what is held is an incomplete header or an incomplete packet; or there is a whole
packet at the front, to be dispatched and taken off. -/
theorem clientReadLoop_turn {w : World σ} (fuel : Nat) (hs : w.client.Sound) :
    (∃ r, clientReadLoop (fuel + 1) w = .ok (r, w) ∧ (r = .ok () →
      (1 ≤ w.client.rxBufferSize → w.client.rxLen < w.client.rxBufferSize) ∧
      (parseHeader w.client.held = .error bufferTooSmall ∨
        ∃ header, parseHeader w.client.held = .ok header ∧
          w.client.rxLen < header.packetLen ∧ header.packetLen ≤ w.client.rxBufferSize))) ∨
    ∃ header, parseHeader w.client.held = .ok header ∧
      header.packetLen ≤ w.client.rxBufferSize ∧ header.packetLen ≤ w.client.rxLen ∧
      clientReadLoop (fuel + 1) w =
        (clientDispatchPacket header header.packetLen >>= fun _ =>
          consume header.packetLen >>= fun _ => clientReadLoop fuel) w := by
  have hheld := hs.rxHeld
  have hturn := clientReadLoop_succ fuel hs
  cases hparse : parseHeader w.client.held with
  | error status =>
    rw [hturn, hparse]
    simp only
    by_cases hsmall : TooSmall status
    · rw [if_pos hsmall]
      split
      · exact Or.inl ⟨_, rfl, fun h => nomatch h⟩
      · next hroom =>
        refine Or.inl ⟨_, rfl, fun _ => ⟨by omega, Or.inl ?_⟩⟩
        -- the parser knows two errors, and this one is not "too small"
        rcases parseHeader_error hparse with rfl | rfl
        · rfl
        · exact absurd hsmall not_tooSmall_protocolError
    · rw [if_neg hsmall]
      exact Or.inl ⟨_, rfl, fun h => nomatch h⟩
  | ok header =>
    by_cases hwhole : header.packetLen ≤ w.client.rxLen
    · exact Or.inr ⟨header, rfl, by omega, hwhole, clientReadLoop_of_whole fuel hs hparse hwhole⟩
    · rw [hturn, hparse]
      simp only
      split
      · exact Or.inl ⟨_, rfl, fun h => nomatch h⟩
      -- the packet fits into the buffer, and is not complete
      · next hfits =>
        rw [if_pos (by omega)]
        exact Or.inl ⟨_, rfl, fun _ =>
          ⟨by omega, Or.inr ⟨header, rfl, by omega, Nat.not_lt.mp hfits⟩⟩⟩

/-- A read and the loop behind it, by what the transport answers. A read that fails leaves the loop
out. -/
theorem clientRead_eq {w : World σ} {read : σ → Nat → ReadResult × σ} {res : ReadResult} {env : σ}
    (hs : w.client.Sound) (hf : w.client.transport.read = some read)
    (hcall : read w.env (w.client.rxBufferSize - w.client.rxLen) = (res, env)) :
    clientRead w =
      if w.client.rxLen + res.data.length ≤ w.client.rxBufferSize then
        if HardError res.status then .ok (.error res.status, w.afterRead res env)
        else clientReadLoop ((w.afterRead res env).client.rxLen + 1) (w.afterRead res env)
      else .error .outOfBounds := by
  have hmore := readMore_eq hs hf hcall
  unfold clientRead
  split at hmore
  · next hfits =>
    rw [if_pos hfits, Prog.bind_of_ok hmore]
    simp only [Prog.run_ite, Prog.run_throw_bind, run_getClient_bind]
  · next hover => rw [if_neg hover, Prog.bind_of_fault hmore]

end Aemlib
