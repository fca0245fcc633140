import Aemlib.Behaviour.Inbound
import Aemlib.Behaviour.Timing
import Aemlib.Proto.RoundTrip

/-!
# The keepalive

One field, `last_activity_ms`, serves two timers. It is written when the transport connects, when
the CONNACK is accepted and when a PINGREQ is sent, and the time since then decides between waiting
and giving up in the one state and between waiting and pinging in the other. As long as the clock
does not run backwards, the beats of a connection are at least a keepalive interval apart, and no
poll that goes well leaves the last of them further behind.

The same interval goes out in the CONNECT, in seconds and in 16 bits, and there it does not always
say what the timer does.
-/

namespace Aemlib

open Machine Proto

variable {σ : Type}

/-! ## Sending and requests -/

theorem Flushes.keepsSchedule {w w' : World σ} {r : Except Status Unit} (h : Flushes w r w') :
    KeepsSchedule w w' := by
  cases h with
  | idle hzero => exact .refl w
  | failed write res env =>
    exact .of_timeless (t := [_]) rfl rfl rfl rfl rfl (by simp [Event.isTimeless])
  | flushed write res env =>
    exact .of_timeless (t := [_]) rfl rfl rfl rfl rfl (by simp [Event.isTimeless])

/-- A send path that reports an error leaves the schedule alone, also for a PINGREQ. -/
theorem Sends.error_keepsSchedule {w w' : World σ} {p : Packet} {status : Status}
    (h : Sends p w (.error status) w') : KeepsSchedule w w' := by
  cases h with
  | encodeFailed =>
    exact .of_timeless (t := [_]) rfl rfl rfl rfl rfl (by simp [Event.isTimeless])
  | refused => exact .of_timeless (t := [_, _]) rfl rfl rfl rfl rfl (by simp [Event.isTimeless])
  | failed => exact .of_timeless (t := [_, _]) rfl rfl rfl rfl rfl (by simp [Event.isTimeless])

/-- A send path for anything but a PINGREQ. -/
theorem Sends.keepsSchedule {w w' : World σ} {p : Packet} {r : Except Status Unit}
    (h : Sends p w r w') (hp : p ≠ .pingreq) : KeepsSchedule w w' := by
  cases r with
  | error status => exact h.error_keepsSchedule
  | ok u =>
    cases h with
    | sent =>
      exact .of_timeless (t := [_, _, _]) rfl rfl rfl rfl rfl (by simp [Event.isTimeless, hp])

/-- `aemlib_connect` begins a connection without a beat; refused, it leaves the beats alone. -/
theorem connect_keepsSchedule {w w' : World σ} {r : Except Status Unit}
    (h : connect w = .ok (r, w')) : KeepsSchedule w w' := by
  rw [connect_eq] at h
  split at h
  · next hstate =>
    cases h
    refine ⟨rfl, ⟨[_], rfl, by simp⟩, fun _ hw => ?_⟩
    rw [hstate]
    refine ⟨hw.stamp, ?_⟩
    rw [timing_connectCall]
    exact ⟨rfl, rfl, rfl⟩
  · next hstate =>
    cases h
    -- refused, and still the bytes received are dropped
    refine ⟨rfl, ⟨[_], rfl, by simp⟩, fun _ hw => ?_⟩
    refine ⟨?_, ?_⟩
    · rw [timing_connectRefused _ _ _ hstate]
      exact hw.stamp
    · rw [timing_connectRefused _ _ _ hstate]
      exact hw.phase.emptied

theorem disconnect_keepsSchedule {w w' : World σ} {r : Except Status Unit}
    (h : disconnect w = .ok (r, w')) : KeepsSchedule w w' := by
  rw [disconnect_eq] at h
  split at h
  · next hstate =>
    cases h
    refine ⟨rfl, ⟨[], rfl, by simp⟩, fun _ hw => ⟨hw.stamp, ?_⟩⟩
    have hphase := hw.phase
    rw [hstate] at hphase
    exact hphase
  · cases h
    exact .refl w

theorem Posts.keepsSchedule {w w' : World σ} {r : Except Status Unit} (h : Posts w r w') :
    KeepsSchedule w w' := by
  cases h with
  | unsupported => exact .refl w
  | attempted p id r w' hconnect hping hsends =>
    have hid : KeepsSchedule w ⟨{ w.client with packetId := id }, w.env, w.trace⟩ :=
      .of_timeless (t := []) rfl rfl rfl rfl rfl (by simp)
    exact hid.trans (hsends.keepsSchedule hping)

theorem request_keepsSchedule {w w' : World σ} {q : Request} {r : Except Status Unit}
    (hs : w.client.Sound) (h : request q w = .ok (r, w')) : KeepsSchedule w w' := by
  cases q with
  | connect => exact connect_keepsSchedule h
  | disconnect => exact disconnect_keepsSchedule h
  | publish topic payload qos => exact (request_posts hs rfl h).keepsSchedule
  | subscribe topic qos => exact (request_posts hs rfl h).keepsSchedule

/-! ## Opening and waiting -/

/-- An equipped client reads its clock. -/
theorem exists_readClock {w : World σ} (hv : w.client.Equipped) :
    ∃ ms env, w.readClock = (ms, ⟨w.client, env, .now ms :: w.trace⟩) := by
  obtain ⟨f, hf⟩ := Option.isSome_iff_exists.mp hv.2
  refine ⟨(f w.env).1, (f w.env).2, ?_⟩
  unfold World.readClock
  rw [hf]

/-- An equipped client notes the time. -/
theorem exists_stamped {w : World σ} (hv : w.client.Equipped) :
    ∃ ms env, w.stamped = ⟨{ w.client with lastActivityMs := ms }, env, .now ms :: w.trace⟩ := by
  obtain ⟨ms, env, hclock⟩ := exists_readClock hv
  refine ⟨ms, env, ?_⟩
  unfold World.stamped
  rw [hclock]

/-- Giving up leaves the beats as they are, whatever becomes of the bytes held. -/
theorem dropped_keepsSchedule {w : World σ} {c : Client σ} (close : σ → Status × σ)
    (hsetup : c.setup = w.client.setup) (hstamp : c.lastActivityMs = w.client.lastActivityMs) :
    KeepsSchedule w (World.dropped ⟨c, w.env, w.trace⟩ close) := by
  have hsize : c.rxBufferSize = w.client.rxBufferSize := congrArg Setup.rxBufferSize hsetup
  have hinterval : c.keepaliveIntervalMs = w.client.keepaliveIntervalMs :=
    congrArg Setup.keepaliveIntervalMs hsetup
  have htiming : timing c.rxBufferSize (.disconnect (close w.env).1 :: w.trace) =
      timing w.client.rxBufferSize w.trace := by
    rw [hsize]
    exact timing_timeless (t := [_]) (by simp [Event.isTimeless])
  refine ⟨hsetup, ⟨[_], rfl, by simp⟩, fun _ hw => ⟨?_, ?_⟩⟩
  · show c.lastActivityMs ≤ (timing c.rxBufferSize (.disconnect (close w.env).1 :: w.trace)).clock
    rw [htiming, hstamp]
    exact hw.stamp
  · show (timing c.rxBufferSize (.disconnect (close w.env).1 :: w.trace)).Spaced
      c.keepaliveIntervalMs.toNat
    rw [htiming, hinterval]
    exact hw.phase.spaced

/-- A reading of the clock that does not find an acceptable CONNACK, in a connection without a
beat. -/
theorem Timing.tick_of_not_accepts {τ : Timing} {size : Nat} (ms : UInt64)
    (hconnack : τ.connack = none) (h : (connackVerdict size τ.received).accepts = false) :
    τ.tick size ms = { τ with clock := ms } := by
  simp only [Timing.tick, hconnack, h, Bool.false_eq_true, if_false]

theorem Opens.keepsSchedule {w w' : World σ} {r : Except Status Unit} (hs : w.client.Sound)
    (hstate : w.client.state = .connecting) (h : Opens w r w') : KeepsSchedule w w' := by
  cases h with
  | opened open_ env hf hcall =>
    have hv : w.client.Equipped := by
      rcases hs.callbacks with hv | ⟨hnone, -⟩
      · exact hv
      · rw [hf] at hnone
        cases hnone
    obtain ⟨ms, env', hstamped⟩ := exists_stamped
      (w := ⟨{ w.client with state := .mqttConnectSent }, env, .connect statusOk :: w.trace⟩) hv
    rw [hstamped]
    refine ⟨rfl, ⟨[_, _], rfl, by simp⟩, fun _ hw => ?_⟩
    have hphase := hw.phase
    rw [hstate] at hphase
    obtain ⟨hheld, hreceived, hbeats⟩ := hphase
    -- nothing has been received yet, so this reading of the clock is not that of a CONNACK
    have htiming : timing w.client.rxBufferSize (.now ms :: .connect statusOk :: w.trace) =
        { timing w.client.rxBufferSize w.trace with clock := ms } := by
      refine Timing.tick_of_not_accepts (τ := timing w.client.rxBufferSize w.trace) ms
        (Timing.beats_eq_nil hbeats).2 ?_
      rw [hreceived, hheld]
      rfl
    refine ⟨?_, ?_⟩
    · show ms ≤ (timing w.client.rxBufferSize (.now ms :: .connect statusOk :: w.trace)).clock
      rw [htiming]
      exact Nat.le_refl _
    · show Timing.Phase (timing w.client.rxBufferSize (.now ms :: .connect statusOk :: w.trace)) _ _
        w.client.held .mqttConnectSent
      rw [htiming]
      exact ⟨hreceived, hbeats⟩
  | blocked open_ status env =>
    exact .of_timeless (t := [_]) rfl rfl rfl rfl rfl (by simp [Event.isTimeless])
  | failed open_ status env =>
    refine ⟨rfl, ⟨[_], rfl, by simp⟩, fun _ hw => ⟨hw.stamp, hw.phase.spaced⟩⟩
  | missing hf => exact ⟨rfl, ⟨[], rfl, by simp⟩, fun _ hw => ⟨hw.stamp, hw.phase.spaced⟩⟩

/-- The bytes read in the CONNACK wait are held. -/
theorem afterRead_keepsSchedule {w : World σ} (res : ReadResult) (env : σ) (hs : w.client.Sound)
    (hstate : w.client.state = .mqttConnectSent) : KeepsSchedule w (w.afterRead res env) := by
  refine ⟨rfl, ⟨[_], rfl, by simp⟩, fun _ hw => ⟨hw.stamp, ?_⟩⟩
  have hphase := hw.phase
  rw [hstate] at hphase
  obtain ⟨hreceived, hbeats⟩ := hphase
  show Timing.Phase _ _ _ (w.client.received res).held w.client.state
  rw [hstate, hs.held_received]
  refine ⟨?_, hbeats⟩
  show (timing w.client.rxBufferSize w.trace).received ++ res.taken = w.client.held ++ res.taken
  rw [hreceived]

/-- Looking at the clock while the CONNACK is incomplete. -/
theorem readClock_keepsSchedule {w : World σ} (hv : w.client.Equipped)
    (hstate : w.client.state = .mqttConnectSent)
    (hwait : connackVerdict w.client.rxBufferSize w.client.held = .wait) :
    KeepsSchedule w w.readClock.2 := by
  obtain ⟨ms, env, hclock⟩ := exists_readClock hv
  rw [hclock]
  refine ⟨rfl, ⟨[_], rfl, by simp⟩, fun honward hw => ?_⟩
  have hphase := hw.phase
  rw [hstate] at hphase
  obtain ⟨hreceived, hbeats⟩ := hphase
  -- what was received is no CONNACK yet, so the reading is not a beat
  have htiming : timing w.client.rxBufferSize (.now ms :: w.trace) =
      { timing w.client.rxBufferSize w.trace with clock := ms } := by
    rw [timing_now]
    apply Timing.tick_of_not_accepts ms (Timing.beats_eq_nil hbeats).2
    rw [hreceived, hwait]
    rfl
  have hle := honward.le w.client.rxBufferSize
  refine ⟨?_, ?_⟩
  · show w.client.lastActivityMs ≤ (timing w.client.rxBufferSize (.now ms :: w.trace)).clock
    rw [htiming]
    exact UInt64.le_trans hw.stamp hle
  · show Timing.Phase (timing w.client.rxBufferSize (.now ms :: w.trace)) _ _ w.client.held
      w.client.state
    rw [htiming, hstate]
    exact ⟨hreceived, hbeats⟩

/-- Accepting the CONNACK is the first beat. -/
theorem accepted_keepsSchedule {w : World σ} {n : Nat} (hv : w.client.Equipped)
    (hstate : w.client.state = .mqttConnectSent)
    (haccept : connackVerdict w.client.rxBufferSize w.client.held = .accept n) :
    KeepsSchedule w (World.stamped
      ⟨{ w.client.consumed n with state := .mqttConnected }, w.env, w.trace⟩) := by
  obtain ⟨ms, env, hstamped⟩ := exists_stamped
    (w := ⟨{ w.client.consumed n with state := .mqttConnected }, w.env, w.trace⟩) hv
  rw [hstamped]
  refine ⟨rfl, ⟨[_], rfl, by simp⟩, fun _ hw => ?_⟩
  have hphase := hw.phase
  rw [hstate] at hphase
  obtain ⟨hreceived, hbeats⟩ := hphase
  obtain ⟨hpings, hnone⟩ := Timing.beats_eq_nil hbeats
  -- the reading behind the CONNACK is the one the timer starts from
  have htiming : timing w.client.rxBufferSize (.now ms :: w.trace) =
      { timing w.client.rxBufferSize w.trace with clock := ms, connack := some ms } := by
    rw [timing_now]
    simp only [Timing.tick, hnone, hreceived, haccept, Verdict.accepts, if_true]
  refine ⟨?_, ?_⟩
  · show ms ≤ (timing w.client.rxBufferSize (.now ms :: w.trace)).clock
    rw [htiming]
    exact UInt64.le_refl ms
  · show Timing.Phase (timing w.client.rxBufferSize (.now ms :: w.trace)) _ ms _ .mqttConnected
    rw [htiming]
    refine ⟨⟨fun _ => rfl, ?_⟩, rfl, ?_⟩
    · show ((timing w.client.rxBufferSize w.trace).pings ++ [ms]).IsChain _
      rw [hpings]
      exact .singleton ms
    · show ((timing w.client.rxBufferSize w.trace).pings ++ [ms]).head? = some ms
      rw [hpings]
      rfl

/-- A turn of the CONNACK wait. -/
theorem Waits.keepsSchedule {w w' : World σ} {close : σ → Status × σ} {res : ReadResult}
    {r : Except Status Unit} (hv : w.client.Equipped)
    (hstate : w.client.state = .mqttConnectSent) (h : Waits w close res r w') :
    KeepsSchedule w w' := by
  cases h with
  -- every way out of the wait but the CONNACK's own gives up or only looks at the clock
  | failed hres => exact dropped_keepsSchedule close rfl rfl
  | rejected status w' hres hreject hw' =>
    obtain ⟨c, hc, rfl⟩ := hw'
    rcases hc with rfl | ⟨n, -, rfl⟩
    · exact dropped_keepsSchedule close rfl rfl
    · exact dropped_keepsSchedule close rfl rfl
  | accepted n hres haccept hn => exact accepted_keepsSchedule hv hstate haccept
  | timedOut hres hwait hlate =>
    exact (readClock_keepsSchedule hv hstate hwait).trans (dropped_keepsSchedule close rfl rfl)
  | waiting hres hwait hearly => exact readClock_keepsSchedule hv hstate hwait

theorem corePoll_keepsSchedule {w w' : World σ} {r : Except Status Unit} (hs : w.client.Sound)
    (h : Core.poll w = .ok (r, w')) : KeepsSchedule w w' := by
  cases corePoll_turn hs h with
  | idle hstate => exact .refl w
  | opens r w' hstate hopens => exact hopens.keepsSchedule hs hstate
  | waits r w' close res env hstate hfits hwaits =>
    have hv : w.client.Equipped := hs.equipped (by rw [hstate]; decide) (by rw [hstate]; decide)
    exact (afterRead_keepsSchedule res env hs hstate).trans (hwaits.keepsSchedule hv hstate)
  | closes close hstate => exact dropped_keepsSchedule close rfl rfl

theorem pollConnectSent_keepsSchedule {w w' : World σ} {r : Except Status Unit}
    (hs : w.client.Sound) (h : pollConnectSent w = .ok (r, w')) : KeepsSchedule w w' := by
  have hnot : w.client.connectPacket ≠ .pingreq := by simp [Client.connectPacket]
  cases pollConnectSent_introduces hs h with
  | already hsent => exact .refl w
  | failed status w' _ hsends => exact hsends.keepsSchedule hnot
  | sent w₁ _ hsends =>
    exact (hsends.keepsSchedule hnot).trans
      (.of_timeless (t := []) rfl rfl rfl rfl rfl (by simp))

/-! ## Reading and pinging -/

def Event.isDelivery : Event → Bool
  | .read _ _ | .message _ _ => true
  | _ => false

/-- Code that touches `rx_buffer` and nothing else, and tells messages. -/
structure Listens (w w' : World σ) : Prop where
  setup : w'.client.setup = w.client.setup
  state : w'.client.state = w.client.state
  stamp : w'.client.lastActivityMs = w.client.lastActivityMs
  trace : ∃ t, w'.trace = t ++ w.trace ∧ ∀ e ∈ t, e.isDelivery = true

theorem Listens.refl (w : World σ) : Listens w w := ⟨rfl, rfl, rfl, [], rfl, by simp⟩

theorem Listens.trans {w₁ w₂ w₃ : World σ} (h₁ : Listens w₁ w₂) (h₂ : Listens w₂ w₃) :
    Listens w₁ w₃ := by
  obtain ⟨t₁, ht₁, hdel₁⟩ := h₁.trace
  obtain ⟨t₂, ht₂, hdel₂⟩ := h₂.trace
  refine ⟨h₂.setup.trans h₁.setup, h₂.state.trans h₁.state, h₂.stamp.trans h₁.stamp, t₂ ++ t₁, ?_,
    fun e he => ?_⟩
  · rw [ht₂, ht₁, List.append_assoc]
  · rcases List.mem_append.mp he with he | he
    · exact hdel₂ e he
    · exact hdel₁ e he

/-- A callback that does not call back is told a message, if there is one. -/
theorem clientDispatchPacket_listens {w w' : World σ} {header : FixedHeader}
    {r : Except Status Unit} (hs : w.client.Sound)
    (hquiet : ∀ f, w.client.onMessage = some f → f.Quiet)
    (hparse : parseHeader w.client.held = .ok header) (hn : header.packetLen ≤ w.client.rxLen)
    (h : clientDispatchPacket header header.packetLen w = .ok (r, w')) :
    w'.client = w.client ∧ Listens w w' := by
  rw [clientDispatchPacket_eq hs hparse hn] at h
  split at h
  · cases h
    exact ⟨rfl, .refl w⟩
  · next topic payload f _ hf =>
    unfold callOnMessage at h
    simp only [Prog.run_get_bind, Prog.run_set_bind, hquiet f hf w.env topic payload] at h
    cases h
    exact ⟨rfl, rfl, rfl, rfl, [_], rfl, by simp [Event.isDelivery]⟩
  · cases h
    exact ⟨rfl, .refl w⟩

theorem clientReadLoop_listens {w w' : World σ} {fuel : Nat} {r : Except Status Unit}
    (hs : w.client.Sound) (hquiet : ∀ f, w.client.onMessage = some f → f.Quiet)
    (h : clientReadLoop fuel w = .ok (r, w')) : Listens w w' := by
  induction fuel generalizing w with
  | zero => cases h
  | succ fuel ih =>
    rcases clientReadLoop_turn fuel hs with ⟨r₀, hrun, -⟩ | ⟨header, hparse, -, hn, hrun⟩
    · rw [hrun] at h
      cases h
      exact .refl _
    · rw [hrun] at h
      rcases Prog.bind_eq_ok.mp h with ⟨e, hdispatch, -⟩ | ⟨_, w₁, hdispatch, h₁⟩
      · exact (clientDispatchPacket_listens hs hquiet hparse hn hdispatch).2
      · obtain ⟨hclient, hlistens⟩ := clientDispatchPacket_listens hs hquiet hparse hn hdispatch
        have hs₁ : w₁.client.Sound := by
          rw [hclient]
          exact hs
        have hconsume := consume_eq hs₁ header.packetLen
        rw [if_pos (by rw [hclient]; exact hn)] at hconsume
        rw [Prog.bind_of_ok hconsume] at h₁
        have hrest := ih (w := ⟨w₁.client.consumed header.packetLen, w₁.env, w₁.trace⟩)
          (hs₁.consumed _) (fun f hf => hquiet f (by rw [← hclient]; exact hf)) h₁
        exact hlistens.trans ⟨hrest.setup, hrest.state, hrest.stamp, hrest.trace⟩

theorem clientRead_listens {w w' : World σ} {r : Except Status Unit} (hs : w.client.Sound)
    (hstate : w.client.state = .mqttConnected)
    (hquiet : ∀ f, w.client.onMessage = some f → f.Quiet) (h : clientRead w = .ok (r, w')) :
    Listens w w' := by
  obtain ⟨res, env, hfits, hturn⟩ := clientRead_cases hs hstate h
  have hread : Listens w (w.afterRead res env) :=
    ⟨rfl, rfl, rfl, [_], rfl, by simp [Event.isDelivery]⟩
  rcases hturn with ⟨-, -, rfl⟩ | ⟨-, hloop⟩
  · exact hread
  · exact hread.trans (clientReadLoop_listens (hs.received hfits) hquiet hloop)

/-- Deliveries change the bytes received only. -/
theorem timing_deliveries {t : List Event} (size : Nat) (past : List Event)
    (h : ∀ e ∈ t, e.isDelivery = true) :
    ∃ bytes, timing size (t ++ past) = { timing size past with received := bytes } := by
  induction t with
  | nil => exact ⟨_, rfl⟩
  | cons e t ih =>
    obtain ⟨bytes, hbytes⟩ := ih fun e' he' => h e' (List.mem_cons_of_mem e he')
    have hdel := h e List.mem_cons_self
    cases e with
    | read len res =>
      refine ⟨bytes ++ res.taken, ?_⟩
      rw [List.cons_append, timing_read, hbytes]
    | message topic payload =>
      refine ⟨bytes, ?_⟩
      rw [← hbytes]
      exact timing_timeless (t := [_]) (by simp [Event.isTimeless])
    | _ => cases hdel

theorem Listens.keepsSchedule {w w' : World σ} (h : Listens w w')
    (hstate : w.client.state = .mqttConnected) : KeepsSchedule w w' := by
  obtain ⟨t, ht, hdel⟩ := h.trace
  have hsize : w'.client.rxBufferSize = w.client.rxBufferSize :=
    congrArg Setup.rxBufferSize h.setup
  have hinterval : w'.client.keepaliveIntervalMs = w.client.keepaliveIntervalMs :=
    congrArg Setup.keepaliveIntervalMs h.setup
  obtain ⟨bytes, hbytes⟩ := timing_deliveries w.client.rxBufferSize w.trace hdel
  refine ⟨h.setup, ⟨t, ht, fun hmem => ?_⟩, fun _ hw => ?_⟩
  · cases hdel _ hmem
  · have hphase := hw.phase
    rw [hstate] at hphase
    obtain ⟨hspaced, hanswered, hlast⟩ := hphase
    refine ⟨?_, ?_⟩
    · rw [hsize, ht, hbytes, h.stamp]
      exact hw.stamp
    · rw [hsize, hinterval, ht, hbytes, h.stamp, h.state, hstate]
      exact ⟨⟨hspaced.answered, hspaced.chain⟩, hanswered, hlast⟩

/-- The subtraction of the keepalive does not wrap, and so it measures the time that has passed. -/
theorem due_iff {now stamp interval : UInt64} (h : stamp ≤ now) :
    now - stamp ≥ interval ↔ Apart interval.toNat now stamp := by
  have hle : stamp.toNat ≤ now.toNat := UInt64.le_iff_toNat_le.mp h
  rw [ge_iff_le, UInt64.le_iff_toNat_le, UInt64.toNat_sub_of_le _ _ h, Apart]
  omega

/-- With the CONNACK accepted, a reading of the clock is just that. -/
theorem Timing.tick_of_answered {τ : Timing} (size : Nat) (ms : UInt64) (h : τ.connack.isSome) :
    τ.tick size ms = { τ with clock := ms } := by
  obtain ⟨at_, hat⟩ := Option.isSome_iff_exists.mp h
  simp only [Timing.tick, hat]

/-- An established connection looks at the clock. -/
theorem clock_keepsSchedule {w : World σ} (ms : UInt64) (env : σ)
    (hstate : w.client.state = .mqttConnected) :
    KeepsSchedule w ⟨w.client, env, .now ms :: w.trace⟩ := by
  refine ⟨rfl, ⟨[_], rfl, by simp⟩, fun honward hw => ?_⟩
  have hphase := hw.phase
  rw [hstate] at hphase
  obtain ⟨hspaced, hanswered, hlast⟩ := hphase
  have htick : timing w.client.rxBufferSize (.now ms :: w.trace) =
      { timing w.client.rxBufferSize w.trace with clock := ms } :=
    Timing.tick_of_answered w.client.rxBufferSize ms hanswered
  refine ⟨UInt64.le_trans hw.stamp (honward.le w.client.rxBufferSize), ?_⟩
  show Timing.Phase (timing w.client.rxBufferSize (.now ms :: w.trace)) _ _ _ w.client.state
  rw [htick, hstate]
  exact ⟨⟨hspaced.answered, hspaced.chain⟩, hanswered, hlast⟩

/-- **The keepalive keeps the schedule**: a PINGREQ is a beat, an interval or more after the last
one. -/
theorem Beats.keepsSchedule {w w' : World σ} {r : Except Status Unit} (hv : w.client.Equipped)
    (hstate : w.client.state = .mqttConnected) (h : Beats w r w') : KeepsSchedule w w' := by
  obtain ⟨ms, env, hread⟩ := exists_readClock hv
  have hclock := clock_keepsSchedule ms env hstate
  cases h with
  | early hearly =>
    rw [hread]
    exact hclock
  | failed status w' hsends =>
    rw [hread] at hsends
    exact hclock.trans hsends.error_keepsSchedule
  | pinged w₁ hdue hsends =>
    rw [hread] at hdue hsends
    rw [hread]
    cases hsends with
    | sent buf write res env' hlen hfits hzero hf hcall hres hstaged =>
      refine ⟨rfl, ⟨[_, _, _, _], rfl, by simp⟩, fun honward hw => ?_⟩
      have hphase := hw.phase
      rw [hstate] at hphase
      obtain ⟨hspaced, hanswered, hlast⟩ := hphase
      -- the clock has run on since the time noted, so the subtraction was one of naturals
      have honward' : ClockOnward (.now ms :: w.trace) :=
        ClockOnward.past (t := [_, _, _]) honward (by simp)
      have hle := UInt64.le_trans hw.stamp (honward'.le w.client.rxBufferSize)
      have hapart := (due_iff hle).mp hdue
      refine ⟨UInt64.le_refl ms, ?_⟩
      show Timing.Phase (timing w.client.rxBufferSize _) _ ms _ w.client.state
      rw [timing_ping, Timing.tick_of_answered _ _ hanswered, hstate]
      refine ⟨⟨fun _ => hanswered, ?_⟩, hanswered, rfl⟩
      -- the beat before it is the time noted
      show (ms :: (timing w.client.rxBufferSize w.trace).beats).IsChain _
      rw [List.isChain_cons]
      refine ⟨fun last hmem => ?_, hspaced.chain⟩
      cases hlast.symm.trans hmem
      exact hapart

/-- What a poll does with a connected client. -/
theorem readAndKeepalive_keepsSchedule {w w' : World σ} {r : Except Status Unit}
    (hs : w.client.Sound) (hstate : w.client.state = .mqttConnected)
    (hquiet : ∀ f, w.client.onMessage = some f → f.Quiet)
    (h : (clientRead >>= fun _ => keepalive) w = .ok (r, w')) : KeepsSchedule w w' := by
  rcases Prog.bind_eq_ok.mp h with ⟨e, hread, -⟩ | ⟨_, w₁, hread, hkeep⟩
  · exact (clientRead_listens hs hstate hquiet hread).keepsSchedule hstate
  · have hlistens := clientRead_listens hs hstate hquiet hread
    have hs₁ := (clientRead_refines hs hstate hread).1.sound
    have hstate₁ := hlistens.state.trans hstate
    have hv : w₁.client.Equipped :=
      hs₁.equipped (by rw [hstate₁]; decide) (by rw [hstate₁]; decide)
    exact (hlistens.keepsSchedule hstate).trans
      ((keepalive_beats hs₁ hkeep).keepsSchedule hv hstate₁)

/-! ## Runs -/

theorem poll_keepsSchedule {w w' : World σ} {r : Except Status Unit} (hs : w.client.Sound)
    (hquiet : ∀ f, w.client.onMessage = some f → f.Quiet) (h : poll w = .ok (r, w')) :
    KeepsSchedule w w' := by
  rcases poll_cases h with ⟨e, hflush, -⟩ | ⟨w₁, hflush, h₁⟩
  · exact (clientFlushPending_flushes hs hflush).keepsSchedule
  · have hflushes := clientFlushPending_flushes hs hflush
    have href₁ := hflushes.refines hs
    rcases h₁ with ⟨e, hcore, -⟩ | ⟨w₂, hcore, h₂⟩
    · exact hflushes.keepsSchedule.trans (corePoll_keepsSchedule href₁.sound hcore)
    · have href₂ := href₁.trans (corePoll_refines href₁.sound hcore)
      have hkeeps := hflushes.keepsSchedule.trans (corePoll_keepsSchedule href₁.sound hcore)
      rcases h₂ with ⟨hstate, h₃⟩ | ⟨hstate, h₃⟩ | ⟨-, -, -, rfl⟩
      · exact hkeeps.trans (pollConnectSent_keepsSchedule href₂.sound h₃)
      · refine hkeeps.trans (readAndKeepalive_keepsSchedule href₂.sound hstate (fun f hf => ?_) h₃)
        exact hquiet f ((congrArg Setup.onMessage href₂.setup).symm.trans hf)
      · exact hkeeps

/-- A client that `aemlib_init` has started over is on schedule. -/
theorem Inits.onSchedule {config : Option (Config σ)} {w w' : World σ} {r : Except Status Unit}
    (h : Inits w config r w') : w'.OnSchedule := by
  cases h with
  | failed => exact ⟨UInt64.le_refl 0, Timing.spaced_of_beats _ rfl⟩
  | ok cfg hs =>
    unfold World.stamped World.readClock
    cases cfg.client.nowMs with
    | none => exact ⟨UInt64.le_refl 0, Timing.spaced_of_beats _ rfl⟩
    | some f => exact ⟨UInt64.le_refl _, Timing.spaced_of_beats _ rfl⟩

/-- A client whose callback only listens is on schedule, unless the clock has run backwards. -/
def World.Punctual (w : World σ) : Prop :=
  (∀ f, w.client.onMessage = some f → f.Quiet) → ClockOnward w.trace → w.OnSchedule

theorem KeepsSchedule.punctual {w w' : World σ} (h : KeepsSchedule w w') (hw : w.Punctual) :
    w'.Punctual := by
  intro hquiet honward
  obtain ⟨t, ht, hinit⟩ := h.trace
  refine h.schedule honward (hw (fun f hf => ?_) ?_)
  · exact hquiet f ((congrArg Setup.onMessage h.setup).trans hf)
  · rw [ht] at honward
    exact honward.past hinit

theorem call_punctual {w w' : World σ} {c : Call σ} {r : Except Status Unit} (hs : w.client.Sound)
    (hw : w.Punctual) (h : call c w = .ok (r, w')) : w'.Punctual := by
  cases c with
  | init config =>
    obtain ⟨r', w'', hrun, hinits⟩ := init_returns config w
    have h' : init config w = .ok (r, w') := h
    rw [hrun] at h'
    cases h'
    exact fun _ _ => hinits.onSchedule
  | request q => exact (request_keepsSchedule hs h).punctual hw
  | poll =>
    intro hquiet
    have hsetup := (poll_refines hs h).setup
    refine (poll_keepsSchedule hs (fun f hf => ?_) h).punctual hw hquiet
    exact hquiet f ((congrArg Setup.onMessage hsetup).trans hf)

theorem Reachable.punctual {w : World σ} (h : Reachable w) : w.Punctual := by
  obtain ⟨config, w₀, w₁, calls, hinit, hrun⟩ := h
  obtain ⟨r', w₁', hinit', hinits⟩ := init_returns config w₀
  rw [hinit'] at hinit
  cases hinit
  refine (Prog.forAll_invariant (P := fun v => v.client.Sound ∧ v.Punctual)
    ⟨hinits.refines.1, fun _ _ => hinits.onSchedule⟩ (fun c _ v r v' hv hcall => ?_) hrun).2
  exact ⟨(call_refines hv.1 hcall).1, call_punctual hv.1 hv.2 hcall⟩

/-- A keepalive that goes well leaves less than an interval since the last beat. -/
theorem Beats.onTime {w w' : World σ} (hv : w.client.Equipped)
    (hinterval : 1 ≤ w.client.keepaliveIntervalMs) (h : Beats w (.ok ()) w') :
    clockAt (sinceInit w'.trace) - w'.client.lastActivityMs < w'.client.keepaliveIntervalMs := by
  obtain ⟨ms, env, hread⟩ := exists_readClock hv
  cases h with
  | early hearly =>
    rw [hread] at hearly ⊢
    exact UInt64.not_le.mp hearly
  | pinged w₁ hdue hsends =>
    rw [hread] at hsends ⊢
    cases hsends with
    | sent buf write res env' hlen hfits hzero hf hcall hres hstaged =>
      show ms - ms < w.client.keepaliveIntervalMs
      rw [UInt64.sub_self]
      exact UInt64.lt_of_lt_of_le (by decide) hinterval

/-- A poll that goes well and ends connected has come to the keepalive. -/
theorem poll_beats {w w' : World σ} (hs : w.client.Sound) (h : poll w = .ok (.ok (), w'))
    (hstate : w'.client.state = .mqttConnected) :
    ∃ v : World σ, v.client.setup = w.client.setup ∧ v.client.Equipped ∧ Beats v (.ok ()) w' := by
  rcases poll_cases h with ⟨e, -, hr⟩ | ⟨w₁, hflush, h₁⟩
  · cases hr
  · have href₁ := (clientFlushPending_flushes hs hflush).refines hs
    rcases h₁ with ⟨e, -, hr⟩ | ⟨w₂, hcore, h₂⟩
    · cases hr
    · have href₂ := href₁.trans (corePoll_refines href₁.sound hcore)
      rcases h₂ with ⟨hsent, h₃⟩ | ⟨hconnected, h₃⟩ | ⟨-, hne, -, rfl⟩
      · rw [(pollConnectSent_aside href₂.sound h₃).state, hsent] at hstate
        cases hstate
      · rcases Prog.bind_eq_ok.mp h₃ with ⟨e, -, hr⟩ | ⟨_, w₃, hread, hkeep⟩
        · cases hr
        · obtain ⟨href₃, hest⟩ := clientRead_refines href₂.sound hconnected hread
          refine ⟨w₃, href₃.setup.trans href₂.setup, ?_, keepalive_beats href₃.sound hkeep⟩
          refine href₃.sound.equipped ?_ ?_
          · rcases hest with hest | hest <;> simp [show w₃.client.state = _ from hest]
          · rcases hest with hest | hest <;> simp [show w₃.client.state = _ from hest]
      · exact absurd hstate hne

/-- **The keepalive schedule.** In every run whose clock has not run backwards, with a callback that
does not call back and a keepalive interval that is not 0: the PINGREQs of a connection come behind
the accepted CONNACK; the clock readings of the CONNACK and of the PINGREQs are at least an interval
apart; while the connection stands the time noted is the last of these, and it is never ahead of the
clock; and a poll that reports OK and leaves the client connected leaves less than an interval
between the two. -/
theorem keepalive_schedule {w : World σ} (h : Reachable w) (hclock : ClockOnward w.trace)
    (hinterval : 1 ≤ w.client.keepaliveIntervalMs)
    (hquiet : ∀ f, w.client.onMessage = some f → f.Quiet) :
    (pingTimes w.connection ≠ [] → (connackAt w.client.rxBufferSize w.connection).isSome) ∧
      (beats w.client.rxBufferSize w.connection).IsChain
        (Apart w.client.keepaliveIntervalMs.toNat) ∧
      (w.client.state = .mqttConnected →
        (beats w.client.rxBufferSize w.connection).head? = some w.client.lastActivityMs) ∧
      w.client.lastActivityMs ≤ clockAt (sinceInit w.trace) ∧
      ∀ w₀, Reachable w₀ → poll w₀ = .ok (.ok (), w) → w.client.state = .mqttConnected →
        clockAt (sinceInit w.trace) - w.client.lastActivityMs < w.client.keepaliveIntervalMs := by
  have hw := h.punctual hquiet hclock
  have hspaced := hw.phase.spaced
  refine ⟨hspaced.answered, hspaced.chain, fun hstate => ?_, hw.stamp, fun w₀ hr hpoll hstate => ?_⟩
  · have hphase := hw.phase
    rw [hstate] at hphase
    exact hphase.2.2
  · obtain ⟨v, hsetup, hv, hbeats⟩ := poll_beats hr.sound hpoll hstate
    have hsame : v.client.keepaliveIntervalMs = w.client.keepaliveIntervalMs :=
      congrArg Setup.keepaliveIntervalMs (hsetup.trans (poll_refines hr.sound hpoll).setup.symm)
    exact hbeats.onTime hv (by rw [hsame]; exact hinterval)

/-- A CONNACK at 10 ms and polls around the two times at which a PINGREQ is due. -/
theorem keepalive_schedule_two_pings :
    ∃ w w' : World Script, Reachable w ∧ poll w = .ok (.ok (), w') ∧
      beats 64 w'.connection = [120010, 60010, 10] ∧
      [120010, 60010, 10].IsChain (Apart 60000) ∧
      clockAt (sinceInit w'.trace) - w'.client.lastActivityMs < 60000 := by
  obtain ⟨w, hr, hsetup, r, w', hpoll, rfl, hstate, hclock, hbeats⟩ := exists_reachable
    (P := fun w => poll.Returns w fun r w' => r = .ok () ∧ w'.client.state = .mqttConnected ∧
      ClockOnward w'.trace ∧ beats 64 w'.connection = [120010, 60010, 10])
    (Script.config 64 64 60000 (some Script.listen))
    ⟨[], [⟨statusOk, [0x20, 2, 0, 0]⟩], [], [0, 0, 10, 10, 60009, 60010, 120009, 120010]⟩
    (.request .connect :: List.replicate 5 .poll) (by decide) (by decide +kernel)
  have hsetup' := (poll_refines hr.sound hpoll).setup.trans hsetup
  have hinterval : w'.client.keepaliveIntervalMs = 60000 :=
    congrArg Setup.keepaliveIntervalMs hsetup'
  have hsize : w'.client.rxBufferSize = 64 := congrArg Setup.rxBufferSize hsetup'
  obtain ⟨-, hchain, -, -, hontime⟩ := keepalive_schedule (hr.call (c := .poll) hpoll) hclock
    (by rw [hinterval]; decide) (by
      intro f hf
      cases (congrArg Setup.onMessage hsetup').symm.trans hf
      exact fun _ _ _ => rfl)
  rw [hsize, hbeats, hinterval] at hchain
  rw [hinterval] at hontime
  exact ⟨w, w', hr, hpoll, hbeats, hchain, hontime w hr hpoll hstate⟩

/-! ## What the broker is told -/

/-- The keepalive of a CONNECT, in seconds: the two bytes behind the fixed header, the protocol's
name and level, and the flags. -/
def advertisedKeepalive (packet : List UInt8) : Nat := readUint16Be (packet.drop 10)

/-- A keepalive of `seconds` covers pings that are `ms` milliseconds apart. A broker waits for one
and a half times the keepalive; a keepalive of 0, at which it waits forever, is for intervals of
less than a second. -/
def Covers (seconds ms : Nat) : Prop :=
  (seconds ≠ 0 → ms ≤ 1500 * seconds) ∧ (seconds = 0 → ms < 1000)

instance (seconds ms : Nat) : Decidable (Covers seconds ms) :=
  inferInstanceAs (Decidable (_ ∧ _))

/-- The interval goes out in whole seconds, and in 16 bits. -/
theorem advertisedKeepalive_connectPacket (c : Client σ) :
    advertisedKeepalive c.connectPacket.bytes = c.keepaliveIntervalMs.toNat / 1000 % 65536 := by
  have hbody : c.connectPacket.body.length = 12 := rfl
  have hdrop : c.connectPacket.bytes.drop 10 =
      uint16Be (c.keepaliveIntervalMs / 1000).toUInt16.toNat ++ lengthPrefixed [] := by
    rw [bytes_eq (by rw [hbody]; decide), hbody, show Varint.encode 4 12 = [12] by decide]
    rfl
  rw [advertisedKeepalive, hdrop, readUint16Be_uint16Be, UInt64.toNat_toUInt16, UInt64.toNat_div,
    show (1000 : UInt64).toNat = 1000 from rfl, Nat.mod_mod]

/-- Cut to seconds and to 16 bits, an interval is covered unless it lies between one and a half and
two seconds or does not fit. -/
theorem covers_iff (ms : Nat) :
    Covers (ms / 1000 % 65536) ms ↔ ms ≤ 1500 ∨ 2000 ≤ ms ∧ ms < 65536000 := by
  unfold Covers
  omega

/-- The one thing a send path hands to the transport is its packet. -/
theorem Sends.written {w w' : World σ} {p : Packet} {r : Except Status Unit} {t : List Event}
    {data : List UInt8} {res : WriteResult} (h : Sends p w r w') (ht : w'.trace = t ++ w.trace)
    (hmem : .write data res ∈ t) : data = p.bytes := by
  have hcut : ∀ {s : List Event}, s ++ w.trace = t ++ w.trace → s = t :=
    fun heq => List.append_cancel_right heq
  cases h with
  | encodeFailed =>
    rw [← hcut (s := [_]) ht] at hmem
    simp at hmem
  | refused =>
    rw [← hcut (s := [_, _]) ht] at hmem
    simp at hmem
  | failed =>
    rw [← hcut (s := [_, _]) ht] at hmem
    simp at hmem
    exact hmem.1
  | sent =>
    rw [← hcut (s := [_, _, _]) ht] at hmem
    simp at hmem
    exact hmem.1

/-- **When the keepalive that is advertised covers the one that is kept.** Whatever the interval of
a client, the keepalive in the CONNECT that `client_send_connect` hands to the transport covers it
exactly when it is at most one and a half seconds, or at least two and short enough for 16 bits of
seconds. -/
theorem advertised_covers_iff {w w' : World σ} {r : Except Status Unit} {t : List Event}
    {data : List UInt8} {res : WriteResult} (hs : w.client.Sound)
    (h : clientSendConnect w = .ok (r, w')) (ht : w'.trace = t ++ w.trace)
    (hwrite : .write data res ∈ t) :
    Covers (advertisedKeepalive data) w.client.keepaliveIntervalMs.toNat ↔
      w.client.keepaliveIntervalMs.toNat ≤ 1500 ∨
        2000 ≤ w.client.keepaliveIntervalMs.toNat ∧
          w.client.keepaliveIntervalMs.toNat < 65536000 := by
  have hsends : Sends w.client.connectPacket w r w' := encodeAndSend_sends hs h
  rw [hsends.written ht hwrite, advertisedKeepalive_connectPacket]
  exact covers_iff _

def helloBytes (hi lo : UInt8) : List UInt8 :=
  [0x10, 12, 0, 4, 0x4D, 0x51, 0x54, 0x54, 4, 2, hi, lo, 0, 0]

/-- `client_send_connect` hands over the CONNECT for `seconds`, in bytes `hi` and `lo`. -/
abbrev Greets (hi lo : UInt8) (seconds : UInt16) (w : World σ) : Prop :=
  clientSendConnect.Returns w fun r w' => r = .ok () ∧
    w'.trace = [.sent (.connect [] seconds), .write (helloBytes hi lo) ⟨statusOk, 14⟩,
      .encode w.client.state 0 (.connect [] seconds)] ++ w.trace

/-- A minute. -/
theorem advertised_covers_iff_minute :
    ∃ w w' : World Script, ∃ t, Reachable w ∧ w.client.keepaliveIntervalMs = 60000 ∧
      clientSendConnect w = .ok (.ok (), w') ∧ w'.trace = t ++ w.trace ∧
      .write (helloBytes 0 60) ⟨statusOk, 14⟩ ∈ t ∧
      Covers (advertisedKeepalive (helloBytes 0 60)) 60000 := by
  obtain ⟨w, hr, hsetup, r, w', hrun, rfl, ht⟩ := exists_reachable (P := Greets 0 60 60)
    (Script.config 64 64 60000 none) ⟨[], [], [], []⟩ [.request .connect] (by decide)
    (by decide +kernel)
  have hinterval : w.client.keepaliveIntervalMs = 60000 :=
    congrArg Setup.keepaliveIntervalMs hsetup
  have hmem := List.mem_cons_of_mem (.sent (.connect [] 60))
    (List.mem_cons_self (a := Event.write (helloBytes 0 60) ⟨statusOk, 14⟩)
      (l := [.encode w.client.state 0 (.connect [] 60)]))
  have hiff := advertised_covers_iff hr.sound hrun ht hmem
  rw [hinterval] at hiff
  exact ⟨w, w', _, hr, hinterval, hrun, ht, hmem, hiff.mpr (by decide)⟩

/-- Just under two seconds are advertised as one, and the broker may give up half a second before
the PINGREQ. -/
theorem advertised_short :
    ∃ w w' : World Script, ∃ t, Reachable w ∧ w.client.keepaliveIntervalMs = 1999 ∧
      clientSendConnect w = .ok (.ok (), w') ∧ w'.trace = t ++ w.trace ∧
      .write (helloBytes 0 1) ⟨statusOk, 14⟩ ∈ t ∧
      ¬ Covers (advertisedKeepalive (helloBytes 0 1)) 1999 := by
  obtain ⟨w, hr, hsetup, r, w', hrun, rfl, ht⟩ := exists_reachable (P := Greets 0 1 1)
    (Script.config 64 64 1999 none) ⟨[], [], [], []⟩ [.request .connect] (by decide)
    (by decide +kernel)
  exact ⟨w, w', _, hr, congrArg Setup.keepaliveIntervalMs hsetup, hrun, ht,
    List.mem_cons_of_mem _ List.mem_cons_self, by decide⟩

end Aemlib
