import Aemlib.Behaviour.Inbound
import Aemlib.Environment

/-!
# The state machine, transition by transition

The five states of a client and what each call of the API can do to them. The table is exact: a
transition outside of it is made by no client in any environment, and every transition in it is made
by some client (`transitions_exact`).

What the table says of a standing connection is worth spelling out for runs. No error of a poll ends
it: whatever the transport reports, a client that is `MQTT_CONNECTED` stays so until somebody calls
`aemlib_disconnect` (`connected_stays`).
-/

namespace Aemlib

open Machine Proto

variable {σ : Type}

/-! ## The table -/

/-- The calls, without their arguments. `aemlib_publish` and `aemlib_subscribe` are one kind. -/
inductive Kind where
  | init
  | connect
  | disconnect
  | send
  | poll
  deriving DecidableEq, Repr

def Request.kind : Request → Kind
  | .connect => .connect
  | .disconnect => .disconnect
  | .publish _ _ _ | .subscribe _ _ => .send

def Call.kind : Call σ → Kind
  | .init _ => .init
  | .request q => q.kind
  | .poll => .poll

structure Transition where
  kind : Kind
  before : State
  ok : Bool
  after : State
  deriving DecidableEq, Repr

def pollTransitions : List Transition :=
  [⟨.poll, .disconnected, true, .disconnected⟩,
    ⟨.poll, .disconnected, false, .disconnected⟩,
    ⟨.poll, .connecting, true, .connecting⟩,
    ⟨.poll, .connecting, false, .connecting⟩,
    ⟨.poll, .connecting, true, .mqttConnectSent⟩,
    ⟨.poll, .connecting, false, .mqttConnectSent⟩,
    ⟨.poll, .connecting, false, .disconnected⟩,
    ⟨.poll, .mqttConnectSent, true, .mqttConnectSent⟩,
    ⟨.poll, .mqttConnectSent, false, .mqttConnectSent⟩,
    ⟨.poll, .mqttConnectSent, false, .disconnected⟩,
    ⟨.poll, .mqttConnectSent, true, .mqttConnected⟩,
    ⟨.poll, .mqttConnectSent, false, .mqttConnected⟩,
    ⟨.poll, .mqttConnectSent, true, .mqttDisconnecting⟩,
    ⟨.poll, .mqttConnectSent, false, .mqttDisconnecting⟩,
    ⟨.poll, .mqttConnected, true, .mqttConnected⟩,
    ⟨.poll, .mqttConnected, false, .mqttConnected⟩,
    ⟨.poll, .mqttConnected, true, .mqttDisconnecting⟩,
    ⟨.poll, .mqttConnected, false, .mqttDisconnecting⟩,
    ⟨.poll, .mqttDisconnecting, true, .disconnected⟩,
    ⟨.poll, .mqttDisconnecting, false, .mqttDisconnecting⟩]

def State.all : List State :=
  [.disconnected, .connecting, .mqttConnectSent, .mqttConnected, .mqttDisconnecting]

/-- The transitions that the other calls make, in a state. -/
def otherTransitions (s : State) : List Transition :=
  [⟨.init, s, true, .disconnected⟩,
    ⟨.init, s, false, .disconnected⟩,
    if s = .disconnected then ⟨.connect, s, true, .connecting⟩ else ⟨.connect, s, false, s⟩,
    if s = .mqttConnected then ⟨.disconnect, s, true, .mqttDisconnecting⟩
    else ⟨.disconnect, s, false, s⟩,
    ⟨.send, s, true, s⟩,
    ⟨.send, s, false, s⟩]

def transitions : List Transition := pollTransitions ++ State.all.flatMap otherTransitions

theorem mem_transitions_of_poll {t : Transition} (h : t ∈ pollTransitions) : t ∈ transitions :=
  List.mem_append_left _ h

theorem mem_transitions_of_other {t : Transition} (h : t ∈ otherTransitions t.before) :
    t ∈ transitions := by
  refine List.mem_append_right _ (List.mem_flatMap.mpr ⟨t.before, ?_, h⟩)
  cases t.before <;> decide

/-! ## No other transition is made -/

/-- What a poll does behind the state machine, by the state that has left. -/
theorem poll_behind {w₂ w' : World σ} {r : Except Status Unit} (hs : w₂.client.Sound)
    (h : (w₂.client.state = .mqttConnectSent ∧ pollConnectSent w₂ = .ok (r, w')) ∨
      (w₂.client.state = .mqttConnected ∧
        (clientRead >>= fun _ => keepalive) w₂ = .ok (r, w')) ∨
      (w₂.client.state ≠ .mqttConnectSent ∧ w₂.client.state ≠ .mqttConnected ∧ r = .ok () ∧
        w' = w₂)) :
    (w₂.client.state = .mqttConnectSent → w'.client.state = .mqttConnectSent) ∧
    (w₂.client.state = .mqttConnected →
      w'.client.state = .mqttConnected ∨ w'.client.state = .mqttDisconnecting) ∧
    (w₂.client.state ≠ .mqttConnectSent → w₂.client.state ≠ .mqttConnected →
      r.isOk = true ∧ w'.client.state = w₂.client.state) := by
  rcases h with ⟨hstate, hsend⟩ | ⟨hstate, hread⟩ | ⟨hsent, hconn, rfl, rfl⟩
  · refine ⟨fun _ => (pollConnectSent_aside hs hsend).state.trans hstate, fun hconn => ?_,
      fun hsent => absurd hstate hsent⟩
    rw [hstate] at hconn
    cases hconn
  · refine ⟨fun hsent => ?_, fun _ => (readAndKeepalive_refines hs hstate hread).2,
      fun _ hconn => absurd hstate hconn⟩
    rw [hstate] at hsent
    cases hsent
  · exact ⟨fun h => absurd h hsent, fun h => absurd h hconn, fun _ _ => ⟨rfl, rfl⟩⟩

theorem poll_mem_transitions {w w' : World σ} {r : Except Status Unit} (hs : w.client.Sound)
    (h : poll w = .ok (r, w')) :
    ⟨.poll, w.client.state, r.isOk, w'.client.state⟩ ∈ pollTransitions := by
  rcases poll_cases h with ⟨e, hflush, rfl⟩ | ⟨w₁, hflush, h₁⟩
  · rw [(clientFlushPending_flushes hs hflush).aside.state]
    -- the flush failed: whatever the state, the table has it with an error and no change
    cases w.client.state <;> exact List.elem_iff.mp rfl
  have hflushes := clientFlushPending_flushes hs hflush
  have hs₁ : w₁.client.Sound := (hflushes.refines hs).sound
  rw [← hflushes.aside.state]
  rcases h₁ with ⟨e, hcore, rfl⟩ | ⟨w₂, hcore, hrest⟩
  · -- the state machine failed: it has given up, on the transport or on the broker
    have hgone : w'.client.state = .disconnected ∧
        (w₁.client.state = .connecting ∨ w₁.client.state = .mqttConnectSent) := by
      cases corePoll_turn hs₁ hcore with
      | opens _ _ hstate hopens =>
        cases hopens with
        | failed | missing => exact ⟨rfl, Or.inl hstate⟩
      | waits _ _ close res env hstate hfits hwaits =>
        cases hwaits with
        | failed | timedOut => exact ⟨rfl, Or.inr hstate⟩
        | rejected status w' hres hv hrej =>
          obtain ⟨c, -, rfl⟩ := hrej
          exact ⟨rfl, Or.inr hstate⟩
    rw [hgone.1]
    rcases hgone.2 with hstate | hstate
    · rw [hstate]
      exact List.elem_iff.mp rfl
    · rw [hstate]
      exact List.elem_iff.mp rfl
  · -- the handler went through, and the code behind it goes by the state it has left
    obtain ⟨hsent, hconn, hother⟩ := poll_behind (corePoll_refines hs₁ hcore).sound hrest
    generalize r.isOk = ok at hother ⊢
    cases corePoll_turn hs₁ hcore with
    | idle hstate =>
      rcases hstate with hstate | hstate
      · obtain ⟨rfl, hafter⟩ := hother (by rw [hstate]; decide) (by rw [hstate]; decide)
        rw [hafter, hstate]
        decide
      · rw [hstate]
        rcases hconn hstate with hafter | hafter
        · rw [hafter]
          cases ok <;> decide
        · rw [hafter]
          cases ok <;> decide
    | opens _ _ hstate hopens =>
      rw [hstate]
      cases hopens with
      | opened open_ env hf hcall =>
        rw [hsent rfl]
        cases ok <;> decide
      | blocked open_ status env hf hcall hst =>
        obtain ⟨rfl, hafter⟩ := hother (show w₁.client.state ≠ _ by rw [hstate]; decide)
          (show w₁.client.state ≠ _ by rw [hstate]; decide)
        rw [hafter, show (World.client ⟨w₁.client, env, _⟩).state = .connecting from hstate]
        decide
    | waits _ _ close res env hstate hfits hwaits =>
      rw [hstate]
      cases hwaits with
      | accepted n hres hv hn =>
        rcases hconn rfl with hafter | hafter
        · rw [hafter]
          cases ok <;> decide
        · rw [hafter]
          cases ok <;> decide
      | waiting hres hv hearly =>
        rw [hsent (by rw [readClock_client]; exact hstate)]
        cases ok <;> decide
    | closes close hstate =>
      obtain ⟨rfl, hafter⟩ := hother (fun h => nomatch h) (fun h => nomatch h)
      rw [hafter, hstate]
      exact List.elem_iff.mp rfl

theorem call_mem_transitions {w w' : World σ} {c : Call σ} {r : Except Status Unit}
    (hs : w.client.Sound) (h : call c w = .ok (r, w')) :
    ⟨c.kind, w.client.state, r.isOk, w'.client.state⟩ ∈ transitions := by
  cases c with
  | poll => exact mem_transitions_of_poll (poll_mem_transitions hs h)
  | init config =>
    apply mem_transitions_of_other
    have h' : init config w = .ok (r, w') := h
    cases init_inits h' with
    | failed => exact List.mem_cons_of_mem _ List.mem_cons_self
    | ok cfg hcfg => exact List.mem_cons_self
  | request q =>
    apply mem_transitions_of_other
    cases q with
    | connect =>
      have h' : connect w = .ok (r, w') := h
      rw [connect_eq] at h'
      split at h'
      · next hstate =>
        cases h'
        simp [otherTransitions, hstate, Call.kind, Request.kind, Except.isOk, Except.toBool]
      · next hstate =>
        cases h'
        simp [otherTransitions, hstate, Call.kind, Request.kind, Except.isOk, Except.toBool]
    | disconnect =>
      have h' : disconnect w = .ok (r, w') := h
      rw [disconnect_eq] at h'
      split at h'
      · next hstate =>
        cases h'
        simp [otherTransitions, hstate, Call.kind, Request.kind, Except.isOk, Except.toBool]
      · next hstate =>
        cases h'
        simp [otherTransitions, hstate, Call.kind, Request.kind, Except.isOk, Except.toBool]
    | publish topic payload qos =>
      -- sending changes no state, and any status is in the table
      have h' : request (.publish topic payload qos) w = .ok (r, w') := h
      rw [(request_aside hs rfl h').state]
      cases r <;> simp [otherTransitions, Call.kind, Request.kind, Except.isOk, Except.toBool]
    | subscribe topic qos =>
      have h' : request (.subscribe topic qos) w = .ok (r, w') := h
      rw [(request_aside hs rfl h').state]
      cases r <;> simp [otherTransitions, Call.kind, Request.kind, Except.isOk, Except.toBool]

/-! ## Every transition in the table is made -/

/-- A run that makes a transition: what the transport will answer, whether the callback calls
`aemlib_disconnect`, the calls before, and the call that is looked at. -/
structure Demonstration where
  script : Script
  leaves : Bool
  calls : List (Call Script)
  last : Call Script

namespace Demonstration

def leave : MessageFn Script := fun s _ _ => ([.disconnect], s)

def config (d : Demonstration) : Config Script :=
  Script.config 64 64 60000 (some (if d.leaves then leave else Script.listen))

def makes (d : Demonstration) (t : Transition) (w : World Script) : Bool :=
  match call d.last w with
  | .ok (r, w') => ⟨d.last.kind, w.client.state, r.isOk, w'.client.state⟩ == t
  | .error _ => false

def shows (d : Demonstration) (t : Transition) : Bool :=
  d.calls.all (fun c => !c.isInit) &&
    (runFrom d.config d.script d.calls).any (fun w => d.makes t w)

def brings (reads : List (List UInt8)) : Script :=
  ⟨[], reads.map fun data => ⟨statusOk, data⟩, [], []⟩

def jams (n : Nat) (reads : List (List UInt8)) : Script :=
  { brings reads with
    writes := List.replicate n ⟨statusOk, 64⟩ ++ [⟨ioWouldBlock, 0⟩, ⟨Script.ioError, 0⟩] }

def connack : List UInt8 := [0x20, 2, 0, 0]

def message : List UInt8 := [0x30, 3, 0, 1, 0x61]

def garbage : List UInt8 := [0xF0, 0]

/-- The calls that bring a client into a state, if the transport does as it is asked. -/
def toState : State → List (Call Script)
  | .disconnected => []
  | .connecting => [.request .connect]
  | .mqttConnectSent => [.request .connect, .poll]
  | .mqttConnected => [.request .connect, .poll, .poll]
  | .mqttDisconnecting => [.request .connect, .poll, .poll, .request .disconnect]

def publishUnsupported : Call Script :=
  .request (.publish ⟨[0x62], by decide⟩ [] 1)

/-- The transitions of `aemlib_poll`, in the order of the table. -/
def polls : List Demonstration :=
  [⟨brings [], false, [], .poll⟩,
    ⟨jams 0 [], false, [Script.publishA []], .poll⟩,
    ⟨⟨[ioWouldBlock], [], [], []⟩, false, toState .connecting, .poll⟩,
    ⟨jams 0 [], false, [.request .connect, Script.publishA []], .poll⟩,
    ⟨brings [], false, toState .connecting, .poll⟩,
    ⟨⟨[], [], [⟨Script.ioError, 0⟩], []⟩, false, toState .connecting, .poll⟩,
    ⟨⟨[Script.ioError], [], [], []⟩, false, toState .connecting, .poll⟩,
    ⟨brings [], false, toState .mqttConnectSent, .poll⟩,
    ⟨jams 0 [], false, toState .mqttConnectSent, .poll⟩,
    ⟨brings [garbage], false, toState .mqttConnectSent, .poll⟩,
    ⟨brings [connack], false, toState .mqttConnectSent, .poll⟩,
    ⟨brings [connack ++ garbage], false, toState .mqttConnectSent, .poll⟩,
    ⟨brings [connack ++ message], true, toState .mqttConnectSent, .poll⟩,
    ⟨brings [connack ++ message ++ garbage], true, toState .mqttConnectSent, .poll⟩,
    ⟨brings [connack], false, toState .mqttConnected, .poll⟩,
    ⟨brings [connack, [], garbage], false, toState .mqttConnected, .poll⟩,
    ⟨brings [connack, [], message], true, toState .mqttConnected, .poll⟩,
    ⟨brings [connack, [], message ++ garbage], true, toState .mqttConnected, .poll⟩,
    ⟨brings [connack], false, toState .mqttDisconnecting, .poll⟩,
    ⟨jams 1 [connack], false,
      toState .mqttConnected ++ [Script.publishA [], .request .disconnect], .poll⟩]

def others (s : State) : List Demonstration :=
  [.init (some (Script.config 64 64 60000 none)), .init none, .request .connect,
    .request .disconnect, Script.publishA [], publishUnsupported].map fun c =>
    ⟨brings [connack], false, toState s, c⟩

theorem exists_of_shows {d : Demonstration} {t : Transition} (h : d.shows t = true) :
    ∃ (w w' : World Script) (c : Call Script) (r : Except Status Unit), Reachable w ∧
      call c w = .ok (r, w') ∧ t = ⟨c.kind, w.client.state, r.isOk, w'.client.state⟩ := by
  obtain ⟨hcalls, hrun⟩ := Bool.and_eq_true_iff.mp h
  have hnone : ∀ c ∈ d.calls, c.isInit = false := fun c hc => by
    simpa using List.all_eq_true.mp hcalls c hc
  obtain ⟨w, hw, -, hmakes⟩ := exists_reachable (P := fun w => d.makes t w = true) d.config
    d.script d.calls hnone (by simpa using hrun)
  unfold makes at hmakes
  split at hmakes
  · next r w' hcall => exact ⟨w, w', d.last, r, hw, hcall, (eq_of_beq hmakes).symm⟩
  · cases hmakes

end Demonstration

def demonstrations : List Demonstration :=
  Demonstration.polls ++ State.all.flatMap Demonstration.others

theorem demonstrations_show :
    (List.zipWith Demonstration.shows demonstrations transitions).all id = true ∧
      demonstrations.length = transitions.length := by
  decide +kernel

/-- **The state machine, exactly.** The transitions in the table are those that some client makes in
some environment, in a state that a run can reach. -/
theorem transitions_exact (t : Transition) :
    t ∈ transitions ↔ ∃ (σ : Type) (w w' : World σ) (c : Call σ) (r : Except Status Unit),
      Reachable w ∧ call c w = .ok (r, w') ∧
        t = ⟨c.kind, w.client.state, r.isOk, w'.client.state⟩ := by
  constructor
  · intro ht
    obtain ⟨i, hi, rfl⟩ := List.getElem_of_mem ht
    obtain ⟨hall, hlen⟩ := demonstrations_show
    have hshows : (demonstrations.get ⟨i, hlen ▸ hi⟩).shows transitions[i] = true := by
      refine List.all_eq_true.mp hall _ (List.mem_iff_getElem.mpr ⟨i, ?_, ?_⟩)
      · rw [List.length_zipWith, hlen, Nat.min_self]
        exact hi
      · rw [List.getElem_zipWith]
        rfl
    obtain ⟨w, w', c, r, hw, hcall, heq⟩ := Demonstration.exists_of_shows hshows
    exact ⟨Script, w, w', c, r, hw, hcall, heq⟩
  · rintro ⟨σ, w, w', c, r, hw, hcall, rfl⟩
    exact call_mem_transitions hw.sound hcall

/-! ## A connection that stands -/

def Standing (s : Setup σ) (w : World σ) : Prop :=
  w.client.setup = s ∧ w.client.state = .mqttConnected

def Request.isDisconnect : Request → Bool
  | .disconnect => true
  | _ => false

def MessageFn.Stays (f : MessageFn σ) : Prop :=
  ∀ env topic payload, ∀ q ∈ (f env topic payload).1, q.isDisconnect = false

section

variable {s : Setup σ} {w w' : World σ} {r : Except Status Unit}

theorem request_standing {q : Request} (hs : w.client.Sound) (hq : q.isDisconnect = false)
    (hw : Standing s w) (h : request q w = .ok (r, w')) : Standing s w' := by
  refine ⟨(request_refines hs h).1.setup.trans hw.1, ?_⟩
  cases q with
  | connect =>
    have h' : connect w = .ok (r, w') := h
    rw [connect_eq, if_neg (by rw [hw.2]; decide)] at h'
    cases h'
    exact hw.2
  | disconnect => cases hq
  | publish topic payload qos => exact (request_aside hs rfl h).state.trans hw.2
  | subscribe topic qos => exact (request_aside hs rfl h).state.trans hw.2

/-- The callback is the one of the setup, and may make any request but the one. -/
theorem dispatch_standing {header : FixedHeader} (hs : w.client.Sound)
    (hstays : ∀ f, s.onMessage = some f → f.Stays) (hw : Standing s w)
    (hparse : parseHeader w.client.held = .ok header) (hn : header.packetLen ≤ w.client.rxLen)
    (h : clientDispatchPacket header header.packetLen w = .ok (r, w')) : Standing s w' := by
  rw [clientDispatchPacket_eq hs hparse hn] at h
  split at h
  · cases h
    exact hw
  · next topic payload onMessage hpacket hcall =>
    have hset : s.onMessage = some onMessage := by
      rw [← hw.1]
      exact hcall
    refine (Prog.forAll_invariant (P := fun v => v.client.Sound ∧ Standing s v)
      (s := ⟨w.client, (onMessage w.env topic payload).2, .message topic payload :: w.trace⟩)
      ⟨hs, hw⟩ (fun q hq v r v' hv hrun => ?_) h).2
    have hkind := hstays onMessage hset w.env topic payload q hq
    exact ⟨(request_refines hv.1 hrun).1.sound, request_standing hv.1 hkind hv.2 hrun⟩
  · cases h
    exact hw

theorem clientReadLoop_standing {fuel : Nat} (hs : w.client.Sound)
    (hstays : ∀ f, s.onMessage = some f → f.Stays) (hw : Standing s w)
    (h : clientReadLoop fuel w = .ok (r, w')) : Standing s w' := by
  induction fuel generalizing w with
  | zero => cases h
  | succ fuel ih =>
    rcases clientReadLoop_turn fuel hs with ⟨r₀, hrun, -⟩ | ⟨header, hparse, -, hn, hrun⟩
    · rw [hrun] at h
      cases h
      exact hw
    · rw [hrun] at h
      have hest : w.link.Established := Or.inl hw.2
      rcases Prog.bind_eq_ok.mp h with ⟨e, hdisp, -⟩ | ⟨_, w₁, hdisp, h₁⟩
      · exact dispatch_standing hs hstays hw hparse hn hdisp
      · have hw₁ := dispatch_standing hs hstays hw hparse hn hdisp
        have hs₁ := (dispatch_refines hs hest hparse hn hdisp).1.sound
        -- taking a packet off changes no state
        have hconsumed : ∀ {r₂ w₂}, consume header.packetLen w₁ = .ok (r₂, w₂) →
            w₂.client.Sound ∧ Standing s w₂ := by
          intro r₂ w₂ hcons
          rw [consume_eq hs₁] at hcons
          split at hcons
          · cases hcons
            exact ⟨hs₁.consumed _, hw₁⟩
          · cases hcons
        rcases Prog.bind_eq_ok.mp h₁ with ⟨e, hcons, -⟩ | ⟨_, w₂, hcons, h₂⟩
        · exact (hconsumed hcons).2
        · obtain ⟨hs₂, hw₂⟩ := hconsumed hcons
          exact ih hs₂ hw₂ h₂

theorem clientRead_standing (hs : w.client.Sound) (hstays : ∀ f, s.onMessage = some f → f.Stays)
    (hw : Standing s w) (h : clientRead w = .ok (r, w')) : Standing s w' := by
  obtain ⟨res, env, hfits, hread⟩ := clientRead_cases hs hw.2 h
  have hw₁ : Standing s (w.afterRead res env) := hw
  rcases hread with ⟨-, -, rfl⟩ | ⟨-, hloop⟩
  · exact hw₁
  · exact clientReadLoop_standing (hs.received hfits) hstays hw₁ hloop

theorem keepalive_standing (hs : w.client.Sound) (hw : Standing s w)
    (h : keepalive w = .ok (r, w')) : Standing s w' :=
  ⟨(keepalive_refines hs (Or.inl hw.2) h).1.setup.trans hw.1,
    (keepalive_aside hs h).state.trans hw.2⟩

/-- Whatever a poll reports of the transport, it does not end the connection. -/
theorem poll_standing (hs : w.client.Sound) (hstays : ∀ f, s.onMessage = some f → f.Stays)
    (hw : Standing s w) (h : poll w = .ok (r, w')) : Standing s w' := by
  have hflushed : ∀ {r₁ w₁}, clientFlushPending w = .ok (r₁, w₁) →
      w₁.client.Sound ∧ Standing s w₁ := by
    intro r₁ w₁ hflush
    have hflushes := clientFlushPending_flushes hs hflush
    have href := hflushes.refines hs
    exact ⟨href.sound, href.setup.trans hw.1, hflushes.aside.state.trans hw.2⟩
  rcases poll_cases h with ⟨e, hflush, -⟩ | ⟨w₁, hflush, h₁⟩
  · exact (hflushed hflush).2
  obtain ⟨hs₁, hw₁⟩ := hflushed hflush
  -- the handler of `MQTT_CONNECTED` does nothing, so what is left is the flush and the reading
  have hidle := corePoll_of_idle (Or.inr hw₁.2)
  rcases h₁ with ⟨e, hcore, -⟩ | ⟨w₂, hcore, hrest⟩
  · rw [hidle] at hcore
    cases hcore
  rw [hidle] at hcore
  cases hcore
  rcases hrest with ⟨hsent, -⟩ | ⟨hstate, hread⟩ | ⟨-, hconn, -, -⟩
  · rw [hw₁.2] at hsent
    cases hsent
  · rcases Prog.bind_eq_ok.mp hread with ⟨e, hfail, -⟩ | ⟨_, w₂, hok, hkeep⟩
    · exact clientRead_standing hs₁ hstays hw₁ hfail
    · have hs₂ := (clientRead_refines hs₁ hstate hok).1.sound
      exact keepalive_standing hs₂ (clientRead_standing hs₁ hstays hw₁ hok) hkeep
  · exact absurd hw₁.2 hconn

end

def Move.isDisconnect : Move σ → Bool
  | .call (.request q) => q.isDisconnect
  | _ => false

theorem move_standing {s : Setup σ} {w w' : World σ} {m : Move σ} {r : Except Status Unit}
    (hs : w.client.Sound) (hstays : ∀ f, s.onMessage = some f → f.Stays)
    (hinit : m.isInit = false) (hm : m.isDisconnect = false) (hw : Standing s w)
    (h : move m w = .ok (r, w')) : Standing s w' := by
  cases m with
  | env p =>
    obtain ⟨env, -, rfl⟩ := onEnv_eq_ok.mp h
    exact hw
  | call c =>
    cases c with
    | init config => cases hinit
    | request q => exact request_standing hs hm hw h
    | poll => exact poll_standing hs hstays hw h

/-- **No error ends a connection.** A client that is `MQTT_CONNECTED` stays so in every run without
`aemlib_init` and `aemlib_disconnect`, by the user or the callback: a closed connection, a failed
write and a packet that cannot be decoded are reported by `aemlib_poll` and change no state. -/
theorem connected_stays {config : Option (Config σ)} {w₀ w₁ w w' : World σ}
    {before moves : List (Move σ)} {r r' : Except Status Unit}
    (hinit : init config w₀ = .ok (.ok (), w₁))
    (hbefore : ∀ m ∈ before, m.isInit = false) (hplay : play before w₁ = .ok (r, w))
    (hstays : ∀ f, w.client.onMessage = some f → f.Stays)
    (hmoves : ∀ m ∈ moves, m.isInit = false ∧ m.isDisconnect = false)
    (hstate : w.client.state = .mqttConnected) (h : play moves w = .ok (r', w')) :
    w'.client.state = .mqttConnected := by
  have hs := (play_refines (init_inits hinit).refines.1 hbefore hplay).sound
  have hw : Standing w.client.setup w := ⟨rfl, hstate⟩
  refine (Prog.forAll_invariant (P := fun v => v.client.Sound ∧ Standing w.client.setup v)
    ⟨hs, hw⟩ (fun m hm v r v' hv hmove => ?_) h).2.2
  obtain ⟨hnot, hleave⟩ := hmoves m hm
  exact ⟨(move_refines hv.1 hnot hmove).sound, move_standing hv.1 hstays hnot hleave hv.2 hmove⟩

/-- The connection breaks right after the CONNACK: reads and writes fail, and somebody moves the
script on in between. Nothing of it reaches the state. -/
theorem connected_stays_broken : ∃ w₁ w w' : World Script,
    init (some (Script.config 64 64 60000 (some Script.listen))) ⟨Client.zero Script,
      ⟨[], [⟨statusOk, Demonstration.connack⟩, ⟨ioWouldBlock, []⟩, ⟨Script.ioError, []⟩],
        [⟨statusOk, 64⟩, ⟨Script.ioError, 0⟩], []⟩, []⟩ = .ok (.ok (), w₁) ∧
      play [.call (.request .connect), .call .poll, .call .poll] w₁ = .ok (.ok (), w) ∧
      poll.Returns w (fun r _ => r = .error Script.ioError) ∧
      play [.call .poll, .call (Script.publishA [1]), .env (modify fun s =>
        { s with reads := [⟨statusOk, Demonstration.garbage⟩] }), .call .poll] w =
          .ok (.ok (), w') ∧ w'.client.state = .mqttConnected := by
  obtain ⟨w₁, w, hinit, hsetup, hplay, hstate, hfails, r, w', hmoves, rfl⟩ := exists_played
    (P := fun w => w.client.state = .mqttConnected ∧
      poll.Returns w (fun r _ => r = .error Script.ioError) ∧
      (play [.call .poll, .call (Script.publishA [1]), .env (modify fun s =>
        { s with reads := [⟨statusOk, Demonstration.garbage⟩] }), .call .poll]).Returns w
          (fun r _ => r = .ok ()))
    (Script.config 64 64 60000 (some Script.listen))
    ⟨[], [⟨statusOk, Demonstration.connack⟩, ⟨ioWouldBlock, []⟩, ⟨Script.ioError, []⟩],
      [⟨statusOk, 64⟩, ⟨Script.ioError, 0⟩], []⟩
    [.call (.request .connect), .call .poll, .call .poll] (by decide +kernel)
  refine ⟨w₁, w, w', hinit, hplay, hfails, hmoves, ?_⟩
  have hbefore : ∀ m ∈ [.call (.request .connect), .call .poll, .call .poll],
      Move.isInit (σ := Script) m = false := by simp [Move.isInit, Call.isInit]
  refine connected_stays hinit hbefore hplay ?_ ?_ hstate hmoves
  · intro f hf env topic payload q hq
    have href := play_refines (init_inits hinit).refines.1 hbefore hplay
    have hlisten : w.client.onMessage = some Script.listen :=
      congrArg Setup.onMessage (href.setup.trans hsetup)
    rw [hlisten] at hf
    cases hf
    cases hq
  · simp [Move.isInit, Call.isInit, Move.isDisconnect, Request.isDisconnect, Script.publishA]

end Aemlib
