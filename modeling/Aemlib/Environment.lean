import Aemlib.Behaviour.Bounds

/-!
# What the environment keeps

The library reaches its environment through six callbacks and records every call of one in the
trace. So a relation between the environment and the trace that each callback keeps is kept by
every call of the API, whatever the client does (`call_keeps`). This is how a particular transport
enters the development: its invariant is stated over its own state and the calls made on it, and
has to be looked at one callback at a time.

Between two calls of the library the environment may also move by itself: a peer reads what was
sent, or sends something. `play` interleaves calls with such moves. The client is a link as before
(`play_refines`), because a move touches neither the client nor the trace; and if neither the moves
nor the transport fault, nothing does (`play_returns`).
-/

namespace Aemlib

open Machine Prog

variable {σ α : Type}

/-! ## The rule -/

/-- The events that record no call: marks inside the library. -/
def Event.isMark : Event → Bool
  | .connectCall _ _ | .encode _ _ _ | .refused _ _ | .sent _ => true
  | _ => false

/-- Every callback of the setup but the transport's connect keeps `I`, and so do marks. -/
structure Setup.Keeps (s : Setup σ) (I : σ → List Event → Prop) : Prop where
  mark : ∀ e, e.isMark = true → ∀ env t, I env t → I env (e :: t)
  disconnect : ∀ f, s.transport.disconnect = some f → ∀ env t, I env t →
    I (f env).2 (.disconnect (f env).1 :: t)
  read : ∀ f, s.transport.read = some f → ∀ env t len, I env t →
    I (f env len).2 (.read len (f env len).1 :: t)
  write : ∀ f, s.transport.write = some f → ∀ env t data, I env t →
    I (f env data).2 (.write data (f env data).1 :: t)
  now : ∀ f, s.nowMs = some f → ∀ env t, I env t → I (f env).2 (.now (f env).1 :: t)
  message : ∀ f, s.onMessage = some f → ∀ env t topic payload, I env t →
    I (f env topic payload).2 (.message topic payload :: t)

def Setup.KeepsConnect (s : Setup σ) (I : σ → List Event → Prop) : Prop :=
  ∀ f, s.transport.connect = some f → ∀ env t, I env t → I (f env).2 (.connect (f env).1 :: t)

/-- Two relations are kept side by side. -/
theorem Setup.Keeps.and {s : Setup σ} {I J : σ → List Event → Prop} (hI : s.Keeps I)
    (hJ : s.Keeps J) : s.Keeps fun env t => I env t ∧ J env t where
  mark e he env t h := ⟨hI.mark e he env t h.1, hJ.mark e he env t h.2⟩
  disconnect f hf env t h := ⟨hI.disconnect f hf env t h.1, hJ.disconnect f hf env t h.2⟩
  read f hf env t len h := ⟨hI.read f hf env t len h.1, hJ.read f hf env t len h.2⟩
  write f hf env t data h := ⟨hI.write f hf env t data h.1, hJ.write f hf env t data h.2⟩
  now f hf env t h := ⟨hI.now f hf env t h.1, hJ.now f hf env t h.2⟩
  message f hf env t topic payload h :=
    ⟨hI.message f hf env t topic payload h.1, hJ.message f hf env t topic payload h.2⟩

theorem Setup.KeepsConnect.and {s : Setup σ} {I J : σ → List Event → Prop}
    (hI : s.KeepsConnect I) (hJ : s.KeepsConnect J) :
    s.KeepsConnect fun env t => I env t ∧ J env t :=
  fun f hf env t h => ⟨hI f hf env t h.1, hJ f hf env t h.2⟩

/-- A client with this setup, in an environment and with a trace that are in the relation. -/
def Attached (s : Setup σ) (I : σ → List Event → Prop) (w : World σ) : Prop :=
  w.client.setup = s ∧ I w.env w.trace

section

variable {s : Setup σ} {I : σ → List Event → Prop}

/-! ## What leaves the library -/

theorem getClient_keeps : Keeps (Attached s I) (getClient : Api σ (Client σ)) := by
  intro w hw r w' h
  cases h
  exact hw

/-- Assignments that leave the configured part of the client alone. -/
theorem modifyClient_keeps {f : Client σ → Client σ} (hf : ∀ c, (f c).setup = c.setup) :
    Keeps (Attached s I) (modifyClient f) := by
  intro w hw r w' h
  cases h
  exact ⟨(hf w.client).trans hw.1, hw.2⟩

theorem transportConnect_keeps (hc : s.KeepsConnect I) :
    Keeps (Attached s I) (transportConnect : Api σ Status) := by
  intro w hw r w' h
  unfold transportConnect at h
  rw [run_get_bind] at h
  cases hf : w.client.transport.connect with
  | none =>
    rw [hf] at h
    cases h
    exact hw
  | some f =>
    rw [hf] at h
    cases h
    have hf' : s.transport.connect = some f := by
      rw [← hw.1]
      exact hf
    exact ⟨hw.1, hc f hf' w.env w.trace hw.2⟩

variable (hI : s.Keeps I)

include hI

theorem mark_keeps {e : Event} (he : e.isMark = true) :
    Keeps (Attached s I) (mark e : Api σ Unit) := by
  intro w hw r w' h
  cases h
  exact ⟨hw.1, hI.mark e he w.env w.trace hw.2⟩

theorem transportDisconnect_keeps :
    Keeps (Attached s I) (transportDisconnect : Api σ Unit) := by
  intro w hw r w' h
  unfold transportDisconnect at h
  rw [run_get_bind] at h
  cases hf : w.client.transport.disconnect with
  | none =>
    rw [hf] at h
    cases h
    exact hw
  | some f =>
    rw [hf] at h
    cases h
    have hf' : s.transport.disconnect = some f := by
      rw [← hw.1]
      exact hf
    exact ⟨hw.1, hI.disconnect f hf' w.env w.trace hw.2⟩

theorem transportRead_keeps (off len : Nat) :
    Keeps (Attached s I) (transportRead off len : Api σ ReadResult) := by
  intro w hw r w' h
  unfold transportRead at h
  rw [run_get_bind] at h
  cases hf : w.client.transport.read with
  | none =>
    rw [hf] at h
    cases h
    exact hw
  | some f =>
    rw [hf] at h
    obtain ⟨buf, -, hrun⟩ := ofExcept_bind_eq_ok.mp h
    cases hrun
    have hf' : s.transport.read = some f := by
      rw [← hw.1]
      exact hf
    exact ⟨hw.1, hI.read f hf' w.env w.trace len hw.2⟩

theorem transportWrite_keeps (len : Nat) :
    Keeps (Attached s I) (transportWrite len : Api σ WriteResult) := by
  intro w hw r w' h
  unfold transportWrite at h
  rw [run_get_bind] at h
  cases hf : w.client.transport.write with
  | none =>
    rw [hf] at h
    cases h
    exact hw
  | some f =>
    rw [hf] at h
    obtain ⟨data, -, hrun⟩ := ofExcept_bind_eq_ok.mp h
    cases hrun
    have hf' : s.transport.write = some f := by
      rw [← hw.1]
      exact hf
    exact ⟨hw.1, hI.write f hf' w.env w.trace data hw.2⟩

theorem timeNow_keeps : Keeps (Attached s I) (timeNow : Api σ UInt64) := by
  intro w hw r w' h
  unfold timeNow at h
  rw [run_get_bind] at h
  cases hf : w.client.nowMs with
  | none =>
    rw [hf] at h
    cases h
    exact hw
  | some f =>
    rw [hf] at h
    cases h
    have hf' : s.nowMs = some f := by
      rw [← hw.1]
      exact hf
    exact ⟨hw.1, hI.now f hf' w.env w.trace hw.2⟩

/-- The time is read and noted. -/
theorem stamp_keeps :
    Keeps (Attached s I) (timeNow >>= fun now =>
      modifyClient fun c => { c with lastActivityMs := now } : Api σ Unit) := by
  apply (timeNow_keeps hI).bind
  intro now
  exact modifyClient_keeps fun _ => rfl

/-! ## Sending -/

theorem clientSend_keeps (p : Proto.Packet) (len : Nat) :
    Keeps (Attached s I) (clientSend p len : Api σ Unit) := by
  apply getClient_keeps.bind
  intro c
  apply Keeps.ite
  · refine Keeps.bind (mark_keeps hI rfl) fun _ => ?_
    exact keeps_throw _
  · apply (transportWrite_keeps hI len).bind
    intro result
    apply Keeps.ite
    · exact keeps_throw _
    · apply Keeps.ite
      · apply (keeps_ofExcept _).bind
        intro remaining
        apply (keeps_ofExcept _).bind
        intro buf
        exact Keeps.bind (modifyClient_keeps fun _ => rfl) fun _ => mark_keeps hI rfl
      · exact mark_keeps hI rfl

theorem clientFlushPending_keeps :
    Keeps (Attached s I) (clientFlushPending : Api σ Unit) := by
  apply getClient_keeps.bind
  intro c
  apply Keeps.ite
  · exact keeps_pure _
  · apply (transportWrite_keeps hI _).bind
    intro result
    apply Keeps.ite
    · exact keeps_throw _
    · apply Keeps.ite
      · apply (keeps_ofExcept _).bind
        intro left
        refine Keeps.bind (modifyClient_keeps fun _ => rfl) fun _ => ?_
        apply Keeps.ite
        · exact (keeps_ofExcept _).bind fun _ => modifyClient_keeps fun _ => rfl
        · exact keeps_pure _
      · exact keeps_pure _

theorem encodeAndSend_keeps (p : Proto.Packet) :
    Keeps (Attached s I) (encodeAndSend p : Api σ Unit) := by
  apply getClient_keeps.bind
  intro c
  refine Keeps.bind (mark_keeps hI rfl) fun _ => ?_
  apply (keeps_ofExcept _).bind
  rintro ⟨result, e⟩
  refine Keeps.bind (modifyClient_keeps fun _ => rfl) fun _ => ?_
  cases result with
  | error status => exact keeps_throw _
  | ok u => exact clientSend_keeps hI p e.outLen

/-! ## Requests -/

theorem connect_keeps : Keeps (Attached s I) (connect : Api σ Unit) := by
  apply getClient_keeps.bind
  intro c
  refine Keeps.bind (mark_keeps hI rfl) fun _ => ?_
  refine Keeps.bind (modifyClient_keeps fun _ => rfl) fun _ => ?_
  apply getClient_keeps.bind
  intro c
  apply Keeps.ite
  · exact keeps_throw _
  · exact modifyClient_keeps fun _ => rfl

omit hI in
theorem disconnect_keeps : Keeps (Attached s I) (disconnect : Api σ Unit) := by
  apply getClient_keeps.bind
  intro c
  apply Keeps.ite
  · exact keeps_throw _
  · exact modifyClient_keeps fun _ => rfl

theorem request_keeps (q : Request) : Keeps (Attached s I) (request q : Api σ Unit) := by
  cases q with
  | connect => exact connect_keeps hI
  | disconnect => exact disconnect_keeps
  | publish topic payload qos =>
    apply Keeps.ite
    · exact keeps_throw _
    · exact encodeAndSend_keeps hI _
  | subscribe topic qos =>
    apply Keeps.ite
    · exact keeps_throw _
    · have hnext : Keeps (Attached s I) (nextPacketId : Api σ UInt16) := by
        apply getClient_keeps.bind
        intro c
        refine Keeps.bind (modifyClient_keeps fun _ => rfl) fun _ => ?_
        exact keeps_pure _
      exact hnext.bind fun packetId => encodeAndSend_keeps hI _

/-! ## Receiving -/

theorem readMore_keeps : Keeps (Attached s I) (readMore : Api σ Status) := by
  apply getClient_keeps.bind
  intro c
  apply (keeps_ofExcept _).bind
  intro room
  apply (transportRead_keeps hI _ _).bind
  intro result
  apply Keeps.ite
  · exact keeps_pure _
  · exact Keeps.bind (modifyClient_keeps fun _ => rfl) fun _ => keeps_pure _

omit hI in
theorem consume_keeps (n : Nat) : Keeps (Attached s I) (consume n : Api σ Unit) := by
  apply getClient_keeps.bind
  intro c
  apply (keeps_ofExcept _).bind
  intro left
  refine Keeps.bind (modifyClient_keeps fun _ => rfl) fun _ => ?_
  apply Keeps.ite
  · exact (keeps_ofExcept _).bind fun _ => modifyClient_keeps fun _ => rfl
  · exact keeps_pure _

/-- The callback of the setup, and the requests it makes. -/
theorem callOnMessage_keeps {f : MessageFn σ} (hf : s.onMessage = some f)
    (topic payload : List UInt8) :
    Keeps (Attached s I) (callOnMessage f topic payload) := by
  intro w hw r w' h
  have hmessage := hI.message f hf w.env w.trace topic payload hw.2
  refine keeps_forAll (fun q _ => request_keeps hI q) _ ?_ r w' h
  exact ⟨hw.1, hmessage⟩

theorem clientDispatchPacket_keeps (header : Proto.FixedHeader) (packetLen : Nat) :
    Keeps (Attached s I) (clientDispatchPacket header packetLen : Api σ Unit) := by
  intro w hw
  unfold clientDispatchPacket
  cases header.type with
  | publish =>
    -- the callback is the one the client has now, so the setup is looked at before it is called
    intro r w' h
    simp only [run_getClient_bind] at h
    obtain ⟨decoded, -, h⟩ := ofExcept_bind_eq_ok.mp h
    cases decoded with
    | error status =>
      cases h
      exact hw
    | ok view =>
      cases hf : w.client.onMessage with
      | none =>
        simp only [hf] at h
        cases h
        exact hw
      | some f =>
        simp only [hf] at h
        obtain ⟨topic, -, h⟩ := ofExcept_bind_eq_ok.mp h
        obtain ⟨payload, -, h⟩ := ofExcept_bind_eq_ok.mp h
        have hf' : s.onMessage = some f := by
          rw [← hw.1]
          exact hf
        exact callOnMessage_keeps hI hf' topic payload w hw r w' h
  | _ => exact keeps_pure _ w hw

theorem clientReadLoop_keeps (fuel : Nat) :
    Keeps (Attached s I) (clientReadLoop fuel : Api σ Unit) := by
  induction fuel with
  | zero => exact keeps_ofExcept _
  | succ fuel ih =>
    apply getClient_keeps.bind
    intro c
    apply Keeps.ite
    · exact keeps_pure _
    · apply (keeps_ofExcept _).bind
      intro decoded
      cases decoded with
      -- incomplete: full buffer or wait; malformed: the status goes up
      | error status =>
        apply Keeps.ite
        · apply Keeps.ite
          · exact keeps_throw _
          · exact keeps_pure _
        · exact keeps_throw _
      | ok header =>
        apply Keeps.ite
        · exact keeps_throw _
        · apply Keeps.ite
          · exact keeps_pure _
          · -- only the callback reaches the environment
            apply (clientDispatchPacket_keeps hI header _).bind
            intro _
            exact (consume_keeps _).bind fun _ => ih

theorem clientRead_keeps : Keeps (Attached s I) (clientRead : Api σ Unit) := by
  apply (readMore_keeps hI).bind
  intro status
  apply Keeps.ite
  · exact keeps_throw _
  · exact getClient_keeps.bind fun c => clientReadLoop_keeps hI _

/-! ## State handlers -/

theorem dropTransport_keeps : Keeps (Attached s I) (dropTransport : Api σ Unit) :=
  (transportDisconnect_keeps hI).bind fun _ => modifyClient_keeps fun _ => rfl

theorem handleStateConnecting_keeps (hc : s.KeepsConnect I) :
    Keeps (Attached s I) (handleStateConnecting : Api σ Unit) := by
  apply (transportConnect_keeps hc).bind
  intro status
  apply Keeps.ite
  · exact Keeps.bind (modifyClient_keeps fun _ => rfl) fun _ => stamp_keeps hI
  · apply Keeps.ite
    · exact keeps_pure _
    · exact Keeps.bind (modifyClient_keeps fun _ => rfl) fun _ => keeps_throw _

theorem answerConnack_keeps (packetLen : Nat) :
    Keeps (Attached s I) (answerConnack packetLen : Api σ Unit) := by
  apply getClient_keeps.bind
  intro c
  apply (keeps_ofExcept _).bind
  intro connack
  apply (consume_keeps _).bind
  intro _
  apply Keeps.ite
  · exact Keeps.bind (modifyClient_keeps fun _ => rfl) fun _ => stamp_keeps hI
  · exact (dropTransport_keeps hI).bind fun _ => keeps_throw _

theorem checkConnack_keeps : Keeps (Attached s I) (checkConnack : Api σ Bool) := by
  have hdrop : ∀ status : Status, Keeps (Attached s I)
      (dropTransport >>= fun _ => throw status : Api σ Bool) :=
    fun status => (dropTransport_keeps hI).bind fun _ => keeps_throw _
  apply getClient_keeps.bind
  intro c
  apply Keeps.ite
  · exact keeps_pure _
  · apply (keeps_ofExcept _).bind
    intro decoded
    cases decoded with
    | error status =>
      apply Keeps.ite
      · exact hdrop status
      · exact keeps_pure _
    | ok header =>
      apply Keeps.ite
      · exact hdrop _
      · apply Keeps.ite
        · exact hdrop _
        · apply Keeps.ite
          · exact (answerConnack_keeps hI _).bind fun _ => keeps_pure _
          · exact keeps_pure _

theorem handleStateMqttConnectSent_keeps :
    Keeps (Attached s I) (handleStateMqttConnectSent : Api σ Unit) := by
  apply (readMore_keeps hI).bind
  intro status
  apply Keeps.ite
  · exact (dropTransport_keeps hI).bind fun _ => keeps_throw _
  · apply (checkConnack_keeps hI).bind
    intro answered
    apply Keeps.ite
    · exact keeps_pure _
    · apply (timeNow_keeps hI).bind
      intro now
      apply getClient_keeps.bind
      intro c
      apply Keeps.ite
      · exact (dropTransport_keeps hI).bind fun _ => keeps_throw _
      · exact keeps_pure _

/-- The state machine. Only a client that is `CONNECTING` connects the transport. -/
theorem corePoll_keeps {w w' : World σ} {r : Except Status Unit}
    (hc : w.client.state = .connecting → s.KeepsConnect I) (hw : Attached s I w)
    (h : Core.poll w = .ok (r, w')) : Attached s I w' := by
  unfold Core.poll at h
  rw [run_getClient_bind] at h
  cases hstate : w.client.state with
  | disconnected =>
    rw [hstate] at h
    exact keeps_pure _ w hw r w' h
  | connecting =>
    rw [hstate] at h
    exact handleStateConnecting_keeps hI (hc hstate) w hw r w' h
  | mqttConnectSent =>
    rw [hstate] at h
    exact handleStateMqttConnectSent_keeps hI w hw r w' h
  | mqttConnected =>
    rw [hstate] at h
    exact keeps_pure _ w hw r w' h
  | mqttDisconnecting =>
    rw [hstate] at h
    exact dropTransport_keeps hI w hw r w' h

/-! ## The public API -/

theorem pollConnectSent_keeps : Keeps (Attached s I) (pollConnectSent : Api σ Unit) := by
  apply getClient_keeps.bind
  intro c
  apply Keeps.ite
  · have hsend : Keeps (Attached s I) (clientSendConnect : Api σ Unit) :=
      getClient_keeps.bind fun c => encodeAndSend_keeps hI _
    exact hsend.bind fun _ => modifyClient_keeps fun _ => rfl
  · exact keeps_pure _

theorem keepalive_keeps : Keeps (Attached s I) (keepalive : Api σ Unit) := by
  apply (timeNow_keeps hI).bind
  intro now
  apply getClient_keeps.bind
  intro c
  apply Keeps.ite
  · exact (encodeAndSend_keeps hI .pingreq).bind fun _ => modifyClient_keeps fun _ => rfl
  · exact keeps_pure _

theorem poll_keeps {w w' : World σ} {r : Except Status Unit} (hs : w.client.Sound)
    (hc : w.client.state = .connecting → s.KeepsConnect I) (hw : Attached s I w)
    (h : poll w = .ok (r, w')) : Attached s I w' := by
  rcases poll_cases h with ⟨e, hflush, -⟩ | ⟨w₁, hflush, h₁⟩
  · exact clientFlushPending_keeps hI w hw _ _ hflush
  · have hw₁ := clientFlushPending_keeps hI w hw _ _ hflush
    have hc₁ : w₁.client.state = .connecting → s.KeepsConnect I := by
      intro hstate
      rw [(clientFlushPending_flushes hs hflush).client_eq] at hstate
      exact hc hstate
    rcases h₁ with ⟨e, hcore, -⟩ | ⟨w₂, hcore, hrest⟩
    · exact corePoll_keeps hI hc₁ hw₁ hcore
    · have hw₂ := corePoll_keeps hI hc₁ hw₁ hcore
      rcases hrest with ⟨-, hsend⟩ | ⟨-, hread⟩ | ⟨-, -, -, rfl⟩
      · exact pollConnectSent_keeps hI w₂ hw₂ _ _ hsend
      · exact (clientRead_keeps hI).bind (fun _ => keepalive_keeps hI) w₂ hw₂ _ _ hread
      · exact hw₂

/-- **The environment rule.** Every call but `aemlib_init`, from a sound client. -/
theorem call_keeps {w w' : World σ} {c : Call σ} {r : Except Status Unit}
    (hc : s.KeepsConnect I) (hs : w.client.Sound) (hcall : c.isInit = false)
    (hw : Attached s I w) (h : call c w = .ok (r, w')) : Attached s I w' := by
  cases c with
  | init config => cases hcall
  | request q => exact request_keeps hI q w hw r w' h
  | poll => exact poll_keeps hI hs (fun _ => hc) hw h

omit hI in
theorem init_inits {config : Option (Config σ)} {w₀ w₁ : World σ} {r : Except Status Unit}
    (h : init config w₀ = .ok (r, w₁)) : Inits w₀ config r w₁ := by
  obtain ⟨r', w', hrun, hinits⟩ := init_returns config w₀
  rw [h] at hrun
  cases hrun
  exact hinits

omit hI in
/-- What `aemlib_init` was given is what the client has. -/
theorem init_setup {cfg : Config σ} {w₀ w₁ : World σ}
    (h : init (some cfg) w₀ = .ok (.ok (), w₁)) : w₁.client.setup = cfg.client.setup := by
  cases init_inits h with
  | ok cfg hs => rfl

/-- A client that `aemlib_init` has just set up. -/
theorem init_attached {config : Option (Config σ)} {w₀ w₁ : World σ}
    (h : init config w₀ = .ok (.ok (), w₁)) (hsetup : w₁.client.setup = s)
    (h₀ : I w₀.env (.init :: w₀.trace)) : w₁.client.Sound ∧ Attached s I w₁ := by
  cases init_inits h with
  | ok cfg hs =>
    refine ⟨{ hs with }, ?_⟩
    have hstamp := stamp_keeps (s := cfg.client.setup) (I := I)
      (by rw [show cfg.client.setup = s from hsetup]; exact hI)
      ⟨cfg.client, w₀.env, .init :: w₀.trace⟩ ⟨rfl, h₀⟩ _ _ (stamp_eq _)
    exact ⟨hsetup, hstamp.2⟩

end

/-! ## Interleaving -/

/-- Let the environment do `p`. -/
def onEnv (p : Prog Fault Status σ α) : Api σ α := fun w =>
  match p w.env with
  | .error fault => .error fault
  | .ok (r, env) => .ok (r, { w with env := env })

/-- A call of the API, or a move that the environment makes by itself. -/
inductive Move (σ : Type) where
  | call (c : Call σ)
  | env (p : Prog Fault Status σ Unit)

def move : Move σ → Api σ Unit
  | .call c => call c
  | .env p => onEnv p

def play (moves : List (Move σ)) : Api σ Unit := Prog.forAll move moves

def Move.isInit : Move σ → Bool
  | .call c => c.isInit
  | .env _ => false

theorem onEnv_eq_ok {p : Prog Fault Status σ α} {w w' : World σ} {r : Except Status α} :
    onEnv p w = .ok (r, w') ↔ ∃ env, p w.env = .ok (r, env) ∧ w' = ⟨w.client, env, w.trace⟩ := by
  unfold onEnv
  constructor
  · intro h
    split at h
    · cases h
    · next hp =>
      cases h
      exact ⟨_, hp, rfl⟩
  · rintro ⟨env, hp, rfl⟩
    rw [hp]

/-- Every call but `aemlib_init`, from a sound client. -/
theorem call_refines_setup {w w' : World σ} {c : Call σ} {r : Except Status Unit}
    (hs : w.client.Sound) (hc : c.isInit = false) (h : call c w = .ok (r, w')) :
    Refines w w' := by
  cases c with
  | init config => cases hc
  | request q => exact (request_refines hs h).1
  | poll => exact poll_refines hs h

/-- Moves of the environment are no steps of the link. -/
theorem move_refines {w w' : World σ} {m : Move σ} {r : Except Status Unit} (hs : w.client.Sound)
    (hm : m.isInit = false) (h : move m w = .ok (r, w')) : Refines w w' := by
  cases m with
  | call c => exact call_refines_setup hs hm h
  | env p =>
    obtain ⟨env, -, rfl⟩ := onEnv_eq_ok.mp h
    exact ⟨hs, rfl, .refl⟩

theorem play_refines {w w' : World σ} {moves : List (Move σ)} {r : Except Status Unit}
    (hs : w.client.Sound) (hmoves : ∀ m ∈ moves, m.isInit = false)
    (h : play moves w = .ok (r, w')) : Refines w w' := by
  refine Prog.forAll_invariant (P := fun v => Refines w v) (.refl hs)
    (fun m hm v r v' hv hmove => ?_) h
  exact hv.trans (move_refines hv.sound (hmoves m hm) hmove)

/-- The relation `I` is kept by `p`, which leaves the trace alone. -/
def MoveKeeps (I : σ → List Event → Prop) (p : Prog Fault Status σ Unit) : Prop :=
  ∀ env t r env', I env t → p env = .ok (r, env') → I env' t

/-- **The environment rule for interleaved runs.** -/
theorem play_keeps {s : Setup σ} {I : σ → List Event → Prop} {w w' : World σ}
    {moves : List (Move σ)} {r : Except Status Unit} (hI : s.Keeps I) (hc : s.KeepsConnect I)
    (hs : w.client.Sound) (hmoves : ∀ m ∈ moves, m.isInit = false)
    (henv : ∀ p, .env p ∈ moves → MoveKeeps I p) (hw : Attached s I w)
    (h : play moves w = .ok (r, w')) : Attached s I w' := by
  refine (Prog.forAll_invariant (P := fun v => v.client.Sound ∧ Attached s I v) ⟨hs, hw⟩
    (fun m hm v r v' hv hmove => ?_) h).2
  refine ⟨(move_refines hv.1 (hmoves m hm) hmove).sound, ?_⟩
  cases m with
  | call c => exact call_keeps hI hc hv.1 (hmoves _ hm) hv.2 hmove
  | env p =>
    obtain ⟨env, hp, rfl⟩ := onEnv_eq_ok.mp hmove
    exact ⟨hv.2.1, henv p hm v.env v.trace _ env hv.2.2 hp⟩

/-- The same without faults: calls within the contract, and moves that end wherever the relation
holds. -/
theorem play_returns {s : Setup σ} {I : σ → List Event → Prop} {w : World σ}
    {moves : List (Move σ)} (hI : s.Keeps I) (hc : s.KeepsConnect I) (hw : w.Safe)
    (hmoves : ∀ m ∈ moves, m.isInit = false) (hcalls : ∀ c, .call c ∈ moves → c.Contract)
    (henv : ∀ p, .env p ∈ moves → ∀ env t, I env t → p.Returns env fun _ env' => I env' t)
    (ha : Attached s I w) :
    (play moves).Returns w fun _ w' => Refines w w' ∧ Attached s I w' := by
  refine (Prog.forAll_returns (P := fun v => v.Safe ∧ Refines w v ∧ Attached s I v)
    ⟨hw, .refl hw.sound, ha⟩ (fun m hm v hv => ?_)).mono fun _ _ h => h.2
  obtain ⟨hsafe, href, hv⟩ := hv
  cases m with
  | call c =>
    obtain ⟨r, v', hrun, hsafe'⟩ := call_returns hsafe (hcalls c hm)
    have href' := call_refines_setup hsafe.sound (hmoves _ hm) hrun
    exact ⟨r, v', hrun, hsafe', href.trans href',
      call_keeps hI hc hsafe.sound (hmoves _ hm) hv hrun⟩
  | env p =>
    obtain ⟨r, env', hrun, hkept⟩ := henv p hm v.env v.trace hv.2
    have hmove : move (.env p) v = .ok (r, ⟨v.client, env', v.trace⟩) :=
      onEnv_eq_ok.mpr ⟨env', hrun, rfl⟩
    exact ⟨r, _, hmove, { hsafe with }, href.trans ⟨href.sound, rfl, .refl⟩, hv.1, hkept⟩

/-- The invariant rule of the link for interleaved runs. -/
theorem Refines.invariant {P : Link → Prop} {config : Option (Config σ)} {w₀ w₁ w : World σ}
    (hinit : init config w₀ = .ok (.ok (), w₁)) (h : Refines w₁ w)
    (hfresh : ∀ size hello trace, P (Link.fresh size hello trace))
    (hstep : ∀ {l l'}, Link.Step l l' → P l → P l') : P w.link := by
  obtain ⟨-, size, hello, hsteps⟩ := (init_inits hinit).refines
  have hall : Link.Steps (Link.fresh size hello w₀.trace) w.link := hsteps.trans h.steps
  exact hall.invariant (hfresh size hello w₀.trace) hstep

/-! ## Concrete interleaved runs -/

theorem owned_replicate (size : Fin (2 ^ 64)) (b : List UInt8)
    (h : some (List.replicate size 0) = some b) : b.length = size := by
  cases h
  exact List.length_replicate

theorem size_lt_of_fin (size : Fin (2 ^ 64)) : size.val < 2 ^ 64 := size.isLt

def Config.zeroed (transport : Transport σ) (nowMs : σ → UInt64 × σ) (keepaliveMs : UInt64)
    (onMessage : Option (MessageFn σ)) (txSize rxSize : Fin (2 ^ 64)) : Config σ where
  txBuffer := some (List.replicate txSize 0)
  txBufferSize := txSize
  rxBuffer := some (List.replicate rxSize 0)
  rxBufferSize := rxSize
  transport := transport
  nowMs := some nowMs
  keepaliveIntervalMs := keepaliveMs
  onMessage := onMessage
  txOwned := owned_replicate txSize
  rxOwned := owned_replicate rxSize
  txSizeLt := size_lt_of_fin txSize
  rxSizeLt := size_lt_of_fin rxSize

/-- `aemlib_init` and then the moves, from a zeroed client; nothing if there was a fault or the
configuration was refused. -/
def playFrom (cfg : Config σ) (env : σ) (moves : List (Move σ)) : Option (World σ) :=
  match init (some cfg) ⟨Client.zero σ, env, []⟩ with
  | .ok (.ok (), w₁) =>
    match play moves w₁ with
    | .ok (.ok (), w) => some w
    | _ => none
  | _ => none

/-- A concrete interleaved run ends in a world that satisfies whatever can be decided there. -/
theorem exists_played {P : World σ → Prop} [DecidablePred P] (cfg : Config σ) (env : σ)
    (moves : List (Move σ)) (h : (playFrom cfg env moves).any (fun w => P w) = true) :
    ∃ w₁ w, init (some cfg) ⟨Client.zero σ, env, []⟩ = .ok (.ok (), w₁) ∧
      w₁.client.setup = cfg.client.setup ∧ play moves w₁ = .ok (.ok (), w) ∧ P w := by
  unfold playFrom at h
  split at h
  · next w₁ hinit =>
    split at h
    · next w hplay =>
      exact ⟨w₁, w, hinit, init_setup hinit, hplay, by simpa using h⟩
    · simp at h
  · simp at h

end Aemlib
