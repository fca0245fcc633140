import Aemlib.Run

/-!
# The trace is ghost state

The library writes the trace and never reads it: putting other events in its past passes through
every call (`call_passes`). So what a run does — its statuses, the bytes it hands to the transport,
the messages, the client it leaves — depends on the client and the environment alone
(`run_of_past`).
-/

namespace Aemlib

open Machine Prog

variable {σ α : Type}

def World.over (past : List Event) (w : World σ) : World σ := ⟨w.client, w.env, w.trace ++ past⟩

@[simp] theorem over_client (past : List Event) (w : World σ) : (w.over past).client = w.client :=
  rfl

@[simp] theorem over_env (past : List Event) (w : World σ) : (w.over past).env = w.env := rfl

section

variable {past : List Event}

/-! ## What leaves the library -/

theorem getClient_passes : Passes (World.over past) (getClient : Api σ (Client σ)) := fun _ => rfl

theorem modifyClient_passes (f : Client σ → Client σ) :
    Passes (World.over past) (modifyClient f) := fun _ => rfl

theorem mark_passes (e : Event) : Passes (World.over past) (mark e : Api σ Unit) := fun _ => rfl

theorem transportConnect_passes : Passes (World.over past) (transportConnect : Api σ Status) := by
  intro w
  unfold transportConnect
  simp only [run_get_bind, over_client]
  cases w.client.transport.connect with
  | none => rfl
  | some f => rfl

theorem transportDisconnect_passes :
    Passes (World.over past) (transportDisconnect : Api σ Unit) := by
  intro w
  unfold transportDisconnect
  simp only [run_get_bind, over_client]
  cases w.client.transport.disconnect with
  | none => rfl
  | some f => rfl

theorem transportRead_passes (off len : Nat) :
    Passes (World.over past) (transportRead off len : Api σ ReadResult) := by
  intro w
  unfold transportRead
  simp only [run_get_bind, over_client, over_env]
  cases w.client.transport.read with
  | none => rfl
  | some f =>
    dsimp only
    cases store w.client.rxBuffer off (f w.env len).1.data with
    | error fault => rfl
    | ok buf => rfl

theorem transportWrite_passes (len : Nat) :
    Passes (World.over past) (transportWrite len : Api σ WriteResult) := by
  intro w
  unfold transportWrite
  simp only [run_get_bind, over_client, over_env]
  cases w.client.transport.write with
  | none => rfl
  | some f =>
    dsimp only
    cases load w.client.txBuffer 0 len with
    | error fault => rfl
    | ok data => rfl

theorem timeNow_passes : Passes (World.over past) (timeNow : Api σ UInt64) := by
  intro w
  unfold timeNow
  simp only [run_get_bind, over_client]
  cases w.client.nowMs with
  | none => rfl
  | some f => rfl

/-! ## Sending -/

theorem clientSend_passes (p : Proto.Packet) (len : Nat) :
    Passes (World.over past) (clientSend p len : Api σ Unit) := by
  apply getClient_passes.bind
  intro c
  apply Passes.ite
  · apply (mark_passes _).bind
    intro _
    exact passes_throw _
  · apply (transportWrite_passes len).bind
    intro result
    apply Passes.ite
    · exact passes_throw _
    · apply Passes.ite
      · apply (passes_ofExcept _).bind
        intro remaining
        apply (passes_ofExcept _).bind
        intro buf
        exact (modifyClient_passes _).bind fun _ => mark_passes _
      · exact mark_passes _

theorem clientFlushPending_passes :
    Passes (World.over past) (clientFlushPending : Api σ Unit) := by
  apply getClient_passes.bind
  intro c
  apply Passes.ite
  · exact passes_pure _
  · apply (transportWrite_passes _).bind
    intro result
    apply Passes.ite
    · exact passes_throw _
    · apply Passes.ite
      · apply (passes_ofExcept _).bind
        intro left
        apply (modifyClient_passes _).bind
        intro _
        apply Passes.ite
        · exact (passes_ofExcept _).bind fun _ => modifyClient_passes _
        · exact passes_pure _
      · exact passes_pure _

theorem encodeAndSend_passes (p : Proto.Packet) :
    Passes (World.over past) (encodeAndSend p : Api σ Unit) := by
  apply getClient_passes.bind
  intro c
  apply (mark_passes _).bind
  intro _
  apply (passes_ofExcept _).bind
  intro encoded
  apply (modifyClient_passes _).bind
  intro _
  cases encoded.1 with
  | error status => exact passes_throw _
  | ok u => exact clientSend_passes p _

/-! ## Requests -/

theorem connect_passes : Passes (World.over past) (connect : Api σ Unit) := by
  apply getClient_passes.bind
  intro c
  apply (mark_passes _).bind
  intro _
  apply (modifyClient_passes _).bind
  intro _
  apply getClient_passes.bind
  intro c
  exact Passes.ite (passes_throw _) (modifyClient_passes _)

theorem disconnect_passes : Passes (World.over past) (disconnect : Api σ Unit) := by
  apply getClient_passes.bind
  intro c
  exact Passes.ite (passes_throw _) (modifyClient_passes _)

theorem request_passes (q : Request) : Passes (World.over past) (request q : Api σ Unit) := by
  cases q with
  | connect => exact connect_passes
  | disconnect => exact disconnect_passes
  | publish topic payload qos => exact Passes.ite (passes_throw _) (encodeAndSend_passes _)
  | subscribe topic qos =>
    apply Passes.ite (passes_throw _)
    apply Passes.bind
    · apply getClient_passes.bind
      intro c
      exact (modifyClient_passes _).bind fun _ => passes_pure _
    · intro packetId
      exact encodeAndSend_passes _

/-! ## Receiving -/

theorem readMore_passes : Passes (World.over past) (readMore : Api σ Status) := by
  apply getClient_passes.bind
  intro c
  apply (passes_ofExcept _).bind
  intro room
  apply (transportRead_passes _ _).bind
  intro result
  apply Passes.ite
  · exact passes_pure _
  · exact (modifyClient_passes _).bind fun _ => passes_pure _

theorem consume_passes (packetLen : Nat) :
    Passes (World.over past) (consume packetLen : Api σ Unit) := by
  apply getClient_passes.bind
  intro c
  apply (passes_ofExcept _).bind
  intro left
  apply (modifyClient_passes _).bind
  intro _
  apply Passes.ite
  · exact (passes_ofExcept _).bind fun _ => modifyClient_passes _
  · exact passes_pure _

theorem callOnMessage_passes (onMessage : MessageFn σ) (topic payload : List UInt8) :
    Passes (World.over past) (callOnMessage onMessage topic payload) := by
  intro w
  exact passes_forAll request_passes (onMessage w.env topic payload).1
    ⟨w.client, (onMessage w.env topic payload).2, .message topic payload :: w.trace⟩

theorem clientDispatchPacket_passes (header : Proto.FixedHeader) (packetLen : Nat) :
    Passes (World.over past) (clientDispatchPacket header packetLen : Api σ Unit) := by
  unfold clientDispatchPacket
  cases header.type with
  | publish =>
    apply getClient_passes.bind
    intro c
    apply (passes_ofExcept _).bind
    intro decoded
    cases decoded with
    | error status => exact passes_throw _
    | ok view =>
      cases c.onMessage with
      | none => exact passes_pure _
      | some onMessage =>
        apply (passes_ofExcept _).bind
        intro topic
        apply (passes_ofExcept _).bind
        intro payload
        exact callOnMessage_passes onMessage topic payload
  | _ => exact passes_pure _

theorem clientReadLoop_passes (fuel : Nat) :
    Passes (World.over past) (clientReadLoop fuel : Api σ Unit) := by
  induction fuel with
  | zero => exact passes_ofExcept _
  | succ fuel ih =>
    apply getClient_passes.bind
    intro c
    apply Passes.ite (passes_pure _)
    apply (passes_ofExcept _).bind
    intro decoded
    cases decoded with
    | error status =>
      apply Passes.ite
      · exact Passes.ite (passes_throw _) (passes_pure _)
      · exact passes_throw _
    | ok header =>
      apply Passes.ite (passes_throw _)
      apply Passes.ite (passes_pure _)
      apply (clientDispatchPacket_passes _ _).bind
      intro _
      exact (consume_passes _).bind fun _ => ih

theorem clientRead_passes : Passes (World.over past) (clientRead : Api σ Unit) := by
  apply readMore_passes.bind
  intro status
  apply Passes.ite (passes_throw _)
  apply getClient_passes.bind
  intro c
  exact clientReadLoop_passes _

/-! ## The calls -/

theorem dropTransport_passes : Passes (World.over past) (dropTransport : Api σ Unit) :=
  transportDisconnect_passes.bind fun _ => modifyClient_passes _

theorem stamp_passes : Passes (World.over past)
    (timeNow >>= fun now => modifyClient fun c => { c with lastActivityMs := now } :
      Api σ Unit) :=
  timeNow_passes.bind fun _ => modifyClient_passes _

theorem handleStateConnecting_passes :
    Passes (World.over past) (handleStateConnecting : Api σ Unit) := by
  apply transportConnect_passes.bind
  intro status
  apply Passes.ite
  · exact (modifyClient_passes _).bind fun _ => stamp_passes
  · apply Passes.ite (passes_pure _)
    exact (modifyClient_passes _).bind fun _ => passes_throw _

theorem answerConnack_passes (packetLen : Nat) :
    Passes (World.over past) (answerConnack packetLen : Api σ Unit) := by
  apply getClient_passes.bind
  intro c
  apply (passes_ofExcept _).bind
  intro connack
  apply (consume_passes _).bind
  intro _
  apply Passes.ite
  · exact (modifyClient_passes _).bind fun _ => stamp_passes
  · exact dropTransport_passes.bind fun _ => passes_throw _

theorem checkConnack_passes : Passes (World.over past) (checkConnack : Api σ Bool) := by
  apply getClient_passes.bind
  intro c
  apply Passes.ite (passes_pure _)
  apply (passes_ofExcept _).bind
  intro decoded
  cases decoded with
  | error status =>
    apply Passes.ite
    · exact dropTransport_passes.bind fun _ => passes_throw _
    · exact passes_pure _
  | ok header =>
    apply Passes.ite
    · exact dropTransport_passes.bind fun _ => passes_throw _
    apply Passes.ite
    · exact dropTransport_passes.bind fun _ => passes_throw _
    apply Passes.ite
    · exact (answerConnack_passes _).bind fun _ => passes_pure _
    · exact passes_pure _

theorem checkConnackTimeout_passes :
    Passes (World.over past) (checkConnackTimeout : Api σ Unit) := by
  apply timeNow_passes.bind
  intro now
  apply getClient_passes.bind
  intro c
  apply Passes.ite
  · exact dropTransport_passes.bind fun _ => passes_throw _
  · exact passes_pure _

theorem handleStateMqttConnectSent_passes :
    Passes (World.over past) (handleStateMqttConnectSent : Api σ Unit) := by
  apply readMore_passes.bind
  intro status
  apply Passes.ite
  · exact dropTransport_passes.bind fun _ => passes_throw _
  apply checkConnack_passes.bind
  intro answered
  exact Passes.ite (passes_pure _) checkConnackTimeout_passes

theorem corePoll_passes : Passes (World.over past) (Core.poll : Api σ Unit) := by
  apply getClient_passes.bind
  intro c
  cases c.state with
  | disconnected => exact passes_pure _
  | connecting => exact handleStateConnecting_passes
  | mqttConnectSent => exact handleStateMqttConnectSent_passes
  | mqttConnected => exact passes_pure _
  | mqttDisconnecting => exact dropTransport_passes

theorem pollConnectSent_passes : Passes (World.over past) (pollConnectSent : Api σ Unit) := by
  apply getClient_passes.bind
  intro c
  apply Passes.ite
  · apply Passes.bind
    · exact getClient_passes.bind fun c => encodeAndSend_passes _
    · exact fun _ => modifyClient_passes _
  · exact passes_pure _

theorem keepalive_passes : Passes (World.over past) (keepalive : Api σ Unit) := by
  apply timeNow_passes.bind
  intro now
  apply getClient_passes.bind
  intro c
  apply Passes.ite
  · exact (encodeAndSend_passes _).bind fun _ => modifyClient_passes _
  · exact passes_pure _

theorem poll_passes : Passes (World.over past) (poll : Api σ Unit) := by
  apply clientFlushPending_passes.bind
  intro _
  apply corePoll_passes.bind
  intro _
  apply getClient_passes.bind
  intro c
  cases c.state with
  | mqttConnectSent => exact pollConnectSent_passes
  | mqttConnected => exact clientRead_passes.bind fun _ => keepalive_passes
  | disconnected => exact passes_pure _
  | connecting => exact passes_pure _
  | mqttDisconnecting => exact passes_pure _

theorem init_passes (config : Option (Config σ)) : Passes (World.over past) (init config) := by
  have hcore : Passes (World.over past) (Core.init config) := by
    apply Passes.ite (passes_throw _)
    apply Passes.bind
    · cases config with
      | none => exact passes_throw _
      | some cfg =>
        unfold applyConfig
        exact modifyClient_passes _
    · intro _
      exact (modifyClient_passes _).bind fun _ => stamp_passes
  intro w
  exact hcore ⟨Client.zero σ, w.env, .init :: w.trace⟩

theorem call_passes (c : Call σ) : Passes (World.over past) (call c) := by
  cases c with
  | init config => exact init_passes config
  | request q => exact request_passes q
  | poll => exact poll_passes

theorem run_passes (calls : List (Call σ)) : Passes (World.over past) (run calls) :=
  passes_forAll call_passes calls

end

/-- **What a run does does not depend on the past of the trace.** From the same client and
environment the same calls answer the same, leave the same client and environment and add the same
events. -/
theorem run_of_past (calls : List (Call σ)) (c : Client σ) (env : σ) :
    (∃ fault, ∀ past, run calls ⟨c, env, past⟩ = .error fault) ∨
    (∃ r c' env' new, ∀ past, run calls ⟨c, env, past⟩ = .ok (r, ⟨c', env', new ++ past⟩)) := by
  have hover : ∀ past, run calls ⟨c, env, past⟩ =
      (run calls ⟨c, env, []⟩).map fun q => (q.1, q.2.over past) :=
    fun past => run_passes calls ⟨c, env, []⟩
  cases hrun : run calls ⟨c, env, []⟩ with
  | error fault =>
    refine Or.inl ⟨fault, ?_⟩
    intro past
    rw [hover, hrun]
    rfl
  | ok q =>
    refine Or.inr ⟨q.1, q.2.client, q.2.env, q.2.trace, ?_⟩
    intro past
    rw [hover, hrun]
    rfl

end Aemlib
