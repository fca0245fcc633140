import Mathlib.Data.List.Chain
import Aemlib.Behaviour.Handshake

/-!
# Time in a run

What the clock has shown is in the trace, and so is what the keepalive made of it. The *beats* of a
connection are the clock readings that start the ping timer: that at which the CONNACK was accepted
and those at which a PINGREQ was sent. Here they are read off a trace, and it is said what it means
that a client is on schedule, and that a piece of the library keeps it there.
-/

namespace Aemlib

open Machine Proto

variable {σ : Type}

/-! ## Time in a trace -/

def clockAt : List Event → UInt64
  | [] => 0
  | .now ms :: _ => ms
  | _ :: t => clockAt t

/-- A reading of the clock is not earlier than the one before it. -/
def Event.Onward (past : List Event) : Event → Prop
  | .now ms => clockAt past ≤ ms
  | _ => True

instance (past : List Event) : DecidablePred (Event.Onward past)
  | .now _ => inferInstanceAs (Decidable (_ ≤ _))
  | .read _ _ | .encode _ _ _ | .connectCall _ _ | .init | .connect _ | .disconnect _ | .write _ _
  | .message _ _ | .refused _ _ | .sent _ => inferInstanceAs (Decidable True)

/-- Since the last `aemlib_init` the clock has not run backwards. -/
abbrev ClockOnward (trace : List Event) : Prop :=
  Throughout (fun e past => e.Onward past) (sinceInit trace)

/-- The clock readings at which a PINGREQ was reported as sent, newest first. -/
def pingTimes : List Event → List UInt64
  | [] => []
  | .sent .pingreq :: t => clockAt t :: pingTimes t
  | _ :: t => pingTimes t

/-- The clock reading at which the CONNACK was accepted: the first one made when the bytes received
begin with a CONNACK that the wait accepts, for an `rx_buffer` of `size` bytes. -/
def connackAt (size : Nat) : List Event → Option UInt64
  | [] => none
  | .now ms :: t =>
    match connackAt size t with
    | some at_ => some at_
    | none => if (connackVerdict size (received t)).accepts then some ms else none
  | _ :: t => connackAt size t

/-- The clock readings that start the ping timer, newest first. -/
def beats (size : Nat) (connection : List Event) : List UInt64 :=
  pingTimes connection ++ (connackAt size connection).toList

/-! ## What a schedule is read off -/

/-- The time and the current connection, as far as the keepalive is concerned. -/
structure Timing where
  clock : UInt64
  pings : List UInt64
  connack : Option UInt64
  received : List UInt8

def timing (size : Nat) (trace : List Event) : Timing where
  clock := clockAt (sinceInit trace)
  pings := pingTimes (sinceConnect trace)
  connack := connackAt size (sinceConnect trace)
  received := received (sinceConnect trace)

/-- The CONNACK is taken for accepted at a reading of the clock. -/
def Timing.tick (τ : Timing) (size : Nat) (ms : UInt64) : Timing :=
  { τ with
    clock := ms
    connack :=
      match τ.connack with
      | some at_ => some at_
      | none => if (connackVerdict size τ.received).accepts then some ms else none }

theorem timing_now (size : Nat) (ms : UInt64) (t : List Event) :
    timing size (.now ms :: t) = (timing size t).tick size ms := rfl

theorem timing_read (size len : Nat) (res : ReadResult) (t : List Event) :
    timing size (.read len res :: t) =
      { timing size t with received := (timing size t).received ++ res.taken } := rfl

theorem timing_connectCall (size n : Nat) (t : List Event) :
    timing size (.connectCall .disconnected n :: t) = ⟨(timing size t).clock, [], none, []⟩ := rfl

theorem timing_connectRefused {s : State} (size n : Nat) (t : List Event) (hs : s ≠ .disconnected) :
    timing size (.connectCall s n :: t) = { timing size t with received := [] } := by
  cases s with
  | disconnected => exact absurd rfl hs
  | _ => rfl

/-- A PINGREQ that is sent, at the reading before it. -/
theorem timing_ping (size : Nat) (ms : UInt64) (s : State) (n : Nat) (data : List UInt8)
    (res : WriteResult) (t : List Event) :
    timing size (.sent .pingreq :: .write data res :: .encode s n .pingreq :: .now ms :: t) =
      { (timing size t).tick size ms with pings := ms :: (timing size t).pings } := rfl

/-- Is this an event the keepalive has nothing to do with? -/
def Event.isTimeless : Event → Bool
  | .init | .now _ | .read _ _ | .connectCall _ _ => false
  | .sent p => p ≠ .pingreq
  | _ => true

theorem timing_timeless {size : Nat} {t past : List Event} (h : ∀ e ∈ t, e.isTimeless = true) :
    timing size (t ++ past) = timing size past := by
  induction t with
  | nil => rfl
  | cons e t ih =>
    rw [← ih fun e' he' => h e' (List.mem_cons_of_mem e he')]
    have htimeless := h e List.mem_cons_self
    cases e with
    | init | now | read | connectCall => cases htimeless
    | sent p =>
      cases p with
      | pingreq => cases htimeless
      | _ => rfl
    | _ => rfl

/-- Without an `aemlib_init`, the clock has run onward before. -/
theorem ClockOnward.past {t past : List Event} (h : ClockOnward (t ++ past)) (ht : .init ∉ t) :
    ClockOnward past := by
  induction t with
  | nil => exact h
  | cons e t ih =>
    have hnot : .init ∉ t := fun hmem => ht (List.mem_cons_of_mem e hmem)
    cases e with
    | init => exact absurd List.mem_cons_self ht
    | _ => exact ih h.2 hnot

/-- A reading is not earlier than the clock showed before. -/
theorem ClockOnward.le {ms : UInt64} {t : List Event} (size : Nat)
    (h : ClockOnward (.now ms :: t)) : (timing size t).clock ≤ ms := h.1

/-! ## The schedule -/

/-- `later` is at least `interval` after `earlier`. -/
def Apart (interval : Nat) (later earlier : UInt64) : Prop :=
  earlier.toNat + interval ≤ later.toNat

def Timing.beats (τ : Timing) : List UInt64 := τ.pings ++ τ.connack.toList

/-- Pings come behind an accepted CONNACK, and all beats are apart. -/
structure Timing.Spaced (τ : Timing) (interval : Nat) : Prop where
  answered : τ.pings ≠ [] → τ.connack.isSome
  chain : τ.beats.IsChain (Apart interval)

/-- What the states of a client say about the timing: no beat before the CONNACK is accepted, and
from then on the time noted is that of the last one. -/
def Timing.Phase (τ : Timing) (interval : Nat) (stamp : UInt64) (held : List UInt8) : State → Prop
  | .disconnected => τ.Spaced interval
  | .connecting => held = [] ∧ τ.received = held ∧ τ.beats = []
  | .mqttConnectSent => τ.received = held ∧ τ.beats = []
  | .mqttConnected | .mqttDisconnecting =>
    τ.Spaced interval ∧ τ.connack.isSome ∧ τ.beats.head? = some stamp

structure World.OnSchedule (w : World σ) : Prop where
  stamp : w.client.lastActivityMs ≤ (timing w.client.rxBufferSize w.trace).clock
  phase : (timing w.client.rxBufferSize w.trace).Phase w.client.keepaliveIntervalMs.toNat
    w.client.lastActivityMs w.client.held w.client.state

theorem Timing.spaced_of_beats {τ : Timing} (interval : Nat) (h : τ.beats = []) :
    τ.Spaced interval := by
  obtain ⟨hpings, -⟩ := List.append_eq_nil_iff.mp h
  refine ⟨fun hne => absurd hpings hne, ?_⟩
  rw [h]
  exact .nil

/-- Without a beat there is neither a ping nor an accepted CONNACK. -/
theorem Timing.beats_eq_nil {τ : Timing} (h : τ.beats = []) : τ.pings = [] ∧ τ.connack = none := by
  obtain ⟨hpings, hconnack⟩ := List.append_eq_nil_iff.mp h
  exact ⟨hpings, Option.toList_eq_nil_iff.mp hconnack⟩

/-- A client may give up from any state. -/
theorem Timing.Phase.spaced {τ : Timing} {interval : Nat} {stamp : UInt64} {held : List UInt8}
    {s : State} (h : τ.Phase interval stamp held s) : τ.Spaced interval := by
  cases s with
  | disconnected => exact h
  | connecting => exact Timing.spaced_of_beats interval h.2.2
  | mqttConnectSent => exact Timing.spaced_of_beats interval h.2
  | mqttConnected => exact h.1
  | mqttDisconnecting => exact h.1

/-- Emptying the buffers forgets the bytes received and nothing else. -/
theorem Timing.Phase.emptied {τ : Timing} {interval : Nat} {stamp : UInt64} {held : List UInt8}
    {s : State} (h : τ.Phase interval stamp held s) :
    ({ τ with received := [] } : Timing).Phase interval stamp [] s := by
  cases s with
  | disconnected => exact ⟨h.answered, h.chain⟩
  | connecting => exact ⟨rfl, rfl, h.2.2⟩
  | mqttConnectSent => exact ⟨rfl, h.2⟩
  | mqttConnected | mqttDisconnecting => exact ⟨⟨h.1.answered, h.1.chain⟩, h.2⟩

/-- What a piece of the library does to a client on schedule, when it does not start over. -/
structure KeepsSchedule (w w' : World σ) : Prop where
  setup : w'.client.setup = w.client.setup
  trace : ∃ t, w'.trace = t ++ w.trace ∧ .init ∉ t
  schedule : ClockOnward w'.trace → w.OnSchedule → w'.OnSchedule

theorem KeepsSchedule.refl (w : World σ) : KeepsSchedule w w :=
  ⟨rfl, ⟨[], rfl, by simp⟩, fun _ hw => hw⟩

theorem KeepsSchedule.trans {w₁ w₂ w₃ : World σ} (h₁ : KeepsSchedule w₁ w₂)
    (h₂ : KeepsSchedule w₂ w₃) : KeepsSchedule w₁ w₃ := by
  obtain ⟨t₁, ht₁, hinit₁⟩ := h₁.trace
  obtain ⟨t₂, ht₂, hinit₂⟩ := h₂.trace
  refine ⟨h₂.setup.trans h₁.setup, ⟨t₂ ++ t₁, ?_, ?_⟩, fun honward hw => ?_⟩
  · rw [ht₂, ht₁, List.append_assoc]
  · rw [List.mem_append, not_or]
    exact ⟨hinit₂, hinit₁⟩
  · have hbefore : ClockOnward w₂.trace := by
      rw [ht₂] at honward
      exact honward.past hinit₂
    exact h₂.schedule honward (h₁.schedule hbefore hw)

/-- Code that leaves the state, the time noted and the bytes held alone, and the clock too. -/
theorem KeepsSchedule.of_timeless {w w' : World σ} {t : List Event}
    (hsetup : w'.client.setup = w.client.setup) (hstate : w'.client.state = w.client.state)
    (hstamp : w'.client.lastActivityMs = w.client.lastActivityMs)
    (hheld : w'.client.held = w.client.held) (ht : w'.trace = t ++ w.trace)
    (htimeless : ∀ e ∈ t, e.isTimeless = true) : KeepsSchedule w w' := by
  have hsize : w'.client.rxBufferSize = w.client.rxBufferSize :=
    congrArg Setup.rxBufferSize hsetup
  have hinterval : w'.client.keepaliveIntervalMs = w.client.keepaliveIntervalMs :=
    congrArg Setup.keepaliveIntervalMs hsetup
  have htiming : timing w'.client.rxBufferSize w'.trace =
      timing w.client.rxBufferSize w.trace := by
    rw [ht, hsize, timing_timeless htimeless]
  refine ⟨hsetup, ⟨t, ht, fun hmem => ?_⟩, fun _ hw => ⟨?_, ?_⟩⟩
  · cases htimeless _ hmem
  · rw [htiming, hstamp]
    exact hw.stamp
  · rw [htiming, hstamp, hheld, hstate, hinterval]
    exact hw.phase

end Aemlib
