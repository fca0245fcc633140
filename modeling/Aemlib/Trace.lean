import Aemlib.Machine.History
import Aemlib.Run

/-!
# Reading a trace

A property of a whole run is a statement about its trace. The functions here read off what the
properties are about: which events belong to the current connection, what the transport has taken,
which packets were reported as sent. A trace is newest first, so each is a recursion that looks at
the last event and then at what was before it.
-/

namespace Aemlib

open Machine Proto

variable {σ : Type}

/-! ## Parts of a trace -/

/-- The events since the last `aemlib_init`. -/
def sinceInit : List Event → List Event
  | [] => []
  | .init :: _ => []
  | e :: t => e :: sinceInit t

/-- The events since the transport last connected. -/
def sinceOpen : List Event → List Event
  | [] => []
  | .init :: _ => []
  | .connect status :: t => if status = statusOk then [] else .connect status :: sinceOpen t
  | e :: t => e :: sinceOpen t

/-- The events since the last `aemlib_connect` that found the client `DISCONNECTED`, or since
`aemlib_init`. -/
def sinceConnect : List Event → List Event
  | [] => []
  | .init :: _ => []
  | .connectCall .disconnected _ :: _ => []
  | e :: t => e :: sinceConnect t

def World.connection (w : World σ) : List Event := sinceConnect w.trace

theorem sinceOpen_connect {status : Status} (h : status ≠ statusOk) (t : List Event) :
    sinceOpen (.connect status :: t) = .connect status :: sinceOpen t := if_neg h

/-- `aemlib_connect` in any other state is refused and does not begin a connection. -/
theorem sinceConnect_connectRefused {s : State} (hs : s ≠ .disconnected) (n : Nat)
    (t : List Event) :
    sinceConnect (.connectCall s n :: t) = .connectCall s n :: sinceConnect t := by
  cases s <;> first | exact absurd rfl hs | rfl

/-! ## Outbound -/

def accepted : List Event → List UInt8
  | [] => []
  | .write data res :: t => accepted t ++ res.taken data
  | _ :: t => accepted t

def sentPackets : List Event → List Packet
  | [] => []
  | .sent p :: t => sentPackets t ++ [p]
  | _ :: t => sentPackets t

theorem WriteResult.taken_of_hardError {res : WriteResult} {data : List UInt8}
    (h : HardError res.status) : res.taken data = [] := if_neg h.1

/-- What a write took and what the library keeps of the data make up the data. -/
theorem WriteResult.taken_append_drop {res : WriteResult} (h : ¬ HardError res.status)
    (data : List UInt8) : res.taken data ++ data.drop res.written = data := by
  rw [WriteResult.written_eq h, WriteResult.taken]
  split
  · exact List.take_append_drop _ _
  · rfl

theorem accepted_append (t past : List Event) :
    accepted (t ++ past) = accepted past ++ accepted t := by
  induction t with
  | nil => rw [List.nil_append, accepted, List.append_nil]
  | cons e t ih =>
    cases e with
    | write data res => simp only [List.cons_append, accepted, ih, List.append_assoc]
    | _ => exact ih

/-! ## Inbound -/

def inbound : List Event → List UInt8
  | [] => []
  | .read _ res :: t => inbound t ++ res.taken
  | _ :: t => inbound t

/-- The messages handed to `on_message`, oldest first. -/
def messages : List Event → List (List UInt8 × List UInt8)
  | [] => []
  | .message topic payload :: t => messages t ++ [(topic, payload)]
  | _ :: t => messages t

theorem inbound_append (t past : List Event) :
    inbound (t ++ past) = inbound past ++ inbound t := by
  induction t with
  | nil => rw [List.nil_append, inbound, List.append_nil]
  | cons e t ih =>
    cases e with
    | read len res => simp only [List.cons_append, inbound, ih, List.append_assoc]
    | _ => exact ih

theorem messages_append (t past : List Event) :
    messages (t ++ past) = messages past ++ messages t := by
  induction t with
  | nil => rw [List.nil_append, messages, List.append_nil]
  | cons e t ih =>
    cases e with
    | message topic payload => simp only [List.cons_append, messages, ih, List.append_assoc]
    | _ => exact ih

def Event.isConnectCall : Event → Bool
  | .connectCall _ _ => true
  | _ => false

end Aemlib
