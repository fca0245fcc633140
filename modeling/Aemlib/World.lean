import Aemlib.Proto.Decode
import Aemlib.Proto.Encode

/-!
# The client, its platform and the trace (`include/aemlib/aemlib.h`, `platform/*.h`)

The user supplies a transport, a clock and a message callback as function pointers over one
context. Here they are functions over an arbitrary environment state `σ`: any transport, any clock
and any correlation between them is some `σ` with some functions on it. A NULL pointer is `none`.

A program of the library runs on a `World`: the client structure, the environment, and a *trace*
of what has happened, newest first. The trace has no counterpart in the source. It records every
call that leaves the library (transport, clock, callback) with its result, and it marks four
points inside the library that properties of whole runs refer to: `aemlib_connect` was called, a
send path is about to encode a packet, a send was refused, a send reported OK. Marks are written
and never read by the code.
-/

namespace Aemlib

open Machine

/-! ## Interfaces -/

/-- What a transport `read` reports: a status and the `out_len` bytes now at the caller's
pointer. -/
structure ReadResult where
  status : Status
  data : List UInt8
  deriving DecidableEq, Repr

/-- What a transport `write` reports: a status and `out_len`. -/
structure WriteResult where
  status : Status
  outLen : Nat
  deriving DecidableEq, Repr

/-- `aemlib_transport_t`. `read` is asked for at most the given number of bytes; `write` is
offered the given bytes. -/
structure Transport (σ : Type) where
  connect : Option (σ → Status × σ)
  disconnect : Option (σ → Status × σ)
  read : Option (σ → Nat → ReadResult × σ)
  write : Option (σ → List UInt8 → WriteResult × σ)

def Transport.validate {σ : Type} (t : Transport σ) : Bool :=
  t.connect.isSome && t.disconnect.isSome && t.read.isSome && t.write.isSome

inductive State where
  | disconnected
  | connecting
  | mqttConnectSent
  | mqttConnected
  | mqttDisconnecting
  deriving DecidableEq, Repr

/-- The calls a user may make on a client at any time, also from inside the message callback.
A topic is a C string without its NUL; an object in memory is at most `PTRDIFF_MAX` bytes. -/
inductive Request where
  | connect
  | disconnect
  | publish (topic : { t : List UInt8 // t.length < 2 ^ 63 }) (payload : List UInt8) (qos : Int)
  | subscribe (topic : { t : List UInt8 // t.length < 2 ^ 63 }) (qos : Int)

/-- `aemlib_message_fn`: told a topic and a payload, the callback updates the environment and
makes the calls of a finite list on the same client, in order. -/
abbrev MessageFn (σ : Type) := σ → List UInt8 → List UInt8 → List Request × σ

/-- `aemlib_client_t`. The reserved `storage` interface is read by nothing and left out. The
buffers are the user's memory that the pointers own. -/
structure Client (σ : Type) where
  state : State
  transport : Transport σ
  nowMs : Option (σ → UInt64 × σ)
  txBuffer : List UInt8
  txBufferSize : Nat
  rxBuffer : List UInt8
  rxBufferSize : Nat
  lastActivityMs : UInt64
  keepaliveIntervalMs : UInt64
  packetId : UInt16
  connectSent : Bool
  txPendingLen : Nat
  rxLen : Nat
  onMessage : Option (MessageFn σ)

/-- `memset(client, 0, sizeof(*client))` -/
def Client.zero (σ : Type) : Client σ where
  state := .disconnected
  transport := { connect := none, disconnect := none, read := none, write := none }
  nowMs := none
  txBuffer := []
  txBufferSize := 0
  rxBuffer := []
  rxBufferSize := 0
  lastActivityMs := 0
  keepaliveIntervalMs := 0
  packetId := 0
  connectSent := false
  txPendingLen := 0
  rxLen := 0
  onMessage := none

/-- `aemlib_config_t`. A buffer that is not NULL has as many bytes as its size says, and the size
is a `size_t`: the caller's side of the contract. -/
structure Config (σ : Type) where
  txBuffer : Option (List UInt8)
  txBufferSize : Nat
  rxBuffer : Option (List UInt8)
  rxBufferSize : Nat
  transport : Transport σ
  nowMs : Option (σ → UInt64 × σ)
  keepaliveIntervalMs : UInt64
  onMessage : Option (MessageFn σ)
  txOwned : ∀ b, txBuffer = some b → b.length = txBufferSize
  rxOwned : ∀ b, rxBuffer = some b → b.length = rxBufferSize
  txSizeLt : txBufferSize < 2 ^ 64
  rxSizeLt : rxBufferSize < 2 ^ 64

/-! ## The trace -/

/-- What a trace records. -/
inductive Event where
  /-- `aemlib_init` started over with this memory. -/
  | init
  /-- The transport's connect callback returned. -/
  | connect (status : Status)
  /-- The transport's disconnect callback returned. -/
  | disconnect (status : Status)
  /-- The transport's read callback, asked for `len` bytes, returned. -/
  | read (len : Nat) (result : ReadResult)
  /-- The transport's write callback, offered `data`, returned. -/
  | write (data : List UInt8) (result : WriteResult)
  /-- The clock was read. -/
  | now (ms : UInt64)
  /-- The message callback was told a topic and a payload. -/
  | message (topic payload : List UInt8)
  /-- `aemlib_connect` was called in state `s` with `pending` bytes staged. -/
  | connectCall (s : State) (pending : Nat)
  /-- A send path is about to encode `p` into `tx_buffer`, in state `s` with `pending` bytes
  staged there. -/
  | encode (s : State) (pending : Nat) (p : Proto.Packet)
  /-- A send of `p` was refused with `WOULD_BLOCK`, leaving `staged` in `tx_buffer`. -/
  | refused (p : Proto.Packet) (staged : List UInt8)
  /-- A send of `p` reported OK. -/
  | sent (p : Proto.Packet)
  deriving DecidableEq, Repr

/-- A client in its environment, with the events so far (newest first). -/
structure World (σ : Type) where
  client : Client σ
  env : σ
  trace : List Event

/-- A piece of the library: it faults, returns a status other than OK, or returns OK. -/
abbrev Api (σ : Type) := Prog Fault Status (World σ)

variable {σ : Type}

def getClient : Api σ (Client σ) := do return (← get).client

def modifyClient (f : Client σ → Client σ) : Api σ Unit :=
  modify fun w => { w with client := f w.client }

def mark (e : Event) : Api σ Unit := modify fun w => { w with trace := e :: w.trace }

@[simp] theorem run_getClient_bind {β : Type} (f : Client σ → Api σ β) (w : World σ) :
    (getClient >>= f) w = f w.client w := rfl

@[simp] theorem run_modifyClient (f : Client σ → Client σ) (w : World σ) :
    modifyClient f w = .ok (.ok (), { w with client := f w.client }) := rfl

@[simp] theorem run_modifyClient_bind {β : Type} (f : Client σ → Client σ) (g : Unit → Api σ β)
    (w : World σ) : (modifyClient f >>= g) w = g () { w with client := f w.client } := rfl

@[simp] theorem run_mark (e : Event) (w : World σ) :
    mark e w = .ok (.ok (), { w with trace := e :: w.trace }) := rfl

@[simp] theorem run_mark_bind {β : Type} (e : Event) (g : Unit → Api σ β) (w : World σ) :
    (mark e >>= g) w = g () { w with trace := e :: w.trace } := rfl

/-! ## Calls that leave the library -/

def transportConnect : Api σ Status := do
  let w ← get
  match w.client.transport.connect with
  | none => return mkStatus .io .invalidArg
  | some f =>
    let (status, env) := f w.env
    set { w with env := env, trace := .connect status :: w.trace }
    return status

/-- `aemlib_transport_disconnect`; no caller looks at its status. -/
def transportDisconnect : Api σ Unit := do
  let w ← get
  match w.client.transport.disconnect with
  | none => return ()
  | some f =>
    let (status, env) := f w.env
    set { w with env := env, trace := .disconnect status :: w.trace }

/-- `aemlib_transport_read` into `rx_buffer` at offset `off`: the callback stores its bytes there,
and a callback that reports more than fits has written past the buffer. -/
def transportRead (off len : Nat) : Api σ ReadResult := do
  let w ← get
  match w.client.transport.read with
  | none => return { status := mkStatus .io .invalidArg, data := [] }
  | some f =>
    let (result, env) := f w.env len
    let buf ← Prog.ofExcept (store w.client.rxBuffer off result.data)
    set { w with client := { w.client with rxBuffer := buf }, env := env,
                 trace := .read len result :: w.trace }
    return result

/-- `aemlib_transport_write` of the first `len` bytes of `tx_buffer`. -/
def transportWrite (len : Nat) : Api σ WriteResult := do
  let w ← get
  match w.client.transport.write with
  | none => return { status := mkStatus .io .invalidArg, outLen := 0 }
  | some f =>
    let data ← Prog.ofExcept (load w.client.txBuffer 0 len)
    let (result, env) := f w.env data
    set { w with env := env, trace := .write data result :: w.trace }
    return result

def timeNow : Api σ UInt64 := do
  let w ← get
  match w.client.nowMs with
  | none => return 0
  | some f =>
    let (ms, env) := f w.env
    set { w with env := env, trace := .now ms :: w.trace }
    return ms

end Aemlib
