import Aemlib.Core

/-!
# The client layer (`core/client.c`)

Sending, receiving and the public API. `tx_buffer` has two uses that this layer has to keep apart
and does not: an encoder writes every packet at its front, and the unsent rest of an earlier packet
is staged at its front as well. All four send paths are one function here, `encodeAndSend`, because
in the source they differ in the packet alone.

A NULL `client` argument is not modelled.
-/

namespace Aemlib

open Machine

variable {σ : Type}

/-! ## Sending -/

/-- How many of the bytes it was offered a write that is not a hard error has taken, as the
library counts them. -/
def WriteResult.written (result : WriteResult) : Nat :=
  if WouldBlock result.status then 0 else result.outLen

/-- `client_send` of the first `len` bytes of `tx_buffer`, which encode `p`. -/
def clientSend (p : Proto.Packet) (len : Nat) : Api σ Unit := do
  let c ← getClient
  if c.txPendingLen > 0 then
    mark (.refused p (c.txBuffer.take c.txPendingLen))
    throw ioWouldBlock
  let result ← transportWrite len
  if HardError result.status then
    throw result.status
  if result.written < len then
    let remaining ← Prog.ofExcept (checkedSub len result.written)
    let buf ← Prog.ofExcept (move c.txBuffer 0 result.written remaining)
    modifyClient fun c => { c with txBuffer := buf, txPendingLen := remaining }
  mark (.sent p)

def clientFlushPending : Api σ Unit := do
  let c ← getClient
  if c.txPendingLen = 0 then
    return ()
  let result ← transportWrite c.txPendingLen
  if HardError result.status then
    throw result.status
  if result.written > 0 then
    let left ← Prog.ofExcept (checkedSub c.txPendingLen result.written)
    modifyClient fun c => { c with txPendingLen := left }
    if left > 0 then
      let buf ← Prog.ofExcept (move c.txBuffer 0 result.written left)
      modifyClient fun c => { c with txBuffer := buf }

/-- What every send path does: encode `p` at the front of `tx_buffer`, then `client_send` it. An
encoder that fails has already written what it wrote. -/
def encodeAndSend (p : Proto.Packet) : Api σ Unit := do
  let c ← getClient
  mark (.encode c.state c.txPendingLen p)
  let (result, e) ← Prog.ofExcept
    (p.encode c.txBufferSize { buf := c.txBuffer, offset := 0, outLen := 0 })
  modifyClient fun c => { c with txBuffer := e.buf }
  match result with
  | .error status => throw status
  | .ok () => clientSend p e.outLen

/-- The CONNECT packet of a client: no client id, the keepalive in whole seconds cut to 16 bits. -/
def Client.connectPacket (c : Client σ) : Proto.Packet :=
  .connect [] (c.keepaliveIntervalMs / 1000).toUInt16

def clientSendConnect : Api σ Unit := do
  let c ← getClient
  encodeAndSend c.connectPacket

def clientSendPing : Api σ Unit := encodeAndSend .pingreq

/-! ## Requests -/

def connect : Api σ Unit := do
  let c ← getClient
  mark (.connectCall c.state c.txPendingLen)
  -- discard anything left over from a previous connection attempt
  modifyClient fun c => { c with txPendingLen := 0, rxLen := 0 }
  Core.connect

def disconnect : Api σ Unit := Core.disconnect

def publish (topic payload : List UInt8) (qos : Int) : Api σ Unit := do
  if qos ≠ 0 then
    throw (mkStatus .general .unsupported)
  encodeAndSend (.publish topic payload)

def subscribe (topic : List UInt8) (qos : Int) : Api σ Unit := do
  if qos ≠ 0 then
    throw (mkStatus .general .unsupported)
  let packetId ← nextPacketId
  encodeAndSend (.subscribe packetId topic)

def request : Request → Api σ Unit
  | .connect => connect
  | .disconnect => disconnect
  | .publish topic payload qos => publish topic payload qos
  | .subscribe topic qos => subscribe topic qos

/-! ## Receiving -/

/-- Call `on_message`; the requests it makes run before it returns. -/
def callOnMessage (onMessage : MessageFn σ) (topic payload : List UInt8) : Api σ Unit := do
  let w ← get
  let (requests, env) := onMessage w.env topic payload
  set { w with env := env, trace := .message topic payload :: w.trace }
  Prog.forAll request requests

def clientDispatchPacket (header : Proto.FixedHeader) (packetLen : Nat) : Api σ Unit := do
  match header.type with
  | .publish =>
    let c ← getClient
    match ← Prog.ofExcept (Proto.decodePublish c.rxBuffer packetLen header) with
    | .error status => throw status
    | .ok view =>
      match c.onMessage with
      | none => return ()
      | some onMessage =>
        let topic ← Prog.ofExcept (load c.rxBuffer view.topicStart view.topicLen)
        let payload ← Prog.ofExcept (load c.rxBuffer view.payloadStart view.payloadLen)
        callOnMessage onMessage topic payload
  | _ => return ()

/-- The loop of `client_read`. Every turn but the last consumes a packet, so `rx_len + 1` turns are
enough; to need more is a fault. -/
def clientReadLoop : (fuel : Nat) → Api σ Unit
  | 0 => Prog.ofExcept (.error .outOfFuel)
  | fuel + 1 => do
    let c ← getClient
    if c.rxLen = 0 then
      return ()
    match ← Prog.ofExcept (Proto.decodeFixedHeader c.rxBuffer c.rxLen) with
    | .error status =>
      if TooSmall status then
        if c.rxLen = c.rxBufferSize then
          throw bufferTooSmall
        return () -- wait for more bytes
      throw status
    | .ok header =>
      if header.packetLen > c.rxBufferSize then
        throw bufferTooSmall
      if header.packetLen > c.rxLen then
        return () -- full packet not buffered yet
      clientDispatchPacket header header.packetLen
      consume header.packetLen
      clientReadLoop fuel

def clientRead : Api σ Unit := do
  let status ← readMore
  if HardError status then
    throw status
  let c ← getClient
  clientReadLoop (c.rxLen + 1)

/-! ## The public API -/

def init (config : Option (Config σ)) : Api σ Unit := do
  modify fun w => { w with client := Client.zero σ, trace := .init :: w.trace }
  Core.init config

/-- `aemlib_poll` in `MQTT_CONNECT_SENT`: send CONNECT once. -/
def pollConnectSent : Api σ Unit := do
  let c ← getClient
  if ¬ c.connectSent then
    clientSendConnect
    modifyClient fun c => { c with connectSent := true }

/-- `aemlib_poll` in `MQTT_CONNECTED`, behind the reading: the keepalive. -/
def keepalive : Api σ Unit := do
  let now ← timeNow
  let c ← getClient
  if now - c.lastActivityMs ≥ c.keepaliveIntervalMs then
    clientSendPing
    modifyClient fun c => { c with lastActivityMs := now }

def poll : Api σ Unit := do
  clientFlushPending
  Core.poll
  let c ← getClient
  match c.state with
  | .mqttConnectSent => pollConnectSent
  | .mqttConnected =>
    clientRead
    keepalive
  | _ => return ()

end Aemlib
