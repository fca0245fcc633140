import Aemlib.World

/-!
# The core layer (`core/core.c`)

Configuration, the state machine's handlers and the two state-changing requests. A handler that
returns a status other than OK throws it, with the changes it made before kept.

Both receivers of the library — the CONNACK wait here, the packet loop in the client layer — begin
by reading into `rx_buffer` behind what is already there and end by moving what is left to the
front. The source spells the two out twice; they are `readMore` and `consume` here.
-/

namespace Aemlib

open Machine

variable {σ : Type}

def connackTimeoutMs : UInt64 := 5000

/-! ## Configuration -/

/-- `validate_config`. Storage is a reserved seam and is not looked at. -/
def validateConfig (config : Option (Config σ)) : Status :=
  match config with
  | none => invalidArg
  | some cfg =>
    if cfg.txBuffer.isNone ∨ cfg.txBufferSize = 0 then invalidArg
    else if cfg.rxBuffer.isNone ∨ cfg.rxBufferSize = 0 then invalidArg
    else if cfg.transport.validate = false then invalidArg
    else if cfg.nowMs.isNone then invalidArg
    else statusOk

/-- `apply_config`. A NULL buffer pointer, which `validate_config` has excluded, owns no bytes. -/
def applyConfig (config : Option (Config σ)) : Api σ Unit :=
  match config with
  | none => throw invalidArg
  | some cfg =>
    modifyClient fun c =>
      { c with
        transport := cfg.transport
        nowMs := cfg.nowMs
        txBuffer := cfg.txBuffer.getD []
        txBufferSize := cfg.txBufferSize
        rxBuffer := cfg.rxBuffer.getD []
        rxBufferSize := cfg.rxBufferSize
        keepaliveIntervalMs := cfg.keepaliveIntervalMs
        onMessage := cfg.onMessage }

def Core.init (config : Option (Config σ)) : Api σ Unit := do
  let status := validateConfig config
  if status ≠ statusOk then
    throw status
  applyConfig config
  modifyClient fun c => { c with packetId := 1, state := .disconnected }
  let now ← timeNow
  modifyClient fun c => { c with lastActivityMs := now }

/-! ## Requests -/

def Core.connect : Api σ Unit := do
  let c ← getClient
  if c.state ≠ .disconnected then
    throw stateInvalid
  modifyClient fun c => { c with state := .connecting, connectSent := false }

def Core.disconnect : Api σ Unit := do
  let c ← getClient
  if c.state ≠ .mqttConnected then
    throw stateInvalid
  modifyClient fun c => { c with state := .mqttDisconnecting }

def nextPacketId : Api σ UInt16 := do
  let c ← getClient
  let next := c.packetId + 1
  let id := if next = 0 then 1 else next
  modifyClient fun c => { c with packetId := id }
  return id

/-! ## Receiving -/

/-- Read into `rx_buffer` behind the bytes already there. `WOULD_BLOCK` counts as no bytes; a hard
error leaves `rx_len` alone, and what it means is up to the caller. -/
def readMore : Api σ Status := do
  let c ← getClient
  let room ← Prog.ofExcept (checkedSub c.rxBufferSize c.rxLen)
  let result ← transportRead c.rxLen room
  if HardError result.status then
    return result.status
  let read := if WouldBlock result.status then 0 else result.data.length
  modifyClient fun c => { c with rxLen := sizeAdd c.rxLen read }
  return result.status

def consume (packetLen : Nat) : Api σ Unit := do
  let c ← getClient
  let left ← Prog.ofExcept (checkedSub c.rxLen packetLen)
  modifyClient fun c => { c with rxLen := left }
  if left > 0 then
    let buf ← Prog.ofExcept (move c.rxBuffer 0 packetLen left)
    modifyClient fun c => { c with rxBuffer := buf }

/-! ## State handlers -/

/-- Close the transport and fall back to `DISCONNECTED`. -/
def dropTransport : Api σ Unit := do
  transportDisconnect
  modifyClient fun c => { c with state := .disconnected }

def handleStateConnecting : Api σ Unit := do
  let status ← transportConnect
  if status = statusOk then
    modifyClient fun c => { c with state := .mqttConnectSent }
    let now ← timeNow
    modifyClient fun c => { c with lastActivityMs := now }
  else if WouldBlock status then
    return ()
  else
    modifyClient fun c => { c with state := .disconnected }
    throw status

/-- `handle_state_mqtt_connect_sent`, a CONNACK that is complete: consume it, then connect or give
up. The decoder is handed the packet's bytes and length, not the header. -/
def answerConnack (packetLen : Nat) : Api σ Unit := do
  let c ← getClient
  let connack ← Prog.ofExcept (Proto.decodeConnack c.rxBuffer packetLen)
  consume packetLen
  let accepted : Bool :=
    match connack with
    | .ok (_, returnCode) => returnCode == 0
    | .error _ => false
  if accepted then
    modifyClient fun c => { c with state := .mqttConnected }
    let now ← timeNow
    modifyClient fun c => { c with lastActivityMs := now }
  else
    dropTransport
    throw (mkStatus .protocol .connect)

/-- `handle_state_mqtt_connect_sent`, the bytes buffered so far: `true` when they answered the
CONNECT and the handler is done, `false` when it has to go on waiting. -/
def checkConnack : Api σ Bool := do
  let c ← getClient
  if c.rxLen = 0 then
    return false
  match ← Prog.ofExcept (Proto.decodeFixedHeader c.rxBuffer c.rxLen) with
  | .ok header =>
    if header.type ≠ .connack then
      dropTransport
      throw protocolError
    if header.packetLen > c.rxBufferSize then
      dropTransport
      throw bufferTooSmall
    if header.packetLen ≤ c.rxLen then
      answerConnack header.packetLen
      return true
    return false
  | .error status =>
    if ¬ TooSmall status then
      dropTransport
      throw status
    return false

/-- `handle_state_mqtt_connect_sent`, the timeout. -/
def checkConnackTimeout : Api σ Unit := do
  let now ← timeNow
  let c ← getClient
  if now - c.lastActivityMs ≥ connackTimeoutMs then
    dropTransport
    throw (mkStatus .general .timeout)

def handleStateMqttConnectSent : Api σ Unit := do
  let status ← readMore
  if HardError status then
    dropTransport
    throw status
  let answered ← checkConnack
  if answered then
    return ()
  checkConnackTimeout

def handleStateMqttDisconnecting : Api σ Unit := dropTransport

/-- `aemlib_core_poll`. The handlers of `DISCONNECTED` and `MQTT_CONNECTED` are empty; a `state`
outside of the enumeration, which the source refuses, cannot be written down here. -/
def Core.poll : Api σ Unit := do
  let c ← getClient
  match c.state with
  | .disconnected => return ()
  | .connecting => handleStateConnecting
  | .mqttConnectSent => handleStateMqttConnectSent
  | .mqttConnected => return ()
  | .mqttDisconnecting => handleStateMqttDisconnecting

end Aemlib
