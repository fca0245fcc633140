import Aemlib.Client

/-!
# The link: what the client is, without buffers

Seen from outside, a client is a small machine: a state, whether CONNECT went out, the bytes it
still owes the transport (`staged`), and the bytes it holds and has not understood yet (`held`).
Indices, the sharing of `tx_buffer` and the order of assignments are gone; the trace stays.

`Step` says everything such a machine may do. Each constructor is one thing the source does between
two points where the machine can be looked at, with the events it leaves. That the code makes no
other steps is proved in `Aemlib.Refinement`; every property of whole runs is proved about `Step`.
-/

namespace Aemlib

open Machine Proto

variable {σ : Type}

/-! ## Bytes owed and bytes held -/

def Client.staged (c : Client σ) : List UInt8 := c.txBuffer.take c.txPendingLen

def Client.held (c : Client σ) : List UInt8 := c.rxBuffer.take c.rxLen

def ReadResult.taken (result : ReadResult) : List UInt8 :=
  if result.status = statusOk then result.data else []

def WriteResult.taken (result : WriteResult) (data : List UInt8) : List UInt8 :=
  if result.status = statusOk then data.take result.outLen else []

/-! ## The answer to a CONNECT -/

/-- What the bytes held so far mean to a client that waits for CONNACK. -/
inductive Verdict where
  /-- The first packet is not complete. -/
  | wait
  /-- The connection stands; the CONNACK was this long. -/
  | accept (packetLen : Nat)
  /-- The connection is dropped, with this status. -/
  | reject (status : Status)
  deriving DecidableEq, Repr

def Verdict.accepts : Verdict → Bool
  | .accept _ => true
  | _ => false

/-- The verdict of the CONNACK wait on the bytes held, for an `rx_buffer` of `size` bytes. -/
def connackVerdict (size : Nat) (held : List UInt8) : Verdict :=
  match parseHeader held with
  | .error status => if TooSmall status then .wait else .reject status
  | .ok header =>
    if header.type ≠ .connack then .reject protocolError
    else if header.packetLen > size then .reject bufferTooSmall
    else if header.packetLen > held.length then .wait
    else if header.packetLen < 4 ∨ held.getD 3 0 ≠ 0 then .reject (mkStatus .protocol .connect)
    else .accept header.packetLen

/-- An accepted CONNACK, spelled out: what the code looks at is the fourth byte of the packet,
wherever the fixed header ends. -/
theorem connackVerdict_eq_accept {size n : Nat} {held : List UInt8} :
    connackVerdict size held = .accept n ↔
      ∃ header, parseHeader held = .ok header ∧ header.type = .connack ∧ header.packetLen = n ∧
        n ≤ size ∧ n ≤ held.length ∧ 4 ≤ n ∧ held.getD 3 0 = 0 := by
  unfold connackVerdict
  constructor
  · -- every branch but the last gives another verdict
    intro h
    split at h
    · split at h <;> cases h
    · next header hp =>
      split at h
      · cases h
      · next htype =>
        split at h
        · cases h
        · split at h
          · cases h
          · split at h
            · cases h
            · next hok =>
              cases h
              rw [not_or, not_lt, not_not] at hok
              exact ⟨header, hp, not_not.mp htype, rfl, by omega, by omega, hok.1, hok.2⟩
  · rintro ⟨header, hp, htype, rfl, hsize, hlen, h4, h3⟩
    rw [hp]
    simp only
    rw [if_neg (by simp [htype]), if_neg (by omega), if_neg (by omega), if_neg]
    rw [not_or, not_lt, not_not]
    exact ⟨h4, h3⟩

/-! ## The machine -/

/-- A client as a machine. `stamp` is `last_activity_ms`; `size` and `hello` (the CONNECT packet it
would send) are fixed by the configuration. -/
structure Link where
  state : State
  stamp : UInt64
  connectSent : Bool
  staged : List UInt8
  held : List UInt8
  size : Nat
  hello : Packet
  trace : List Event

def World.link (w : World σ) : Link where
  state := w.client.state
  stamp := w.client.lastActivityMs
  connectSent := w.client.connectSent
  staged := w.client.staged
  held := w.client.held
  size := w.client.rxBufferSize
  hello := w.client.connectPacket
  trace := w.trace

namespace Link

/-- A machine that `aemlib_init` has just started over. -/
def fresh (size : Nat) (hello : Packet) (trace : List Event) : Link where
  state := .disconnected
  stamp := 0
  connectSent := false
  staged := []
  held := []
  size := size
  hello := hello
  trace := .init :: trace

def Established (l : Link) : Prop := l.state = .mqttConnected ∨ l.state = .mqttDisconnecting

/-- Only the CONNECT wait sends CONNECT, and only before it has sent one. Everything else may be
sent in any state: `aemlib_publish` and `aemlib_subscribe` do not look at it. -/
def MaySend (l : Link) (p : Packet) : Prop :=
  p.isConnect = true → p = l.hello ∧ l.state = .mqttConnectSent ∧ l.connectSent = false

/-- One thing the machine may do. -/
inductive Step : Link → Link → Prop
  /-- `aemlib_init` starts over, whether or not it likes the configuration. -/
  | init (l : Link) (size : Nat) (hello : Packet) : Step l (fresh size hello l.trace)
  /-- The clock is read. -/
  | clock (l : Link) (ms : UInt64) : Step l { l with trace := .now ms :: l.trace }
  /-- The time is noted as that of the last activity. -/
  | noted (l : Link) (ms : UInt64) (hs : l.state ≠ .mqttConnectSent) : Step l { l with stamp := ms }
  /-- A flush failed; the staged bytes stay. -/
  | flushFailed (l : Link) (res : WriteResult) (hne : l.staged ≠ []) (hres : HardError res.status) :
      Step l { l with trace := .write l.staged res :: l.trace }
  /-- A flush went through, possibly for no bytes at all. -/
  | flushed (l : Link) (res : WriteResult) (hne : l.staged ≠ []) (hres : ¬ HardError res.status)
      (hle : res.written ≤ l.staged.length) :
      Step l
        { l with staged := l.staged.drop res.written, trace := .write l.staged res :: l.trace }
  /-- A packet could not be encoded. The encoder has written over the staged bytes. -/
  | encodeFailed (l : Link) (p : Packet) (staged' : List UInt8) (hp : l.MaySend p)
      (hlen : staged'.length = l.staged.length) :
      Step l
        { l with staged := staged', trace := .encode l.state l.staged.length p :: l.trace }
  /-- A packet was encoded over the staged bytes, and its send refused because there are any. -/
  | sendRefused (l : Link) (p : Packet) (staged' : List UInt8) (hp : l.MaySend p)
      (hne : l.staged ≠ []) (hlen : staged'.length = l.staged.length) :
      Step l
        { l with
          staged := staged'
          trace := .refused p staged' :: .encode l.state l.staged.length p :: l.trace }
  /-- The transport failed to take a packet. -/
  | sendFailed (l : Link) (p : Packet) (res : WriteResult) (hp : l.MaySend p)
      (hnil : l.staged = []) (hres : HardError res.status) :
      Step l { l with trace := .write p.bytes res :: .encode l.state 0 p :: l.trace }
  /-- A packet was sent: the transport took what it took and the rest is staged. -/
  | sent (l : Link) (p : Packet) (res : WriteResult) (hp : l.MaySend p) (hnil : l.staged = [])
      (hres : ¬ HardError res.status) :
      Step l
        { l with
          staged := p.bytes.drop res.written
          connectSent := l.connectSent || p.isConnect
          trace := .sent p :: .write p.bytes res :: .encode l.state 0 p :: l.trace }
  /-- `aemlib_connect` -/
  | connectCall (l : Link) (hs : l.state = .disconnected) :
      Step l
        { l with
          state := .connecting, connectSent := false, staged := [], held := []
          trace := .connectCall .disconnected l.staged.length :: l.trace }
  /-- `aemlib_connect`, refused, but the buffers are emptied all the same. -/
  | connectRefused (l : Link) (hs : l.state ≠ .disconnected) :
      Step l
        { l with
          staged := [], held := [], trace := .connectCall l.state l.staged.length :: l.trace }
  /-- `aemlib_disconnect` -/
  | disconnectCall (l : Link) (hs : l.state = .mqttConnected) :
      Step l { l with state := .mqttDisconnecting }
  /-- The transport connected, and the time is noted. -/
  | opened (l : Link) (ms : UInt64) (hs : l.state = .connecting) :
      Step l
        { l with
          state := .mqttConnectSent, stamp := ms
          trace := .now ms :: .connect statusOk :: l.trace }
  /-- The transport is still connecting. -/
  | openBlocked (l : Link) (status : Status) (hs : l.state = .connecting)
      (hst : WouldBlock status) : Step l { l with trace := .connect status :: l.trace }
  /-- The transport could not connect. -/
  | openFailed (l : Link) (status : Status) (hs : l.state = .connecting)
      (hst : HardError status) :
      Step l { l with state := .disconnected, trace := .connect status :: l.trace }
  /-- There is no transport to connect: an `aemlib_init` that failed left NULL callbacks. -/
  | openMissing (l : Link) (hs : l.state = .connecting) : Step l { l with state := .disconnected }
  /-- Reading failed while waiting for CONNACK. -/
  | awaitFailed (l : Link) (res : ReadResult) (status : Status) (hs : l.state = .mqttConnectSent)
      (hres : HardError res.status) :
      Step l
        { l with
          state := .disconnected
          trace := .disconnect status :: .read (l.size - l.held.length) res :: l.trace }
  /-- The CONNACK is not complete yet. -/
  | awaiting (l : Link) (res : ReadResult) (hs : l.state = .mqttConnectSent)
      (hres : ¬ HardError res.status) (hfits : l.held.length + res.data.length ≤ l.size)
      (hv : connackVerdict l.size (l.held ++ res.taken) = .wait) :
      Step l
        { l with
          held := l.held ++ res.taken
          trace := .read (l.size - l.held.length) res :: l.trace }
  /-- What came is not an acceptable CONNACK. -/
  | rejected (l : Link) (res : ReadResult) (why status : Status) (held' : List UInt8)
      (hs : l.state = .mqttConnectSent) (hres : ¬ HardError res.status)
      (hfits : l.held.length + res.data.length ≤ l.size)
      (hv : connackVerdict l.size (l.held ++ res.taken) = .reject why) :
      Step l
        { l with
          state := .disconnected, held := held'
          trace := .disconnect status :: .read (l.size - l.held.length) res :: l.trace }
  /-- The CONNACK is accepted and consumed. -/
  | accepted (l : Link) (res : ReadResult) (n : Nat) (hs : l.state = .mqttConnectSent)
      (hres : ¬ HardError res.status) (hfits : l.held.length + res.data.length ≤ l.size)
      (hv : connackVerdict l.size (l.held ++ res.taken) = .accept n) :
      Step l
        { l with
          state := .mqttConnected, held := (l.held ++ res.taken).drop n
          trace := .read (l.size - l.held.length) res :: l.trace }
  /-- The CONNACK did not come in time. -/
  | timedOut (l : Link) (status : Status) (hs : l.state = .mqttConnectSent) :
      Step l { l with state := .disconnected, trace := .disconnect status :: l.trace }
  /-- An established connection reads. -/
  | read (l : Link) (len : Nat) (res : ReadResult) (held' : List UInt8) (hs : l.Established) :
      Step l { l with held := held', trace := .read len res :: l.trace }
  /-- An established connection hands a message to the user. -/
  | message (l : Link) (topic payload : List UInt8) (hs : l.Established) :
      Step l { l with trace := .message topic payload :: l.trace }
  /-- An established connection has dealt with a packet. -/
  | consumed (l : Link) (held' : List UInt8) (hs : l.Established) : Step l { l with held := held' }
  /-- The connection is torn down. -/
  | closed (l : Link) (status : Status) (hs : l.state = .mqttDisconnecting) :
      Step l { l with state := .disconnected, trace := .disconnect status :: l.trace }

/-- A step adds to the trace. -/
theorem Step.trace_suffix {l l' : Link} (h : Step l l') : l.trace <:+ l'.trace := by
  cases h with
  | noted | disconnectCall | openMissing | consumed => exact List.suffix_refl _
  | sendRefused | sendFailed | awaitFailed | rejected | opened =>
    exact ⟨[_, _], rfl⟩
  | sent => exact ⟨[_, _, _], rfl⟩
  | _ => exact ⟨[_], rfl⟩

abbrev Steps : Link → Link → Prop := Relation.ReflTransGen Step

/-- The invariant rule: what holds before and is kept by every step holds after any number of
them. -/
theorem Steps.invariant {P : Link → Prop} {l l' : Link} (h : Steps l l') (hl : P l)
    (hstep : ∀ {m m'}, Step m m' → P m → P m') : P l' := by
  induction h with
  | refl => exact hl
  | tail _ hm ih => exact hstep hm ih

theorem Steps.trace_suffix {l l' : Link} (h : Steps l l') : l.trace <:+ l'.trace :=
  h.invariant (P := fun m => l.trace <:+ m.trace) (List.suffix_refl _)
    fun hstep hl => hl.trans hstep.trace_suffix

end Link

end Aemlib
