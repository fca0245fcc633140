import Aemlib.Proto.Basic
import Aemlib.Machine.Prog
import Aemlib.Machine.Varint

/-!
# Encoders (`proto/proto.c`)

An encoder writes the body of a packet behind a gap of four bytes, learns the length, and slides
the body left over the part of the gap its length field does not need. `Packet.encode` is the
source's code; `Packet.bytes` is the layout it is meant to produce — fixed header byte, length
digits, body — and `encode_ensures` says that whenever the encoder returns OK, the buffer starts
with exactly those bytes.

The length field is narrowed to 32 bits before it is encoded, and a string's length to 16. Both
narrowings are in `Packet.bytes` too: it is the layout of what goes out, not of what was asked.
-/

namespace Aemlib.Proto

open Machine

/-! ## The code -/

/-- The buffer an encoder writes to, its running `offset`, and the caller's `*out_len`. -/
structure Encoder where
  buf : List UInt8
  offset : Nat
  outLen : Nat
  deriving DecidableEq, Repr

/-- A piece of an encoder: it can fault, or return a status with the writes made so far kept. -/
abbrev Enc := Prog Fault Status Encoder

/-- `ensure_space` and the status check every caller makes on it. -/
def ensureSpace (needed bufLen : Nat) : Enc Unit := do
  let e ← get
  if sizeAdd e.offset needed > bufLen then
    throw bufferTooSmall

def reserveSpace (size bufLen : Nat) : Enc Unit := do
  ensureSpace size bufLen
  modify fun e => { e with offset := sizeAdd e.offset size }

/-- Check for space, copy `data` behind the offset, advance it: what every `append_*`, the string
writer and the payload copy do. -/
def append (bufLen : Nat) (data : List UInt8) : Enc Unit := do
  ensureSpace data.length bufLen
  let e ← get
  let buf ← Prog.ofExcept (store e.buf e.offset data)
  set { e with buf := buf, offset := sizeAdd e.offset data.length }

def appendByte (bufLen : Nat) (value : UInt8) : Enc Unit := append bufLen [value]

def uint16Be (value : Nat) : List UInt8 := [UInt8.ofNat (value >>> 8), UInt8.ofNat (value &&& 0xFF)]

def appendUint16Be (bufLen : Nat) (value : UInt16) : Enc Unit :=
  append bufLen (uint16Be value.toNat)

/-- `aemlib_proto_write_utf8`. `str` is the string without its terminating NUL. -/
def writeUtf8 (bufLen : Nat) (str : List UInt8) : Enc Unit :=
  append bufLen (uint16Be str.length ++ str)

/-- The loop of `aemlib_proto_encode_remaining_length`, with `space = buf_len - i`. -/
def encodeRemainingLengthLoop : (space value i : Nat) → Prog Fault Status (List UInt8) Nat
  | 0, _, _ => throw bufferTooSmall
  | space + 1, value, i => do
    let digit := UInt8.ofNat (value % remainingLengthBase)
    let rest := value / remainingLengthBase
    let encoded := if rest > 0 then digit ||| remainingLengthContinuation else digit
    let buf ← get
    let buf ← Prog.ofExcept (store buf i [encoded])
    set buf
    if rest > 0 then encodeRemainingLengthLoop space rest (i + 1) else return i + 1

/-- `aemlib_proto_encode_remaining_length`: the number of bytes written to the buffer. -/
def encodeRemainingLength (value bufLen : Nat) : Prog Fault Status (List UInt8) Nat :=
  encodeRemainingLengthLoop bufLen value 0

/-- Encode the length of the body behind the gap at `rlPos`, slide the body left onto it, put the
length in front. -/
def finishRemainingLength (rlPos : Nat) : Enc Unit := do
  let e ← get
  let bodyLen ← Prog.ofExcept (checkedSub e.offset (sizeAdd rlPos remainingLengthMaxBytes))
  -- the cast of the source to `uint32_t`
  let rl := bodyLen % 2 ^ 32
  let (result, rlBuf) ← Prog.ofExcept
    (encodeRemainingLength rl remainingLengthMaxBytes (List.replicate remainingLengthMaxBytes 0))
  match result with
  | .error status => throw status
  | .ok rlLen =>
    let buf ← Prog.ofExcept
      (move e.buf (sizeAdd rlPos rlLen) (sizeAdd rlPos remainingLengthMaxBytes) rl)
    let buf ← Prog.ofExcept (store buf rlPos (rlBuf.take rlLen))
    set { e with buf := buf, outLen := sizeAdd (sizeAdd rlPos rlLen) rl }

/-- What CONNECT, PUBLISH and SUBSCRIBE share: the header byte and the gap for the length before
the body, the length after it. -/
def framed (bufLen : Nat) (header : UInt8) (body : Enc Unit) : Enc Unit := do
  appendByte bufLen header
  let rlPos := (← get).offset
  reserveSpace remainingLengthMaxBytes bufLen
  body
  finishRemainingLength rlPos

def encodeConnect (bufLen : Nat) (clientId : List UInt8) (keepaliveSec : UInt16) : Enc Unit :=
  framed bufLen (headerByte .connect 0) do
    writeUtf8 bufLen [0x4D, 0x51, 0x54, 0x54] -- "MQTT"
    appendByte bufLen protocolLevel
    appendByte bufLen connectCleanSession
    appendUint16Be bufLen keepaliveSec
    writeUtf8 bufLen clientId

def encodePingreq (bufLen : Nat) : Enc Unit := do
  if bufLen < pingreqLength then
    throw bufferTooSmall
  let e ← get
  let buf ← Prog.ofExcept (store e.buf 0 [headerByte .pingreq 0, 0])
  set { e with buf := buf, outLen := pingreqLength }

def encodeDisconnect (bufLen : Nat) : Enc Unit := do
  if bufLen < disconnectLength then
    throw bufferTooSmall
  let e ← get
  let buf ← Prog.ofExcept (store e.buf 0 [headerByte .disconnect 0, 0])
  set { e with buf := buf, outLen := disconnectLength }

def encodePublish (bufLen : Nat) (topic payload : List UInt8) : Enc Unit :=
  framed bufLen (headerByte .publish 0) do
    writeUtf8 bufLen topic
    append bufLen payload

def encodeSubscribe (bufLen : Nat) (packetId : UInt16) (topic : List UInt8) : Enc Unit :=
  framed bufLen (headerByte .subscribe subscribeFlags) do
    appendUint16Be bufLen packetId
    writeUtf8 bufLen topic
    appendByte bufLen subscribePayloadQos

/-! ## Packets and their layout -/

inductive Packet where
  | connect (clientId : List UInt8) (keepaliveSec : UInt16)
  | publish (topic payload : List UInt8)
  | subscribe (packetId : UInt16) (topic : List UInt8)
  | pingreq
  deriving DecidableEq, Repr

def Packet.isConnect : Packet → Bool
  | .connect _ _ => true
  | _ => false

def Packet.encode (bufLen : Nat) : Packet → Enc Unit
  | .connect clientId keepaliveSec => encodeConnect bufLen clientId keepaliveSec
  | .publish topic payload => encodePublish bufLen topic payload
  | .subscribe packetId topic => encodeSubscribe bufLen packetId topic
  | .pingreq => encodePingreq bufLen

def Packet.header : Packet → UInt8
  | .connect _ _ => headerByte .connect 0
  | .publish _ _ => headerByte .publish 0
  | .subscribe _ _ => headerByte .subscribe subscribeFlags
  | .pingreq => headerByte .pingreq 0

/-- A string behind its two-byte length. -/
def lengthPrefixed (str : List UInt8) : List UInt8 := uint16Be str.length ++ str

def Packet.body : Packet → List UInt8
  | .connect clientId keepaliveSec =>
    lengthPrefixed [0x4D, 0x51, 0x54, 0x54] ++ ([protocolLevel] ++ ([connectCleanSession] ++
      (uint16Be keepaliveSec.toNat ++ lengthPrefixed clientId)))
  | .publish topic payload => lengthPrefixed topic ++ payload
  | .subscribe packetId topic =>
    uint16Be packetId.toNat ++ (lengthPrefixed topic ++ [subscribePayloadQos])
  | .pingreq => []

def Packet.bytes (p : Packet) : List UInt8 :=
  let rl := p.body.length % 2 ^ 32
  p.header :: (Varint.encode remainingLengthMaxBytes rl ++ p.body.take rl)

/-! ## Appending

`Wrote e data e'` is the effect of every appending step; a step that fails does so because the
data does not fit, and leaves a buffer of the same size. -/

/-- `data` went behind what was there, and nothing before it changed. -/
structure Wrote (e : Encoder) (data : List UInt8) (e' : Encoder) : Prop where
  length : e'.buf.length = e.buf.length
  offset : e'.offset = e.offset + data.length
  bound : e'.offset ≤ e.buf.length
  bytes : e'.buf.take e'.offset = e.buf.take e.offset ++ data
  outLen : e'.outLen = e.outLen

/-- A step that failed: no room for `needed` more bytes, `*out_len` as it was. -/
structure Refused (e : Encoder) (needed : Nat) (e' : Encoder) : Prop where
  length : e'.buf.length = e.buf.length
  short : e.buf.length < e.offset + needed
  outLen : e'.outLen = e.outLen

/-- The two ways a step that appends `data` can end. -/
def Appended (e : Encoder) (data : List UInt8) : Except Status Unit → Encoder → Prop
  | .ok (), e' => Wrote e data e'
  | .error status, e' => status = bufferTooSmall ∧ Refused e data.length e'

theorem Wrote.trans {e e₁ e₂ : Encoder} {d₁ d₂ : List UInt8} (h₁ : Wrote e d₁ e₁)
    (h₂ : Wrote e₁ d₂ e₂) : Wrote e (d₁ ++ d₂) e₂ where
  length := h₂.length.trans h₁.length
  offset := by rw [h₂.offset, h₁.offset, List.length_append, Nat.add_assoc]
  bound := h₁.length ▸ h₂.bound
  bytes := by rw [h₂.bytes, h₁.bytes, List.append_assoc]
  outLen := h₂.outLen.trans h₁.outLen

/-- Whether the first or the second of two appends ends it, the two together are one append. -/
theorem Wrote.appended {e e₁ e₂ : Encoder} {d₁ d₂ : List UInt8} {r : Except Status Unit}
    (h₁ : Wrote e d₁ e₁) (h₂ : Appended e₁ d₂ r e₂) : Appended e (d₁ ++ d₂) r e₂ := by
  cases r with
  | ok u => exact h₁.trans h₂
  | error status =>
    obtain ⟨hst, hlen, hshort, hout⟩ := h₂
    refine ⟨hst, hlen.trans h₁.length, ?_, hout.trans h₁.outLen⟩
    rw [h₁.length, h₁.offset] at hshort
    rw [List.length_append]
    omega

theorem Refused.mono {e e' : Encoder} {n m : Nat} (h : Refused e n e') (hnm : n ≤ m) :
    Refused e m e' :=
  ⟨h.length, by have := h.short; omega, h.outLen⟩

/-- A piece of code that appends `data`, when it is told the size of the buffer. -/
def Appends (bufLen : Nat) (p : Enc Unit) (data : List UInt8) : Prop :=
  ∀ e, e.buf.length = bufLen → e.offset ≤ bufLen → p.Ensures e (Appended e data)

/-- A piece of code that cannot fault as long as the offset it reaches is a `size_t`. -/
def Safe (bufLen : Nat) (p : Enc Unit) (n : Nat) : Prop :=
  ∀ e, e.buf.length = bufLen → e.offset ≤ bufLen → e.offset + n < 2 ^ 64 →
    p.Returns e fun _ _ => True

theorem Appends.seq {bufLen : Nat} {p : Enc Unit} {q : Enc Unit} {d₁ d₂ : List UInt8}
    (hp : Appends bufLen p d₁) (hq : Appends bufLen q d₂) :
    Appends bufLen (p >>= fun _ => q) (d₁ ++ d₂) := by
  intro e hlen hoff
  refine (hp e hlen hoff).bind (fun _ e₁ h₁ => ?_) (fun status e₁ h₁ => ?_)
  · intro r e₂ hrun
    have hlen₁ : e₁.buf.length = bufLen := h₁.length.trans hlen
    exact h₁.appended (hq e₁ hlen₁ (hlen ▸ h₁.bound) r e₂ hrun)
  · exact ⟨h₁.1, h₁.2.mono (by simp)⟩

theorem Safe.seq {bufLen : Nat} {p : Enc Unit} {q : Enc Unit} {d₁ d₂ : List UInt8}
    (hp : Safe bufLen p d₁.length) (hp' : Appends bufLen p d₁) (hq : Safe bufLen q d₂.length) :
    Safe bufLen (p >>= fun _ => q) (d₁ ++ d₂).length := by
  intro e hlen hoff hlt
  rw [List.length_append] at hlt
  have hret := (hp e hlen hoff (by omega)).and_ensures (hp' e hlen hoff)
  refine hret.bind (fun _ e₁ h₁ => ?_) (fun _ _ _ => trivial)
  have hwrote : Wrote e d₁ e₁ := h₁.2
  refine hq e₁ (hwrote.length.trans hlen) (hlen ▸ hwrote.bound) ?_
  rw [hwrote.offset]
  omega

/-- `append`, by cases: the space check is the only test, and it is exact unless it wraps — and
then the copy runs off the buffer. -/
theorem append_eq (bufLen : Nat) (data : List UInt8) (e : Encoder) :
    append bufLen data e =
      if sizeAdd e.offset data.length > bufLen then .ok (.error bufferTooSmall, e)
      else (Prog.ofExcept (store e.buf e.offset data) >>= fun buf =>
        set { e with buf := buf, offset := sizeAdd e.offset data.length } : Enc Unit) e := by
  by_cases h : sizeAdd e.offset data.length > bufLen
  · have hfull : ensureSpace data.length bufLen e = .ok (.error bufferTooSmall, e) := by
      simp [ensureSpace, h]
    rw [if_pos h, append]
    exact Prog.bind_of_error hfull
  · have hroom : ensureSpace data.length bufLen e = .ok (.ok (), e) := by
      simp [ensureSpace, h]
    rw [if_neg h, append]
    exact Prog.bind_of_ok hroom

theorem append_appends {bufLen : Nat} (hbuf : bufLen < 2 ^ 64) (data : List UInt8) :
    Appends bufLen (append bufLen data) data := by
  intro e hlen hoff r e' hrun
  rw [append_eq] at hrun
  split at hrun
  · next hfull =>
    cases hrun
    have : sizeAdd e.offset data.length ≤ e.offset + data.length := Nat.mod_le _ _
    exact ⟨rfl, rfl, by omega, rfl⟩
  · obtain ⟨buf, hstore, hset⟩ := Prog.ofExcept_bind_eq_ok.mp hrun
    cases hset
    have hbound := (store_eq_ok.mp hstore).1
    have hadd : sizeAdd e.offset data.length = e.offset + data.length :=
      sizeAdd_of_lt (by omega)
    exact
      { length := length_of_store hstore
        offset := hadd
        bound := hadd ▸ hbound
        bytes := by simpa only [hadd] using take_of_store hstore
        outLen := rfl }

theorem append_safe (bufLen : Nat) (data : List UInt8) :
    Safe bufLen (append bufLen data) data.length := by
  intro e hlen hoff hlt
  rw [Prog.Returns, append_eq, sizeAdd_of_lt hlt]
  split
  · exact ⟨_, _, rfl, trivial⟩
  · obtain ⟨buf, hbuf⟩ := exists_store e.buf e.offset data (by omega)
    exact ⟨_, _, Prog.ofExcept_bind_eq_ok.mpr ⟨buf, hbuf, rfl⟩, trivial⟩

/-! ## The length field -/

/-- Digit by digit, the loop stores the base-128 digits of the value. -/
theorem encodeRemainingLengthLoop_ok {space value i : Nat} {buf : List UInt8} (hs : 0 < space)
    (hv : value < 128 ^ space) (hb : i + space ≤ buf.length) :
    ∃ buf', encodeRemainingLengthLoop space value i buf =
        .ok (.ok (i + (Varint.encode space value).length), buf') ∧
      store buf i (Varint.encode space value) = .ok buf' := by
  induction space generalizing value i buf with
  | zero => omega
  | succ space ih =>
    rw [encodeRemainingLengthLoop, Varint.encode]
    simp only [remainingLengthBase, remainingLengthContinuation, Prog.run_get_bind]
    -- the last digit, or a digit with the continuation bit and the loop behind it
    by_cases h0 : value / 128 = 0
    · obtain ⟨buf₁, h₁⟩ := exists_store buf i [UInt8.ofNat (value % 128)] (by simp; omega)
      refine ⟨buf₁, ?_, by simpa [h0] using h₁⟩
      simp [h0, h₁]
    · have hpos : value / 128 > 0 := Nat.pos_of_ne_zero h0
      obtain ⟨buf₁, h₁⟩ := exists_store buf i [UInt8.ofNat (value % 128 + 128)] (by simp; omega)
      have hlt : value / 128 < 128 ^ space := by
        rw [Nat.pow_succ] at hv
        omega
      have hspace : 0 < space := by
        rcases Nat.eq_zero_or_pos space with rfl | h
        · simp at hlt
          omega
        · exact h
      have hroom : i + 1 + space ≤ buf₁.length := by
        rw [length_of_store h₁]
        omega
      obtain ⟨buf₂, hrun, h₂⟩ := ih hspace hlt hroom
      refine ⟨buf₂, ?_, ?_⟩
      · simp only [hpos, if_true, Varint.or_continuation, h₁, Prog.run_ofExcept_ok_bind,
          Prog.run_set_bind, hrun, h0, if_false, List.length_cons]
        rw [Nat.add_right_comm, Nat.add_assoc]
      · rw [if_neg h0]
        exact store_append h₁ h₂

/-- A value with more digits than there is space for is refused. -/
theorem encodeRemainingLengthLoop_error {space value i : Nat} {buf : List UInt8}
    (hv : 128 ^ space ≤ value) (hb : i + space ≤ buf.length) :
    ∃ buf', encodeRemainingLengthLoop space value i buf = .ok (.error bufferTooSmall, buf') := by
  induction space generalizing value i buf with
  | zero => exact ⟨buf, rfl⟩
  | succ space ih =>
    have hdiv : 128 ^ space ≤ value / 128 := by
      rw [Nat.le_div_iff_mul_le (by decide), ← Nat.pow_succ]
      exact hv
    have hpos : value / 128 > 0 := Nat.lt_of_lt_of_le (Nat.pow_pos (by decide)) hdiv
    obtain ⟨buf₁, h₁⟩ := exists_store buf i [UInt8.ofNat (value % 128 + 128)] (by simp; omega)
    have hroom : i + 1 + space ≤ buf₁.length := by
      rw [length_of_store h₁]
      omega
    obtain ⟨buf₂, hrun⟩ := ih hdiv hroom
    refine ⟨buf₂, ?_⟩
    rw [encodeRemainingLengthLoop]
    simp only [remainingLengthBase, remainingLengthContinuation, Prog.run_get_bind, hpos, if_true,
      Varint.or_continuation, h₁, Prog.run_ofExcept_ok_bind, Prog.run_set_bind, hrun]

/-! ## A framed packet -/

/-- How a framed encoder with body `data` can end: OK with the packet at the front of the buffer,
or refused because the body does not fit the buffer or the length field. -/
def FramedEnd (header : UInt8) (data : List UInt8) (e : Encoder) :
    Except Status Unit → Encoder → Prop
  | .ok (), e' =>
    let rl := data.length % 2 ^ 32
    let packet := header :: (Varint.encode 4 rl ++ data.take rl)
    e'.buf.length = e.buf.length ∧ rl < 2 ^ 28 ∧ 5 + data.length ≤ e.buf.length ∧
      e'.outLen = packet.length ∧ e'.buf.take e'.outLen = packet
  | .error status, e' =>
    status = bufferTooSmall ∧ e'.buf.length = e.buf.length ∧ e'.outLen = e.outLen ∧
      (e.buf.length < 5 + data.length ∨ 2 ^ 28 ≤ data.length % 2 ^ 32)

theorem FramedEnd.length {header : UInt8} {data : List UInt8} {e e' : Encoder}
    {r : Except Status Unit} (h : FramedEnd header data e r e') :
    e'.buf.length = e.buf.length := by
  cases r with
  | ok u => exact h.1
  | error status => exact h.2.1

/-- With the body behind the gap, the end of the encoder slides it left and puts the length in
front of it, or refuses a length of more than four digits. -/
theorem finishRemainingLength_eq {e : Encoder} {data : List UInt8} (hbuf : e.buf.length < 2 ^ 64)
    (hoff : e.offset = 5 + data.length) (hbound : e.offset ≤ e.buf.length)
    (hdata : (e.buf.take e.offset).drop 5 = data) :
    (2 ^ 28 ≤ data.length % 2 ^ 32 ∧
      finishRemainingLength 1 e = .ok (.error bufferTooSmall, e)) ∨
    (data.length % 2 ^ 32 < 2 ^ 28 ∧ ∃ buf₁ buf₂,
      store e.buf (1 + (Varint.encode 4 (data.length % 2 ^ 32)).length)
        (data.take (data.length % 2 ^ 32)) = .ok buf₁ ∧
      store buf₁ 1 (Varint.encode 4 (data.length % 2 ^ 32)) = .ok buf₂ ∧
      finishRemainingLength 1 e = .ok (.ok (), { e with
        buf := buf₂
        outLen := 1 + (Varint.encode 4 (data.length % 2 ^ 32)).length +
          data.length % 2 ^ 32 })) := by
  have hpos : sizeAdd 1 remainingLengthMaxBytes = 5 := rfl
  have hsub : checkedSub e.offset 5 = .ok data.length :=
    checkedSub_eq_ok.mpr ⟨by omega, by omega⟩
  unfold finishRemainingLength
  simp only [Prog.run_get_bind, hpos, hsub, Prog.run_ofExcept_ok_bind]
  generalize hrl : data.length % 2 ^ 32 = rl
  have hrlle : rl ≤ data.length := hrl ▸ Nat.mod_le _ _
  have hspace : 0 + 4 ≤ (List.replicate remainingLengthMaxBytes (0 : UInt8)).length := by
    rw [List.length_replicate]
  -- a length of more than four digits is refused before the body moves
  by_cases hfit : rl < 128 ^ 4
  · refine Or.inr ⟨by omega, ?_⟩
    obtain ⟨rlBuf, hrun, hstore⟩ := encodeRemainingLengthLoop_ok (by omega) hfit hspace
    have hdigits : rlBuf.take (Varint.encode 4 rl).length = Varint.encode 4 rl := by
      simpa using take_of_store hstore
    have hn : (Varint.encode 4 rl).length ≤ 4 := Varint.length_encode_le 4 rl
    generalize Varint.encode 4 rl = digits at hrun hdigits hn ⊢
    have hbody : (e.buf.drop 5).take rl = data.take rl := by
      rw [← hdata, List.drop_take, List.take_take]
      congr 1
      omega
    have hlenBody : (data.take rl).length = rl := by rw [List.length_take, Nat.min_eq_left hrlle]
    -- the overlapping move, then the digits in front of it
    obtain ⟨buf₁, hmove⟩ := exists_store e.buf (1 + digits.length) (data.take rl) (by omega)
    obtain ⟨buf₂, hdig⟩ := exists_store buf₁ 1 digits
      (by rw [length_of_store hmove]; omega)
    have hmove' : move e.buf (1 + digits.length) 5 rl = .ok buf₁ :=
      move_eq_ok.mpr ⟨by omega, by rw [hbody]; exact hmove⟩
    have hadd : sizeAdd 1 digits.length = 1 + digits.length := sizeAdd_of_lt (by omega)
    have hout : sizeAdd (1 + digits.length) rl = 1 + digits.length + rl :=
      sizeAdd_of_lt (by omega)
    refine ⟨buf₁, buf₂, hmove, hdig, ?_⟩
    simp only [encodeRemainingLength, hrun, Prog.run_ofExcept_ok_bind, Nat.zero_add, hadd,
      hmove', hdigits, hdig, hout, Prog.run_set]
  · obtain ⟨rlBuf, hrun⟩ := encodeRemainingLengthLoop_error (Nat.le_of_not_lt hfit) hspace
    refine Or.inl ⟨by omega, ?_⟩
    simp only [encodeRemainingLength, hrun, Prog.run_ofExcept_ok_bind, Prog.run_throw]

/-- With the header byte in place as well, this leaves the packet at the front of the buffer. -/
theorem finishRemainingLength_returns {e : Encoder} {header : UInt8} {data gap : List UInt8}
    (hbuf : e.buf.length < 2 ^ 64) (hgap : gap.length = 4) (hoff : e.offset = 5 + data.length)
    (hbound : e.offset ≤ e.buf.length)
    (hbytes : e.buf.take e.offset = header :: (gap ++ data)) :
    (finishRemainingLength 1).Returns e (FramedEnd header data e) := by
  have hdata : (e.buf.take e.offset).drop 5 = data := by
    rw [hbytes, show 5 = gap.length + 1 by omega, List.drop_succ_cons, List.drop_left]
  rcases finishRemainingLength_eq hbuf hoff hbound hdata with
    ⟨hlong, hrun⟩ | ⟨hshort, buf₁, buf₂, hmove, hdig, hrun⟩
  · exact ⟨.error bufferTooSmall, e, hrun, rfl, rfl, rfl, Or.inr hlong⟩
  · refine ⟨_, _, hrun, (length_of_store hdig).trans (length_of_store hmove), hshort, by omega, ?_⟩
    have hrlle : data.length % 2 ^ 32 ≤ data.length := Nat.mod_le _ _
    generalize data.length % 2 ^ 32 = rl at *
    generalize Varint.encode 4 rl = digits at *
    have hlenBody : (data.take rl).length = rl := by rw [List.length_take, Nat.min_eq_left hrlle]
    -- the store of the digits has left the header byte alone, and the move the digits
    have hfront : buf₂.take (1 + digits.length) = header :: digits := by
      have hhead : (e.buf.take e.offset).take 1 = [header] := by rw [hbytes]; rfl
      rw [List.take_take, Nat.min_eq_left (by omega)] at hhead
      rw [take_of_store hdig, take_of_store_le hmove (by omega), hhead]
      rfl
    -- the body is as the move has put it
    have hback : (buf₂.drop (1 + digits.length)).take rl = data.take rl := by
      rw [drop_of_store hdig]
      simpa only [hlenBody] using slice_of_store hmove
    constructor
    · simp only [List.length_cons, List.length_append, hlenBody]
      omega
    · show buf₂.take (1 + digits.length + rl) = _
      rw [List.take_add, hfront, hback, List.cons_append]

/-- The steps before the body: the header byte and a gap of four bytes, or no room for them. -/
theorem framed_eq {bufLen : Nat} (header : UInt8) (body : Enc Unit) {e : Encoder}
    (hbuf : bufLen < 2 ^ 64) (hlen : e.buf.length = bufLen) (hoff : e.offset = 0) :
    (bufLen < 5 ∧ ∃ e', framed bufLen header body e = .ok (.error bufferTooSmall, e') ∧
      e'.buf.length = bufLen ∧ e'.outLen = e.outLen) ∨
    (∃ e₂ gap, e₂.buf.length = bufLen ∧ e₂.offset = 5 ∧ e₂.outLen = e.outLen ∧
      List.length gap = 4 ∧ 5 ≤ bufLen ∧ e₂.buf.take 5 = header :: gap ∧
      framed bufLen header body e = (body >>= fun _ => finishRemainingLength 1) e₂) := by
  obtain ⟨r, e₁, hrun, -, h₁⟩ := (append_safe bufLen [header] e hlen (by omega)
    (by simp [hoff])).and_ensures (append_appends hbuf [header] e hlen (by omega))
  cases r with
  | error status =>
    obtain ⟨rfl, hlen₁, hshort, hout⟩ := h₁
    simp only [hoff, List.length_singleton] at hshort
    exact Or.inl ⟨by omega, e₁, Prog.bind_of_error hrun, hlen₁.trans hlen, hout⟩
  | ok u =>
    obtain ⟨hlen₁, hoff₁, hbound, hbytes, hout⟩ := h₁
    simp only [hoff, List.length_singleton, Nat.zero_add] at hoff₁
    have hfive : sizeAdd e₁.offset remainingLengthMaxBytes = 5 := by rw [hoff₁]; rfl
    rw [framed, show appendByte bufLen header = append bufLen [header] from rfl,
      Prog.bind_of_ok hrun]
    simp only [Prog.run_get_bind]
    -- room for the header byte, but not for the gap
    by_cases h5 : bufLen < 5
    · refine Or.inl ⟨h5, e₁, ?_, hlen₁.trans hlen, hout⟩
      refine Prog.bind_of_error (Prog.bind_of_error ?_)
      simp [ensureSpace, hfive, h5]
    · have hres : reserveSpace remainingLengthMaxBytes bufLen e₁ =
          .ok (.ok (), { e₁ with offset := 5 }) := by
        have hroom : ensureSpace remainingLengthMaxBytes bufLen e₁ =
            .ok (.ok (), e₁) := by
          simp [ensureSpace, hfive, h5]
        simp only [reserveSpace]
        rw [Prog.bind_of_ok hroom]
        simp [hfive]
      refine Or.inr ⟨{ e₁ with offset := 5 }, (e₁.buf.drop 1).take 4, hlen₁.trans hlen, rfl, hout,
        ?_, by omega, ?_, ?_⟩
      · simp only [List.length_take, List.length_drop]
        omega
      · rw [show 5 = 1 + 4 from rfl, List.take_add]
        simp only [hoff₁, hoff, List.take_zero, List.nil_append] at hbytes
        rw [hbytes]
        rfl
      · rw [Prog.bind_of_ok hres, hoff₁]

/-- **A framed packet.** If the body appends `data`, the whole encoder either leaves the packet
around `data` at the front of the buffer or refuses it. -/
theorem framed_ensures {bufLen : Nat} {header : UInt8} {body : Enc Unit} {data : List UInt8}
    {e : Encoder} (hbuf : bufLen < 2 ^ 64) (hbody : Appends bufLen body data)
    (hlen : e.buf.length = bufLen) (hoff : e.offset = 0) :
    (framed bufLen header body).Ensures e (FramedEnd header data e) := by
  rcases framed_eq header body hbuf hlen hoff with
    ⟨h5, e', hrun, hlen', hout⟩ | ⟨e₂, gap, hlen₂, hoff₂, hout₂, hgap, h5, hbytes₂, hrun⟩
  · intro r e'' h
    rw [hrun] at h
    cases h
    exact ⟨rfl, hlen'.trans hlen.symm, hout, Or.inl (by omega)⟩
  · intro r e'' h
    rw [hrun] at h
    refine (hbody e₂ hlen₂ (by omega)).bind (Q := FramedEnd header data e)
      (fun _ e₃ h₃ => ?_) (fun status e₃ h₃ => ?_) r e'' h
    · intro r e₄ h₄
      have hbytes₃ : e₃.buf.take e₃.offset = header :: (gap ++ data) := by
        rw [h₃.bytes, hoff₂, hbytes₂, List.cons_append]
      have hlen₃ : e₃.buf.length = e.buf.length := by rw [h₃.length, hlen₂, hlen]
      obtain ⟨r', e₄', h₄', hend⟩ := finishRemainingLength_returns (by omega) hgap
        (by rw [h₃.offset, hoff₂]) (by rw [hlen₃, hlen, ← hlen₂]; exact h₃.bound) hbytes₃
      rw [h₄'] at h₄
      cases h₄
      have hout₃ : e₃.outLen = e.outLen := h₃.outLen.trans hout₂
      cases r with
      | ok u => simpa only [FramedEnd, hlen₃] using hend
      | error status => simpa only [FramedEnd, hlen₃, hout₃] using hend
    · -- the body did not fit behind the header byte and the gap
      obtain ⟨hst, hl, hshort, ho⟩ := h₃
      refine ⟨hst, by rw [hl, hlen₂, hlen], ho.trans hout₂, Or.inl ?_⟩
      rw [hlen₂, hoff₂] at hshort
      omega

/-- A framed packet whose size is a `size_t` is encoded without a fault. -/
theorem framed_returns {bufLen : Nat} {header : UInt8} {body : Enc Unit} {data : List UInt8}
    {e : Encoder} (hbuf : bufLen < 2 ^ 64) (hbody : Appends bufLen body data)
    (hsafe : Safe bufLen body data.length) (hlen : e.buf.length = bufLen) (hoff : e.offset = 0)
    (hfits : 5 + data.length < 2 ^ 64) :
    (framed bufLen header body).Returns e (FramedEnd header data e) := by
  suffices h : (framed bufLen header body).Returns e fun _ _ => True from
    (h.and_ensures (framed_ensures hbuf hbody hlen hoff)).mono fun _ _ h => h.2
  rcases framed_eq header body hbuf hlen hoff with
    ⟨h5, e', hrun, hlen', hout⟩ | ⟨e₂, gap, hlen₂, hoff₂, hout₂, hgap, h5, hbytes₂, hrun⟩
  · exact ⟨_, _, hrun, trivial⟩
  · rw [Prog.Returns, hrun]
    refine ((hsafe e₂ hlen₂ (by omega) (by omega)).and_ensures
      (hbody e₂ hlen₂ (by omega))).bind (fun _ e₃ h₃ => ?_) (fun _ _ _ => trivial)
    have hwrote : Wrote e₂ data e₃ := h₃.2
    have hbytes₃ : e₃.buf.take e₃.offset = header :: (gap ++ data) := by
      rw [hwrote.bytes, hoff₂, hbytes₂, List.cons_append]
    have hlen₃ : e₃.buf.length = bufLen := hwrote.length.trans hlen₂
    exact (finishRemainingLength_returns (by omega) hgap (by rw [hwrote.offset, hoff₂])
      (by rw [hlen₃, ← hlen₂]; exact hwrote.bound) hbytes₃).mono fun _ _ _ => trivial

/-! ## Every packet -/

theorem encodePingreq_eq {bufLen : Nat} {e : Encoder} (hlen : e.buf.length = bufLen) :
    encodePingreq bufLen e =
      if bufLen < 2 then .ok (.error bufferTooSmall, e)
      else .ok (.ok (), { e with
        buf := [headerByte .pingreq 0, 0] ++ e.buf.drop 2, outLen := 2 }) := by
  unfold encodePingreq
  by_cases h : bufLen < 2
  · simp [h]
  · have hst : store e.buf 0 [headerByte .pingreq 0, 0] =
        .ok ([headerByte .pingreq 0, 0] ++ e.buf.drop 2) :=
      store_eq_ok.mpr ⟨by simp; omega, by simp⟩
    simp [h, hst]

/-- The body of each framed packet is appended piece by piece. -/
theorem connect_appends {bufLen : Nat} (hbuf : bufLen < 2 ^ 64) (clientId : List UInt8)
    (keepaliveSec : UInt16) :
    Appends bufLen (do
      writeUtf8 bufLen [0x4D, 0x51, 0x54, 0x54]
      appendByte bufLen protocolLevel
      appendByte bufLen connectCleanSession
      appendUint16Be bufLen keepaliveSec
      writeUtf8 bufLen clientId) (Packet.connect clientId keepaliveSec).body :=
  (append_appends hbuf _).seq <| (append_appends hbuf _).seq <| (append_appends hbuf _).seq <|
    (append_appends hbuf _).seq (append_appends hbuf _)

theorem publish_appends {bufLen : Nat} (hbuf : bufLen < 2 ^ 64) (topic payload : List UInt8) :
    Appends bufLen (do
      writeUtf8 bufLen topic
      append bufLen payload) (Packet.publish topic payload).body :=
  (append_appends hbuf _).seq (append_appends hbuf _)

theorem subscribe_appends {bufLen : Nat} (hbuf : bufLen < 2 ^ 64) (packetId : UInt16)
    (topic : List UInt8) :
    Appends bufLen (do
      appendUint16Be bufLen packetId
      writeUtf8 bufLen topic
      appendByte bufLen subscribePayloadQos) (Packet.subscribe packetId topic).body :=
  (append_appends hbuf _).seq <| (append_appends hbuf _).seq (append_appends hbuf _)

theorem connect_safe {bufLen : Nat} (hbuf : bufLen < 2 ^ 64) (clientId : List UInt8)
    (keepaliveSec : UInt16) :
    Safe bufLen (do
      writeUtf8 bufLen [0x4D, 0x51, 0x54, 0x54]
      appendByte bufLen protocolLevel
      appendByte bufLen connectCleanSession
      appendUint16Be bufLen keepaliveSec
      writeUtf8 bufLen clientId) (Packet.connect clientId keepaliveSec).body.length := by
  have hsafe : ∀ d, Safe bufLen (append bufLen d) d.length := append_safe bufLen
  have happ : ∀ d, Appends bufLen (append bufLen d) d := append_appends hbuf
  exact (hsafe _).seq (happ _) <| (hsafe _).seq (happ _) <| (hsafe _).seq (happ _) <|
    (hsafe _).seq (happ _) (hsafe _)

theorem publish_safe {bufLen : Nat} (hbuf : bufLen < 2 ^ 64) (topic payload : List UInt8) :
    Safe bufLen (do
      writeUtf8 bufLen topic
      append bufLen payload) (Packet.publish topic payload).body.length :=
  Safe.seq (append_safe bufLen _) (append_appends hbuf _) (append_safe bufLen _)

theorem subscribe_safe {bufLen : Nat} (hbuf : bufLen < 2 ^ 64) (packetId : UInt16)
    (topic : List UInt8) :
    Safe bufLen (do
      appendUint16Be bufLen packetId
      writeUtf8 bufLen topic
      appendByte bufLen subscribePayloadQos) (Packet.subscribe packetId topic).body.length :=
  Safe.seq (append_safe bufLen _) (append_appends hbuf _) <|
    Safe.seq (append_safe bufLen _) (append_appends hbuf _) (append_safe bufLen _)

/-- How an encoder can end: OK with the packet at the front of the buffer, or refused. -/
def Encoded (p : Packet) (e : Encoder) : Except Status Unit → Encoder → Prop
  | .ok (), e' =>
    e'.buf.length = e.buf.length ∧ e'.outLen = p.bytes.length ∧ e'.buf.take e'.outLen = p.bytes
  | .error status, e' =>
    status = bufferTooSmall ∧ e'.buf.length = e.buf.length ∧ e'.outLen = e.outLen

theorem FramedEnd.encoded {p : Packet} {e : Encoder} {r : Except Status Unit} {e' : Encoder}
    (h : FramedEnd p.header p.body e r e') : Encoded p e r e' := by
  cases r with
  | ok u =>
    obtain ⟨hlen, -, -, hout, hbytes⟩ := h
    exact ⟨hlen, hout, hbytes⟩
  | error status =>
    obtain ⟨hst, hlen, hout, -⟩ := h
    exact ⟨hst, hlen, hout⟩

theorem encodePingreq_encoded {bufLen : Nat} {e : Encoder} (hlen : e.buf.length = bufLen) :
    (encodePingreq bufLen).Returns e (Encoded .pingreq e) := by
  rw [Prog.Returns, encodePingreq_eq hlen]
  split
  · exact ⟨_, _, rfl, rfl, rfl, rfl⟩
  · refine ⟨_, _, rfl, ?_, rfl, rfl⟩
    simp only [List.length_append, List.length_drop, List.length_cons, List.length_nil]
    omega

/-- **What the encoders write.** An encoder that returns OK leaves the packet's bytes at the front
of the buffer and their number in `*out_len`; one that fails reports `BUFFER_TOO_SMALL`. -/
theorem encode_ensures {bufLen : Nat} {e : Encoder} (p : Packet) (hbuf : bufLen < 2 ^ 64)
    (hlen : e.buf.length = bufLen) (hoff : e.offset = 0) :
    (p.encode bufLen).Ensures e (Encoded p e) := by
  intro r e' h
  cases p with
  | connect clientId keepaliveSec =>
    exact (framed_ensures hbuf (connect_appends hbuf clientId keepaliveSec) hlen hoff _ _ h).encoded
  | publish topic payload =>
    exact (framed_ensures hbuf (publish_appends hbuf topic payload) hlen hoff _ _ h).encoded
  | subscribe packetId topic =>
    exact (framed_ensures hbuf (subscribe_appends hbuf packetId topic) hlen hoff _ _ h).encoded
  | pingreq =>
    obtain ⟨r', e'', hrun, hpost⟩ := encodePingreq_encoded hlen
    have h' : encodePingreq bufLen e = .ok (r, e') := h
    rw [hrun] at h'
    cases h'
    exact hpost

/-- A packet whose size is a `size_t` is encoded, or refused, without a fault. -/
theorem encode_returns {bufLen : Nat} {e : Encoder} (p : Packet) (hbuf : bufLen < 2 ^ 64)
    (hlen : e.buf.length = bufLen) (hoff : e.offset = 0) (hfits : 5 + p.body.length < 2 ^ 64) :
    (p.encode bufLen).Returns e (Encoded p e) := by
  cases p with
  | connect clientId keepaliveSec =>
    exact (framed_returns hbuf (connect_appends hbuf clientId keepaliveSec)
      (connect_safe hbuf clientId keepaliveSec) hlen hoff hfits).mono fun _ _ h => h.encoded
  | publish topic payload =>
    exact (framed_returns hbuf (publish_appends hbuf topic payload)
      (publish_safe hbuf topic payload) hlen hoff hfits).mono fun _ _ h => h.encoded
  | subscribe packetId topic =>
    exact (framed_returns hbuf (subscribe_appends hbuf packetId topic)
      (subscribe_safe hbuf packetId topic) hlen hoff hfits).mono fun _ _ h => h.encoded
  | pingreq => exact encodePingreq_encoded hlen

end Aemlib.Proto
