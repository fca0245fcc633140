import Aemlib.Proto.Basic
import Aemlib.Machine.Varint
import Mathlib.Tactic.Ring

/-!
# Decoders (`proto/proto.c`)

Each decoder is given the memory behind a pointer and the number of valid bytes in it. It is
translated with its reads checked, and then tied to what it computes on the valid bytes alone:

* `decodeFixedHeader buf n` is `parseHeader (buf.take n)` — a function of the bytes that cannot
  fault (`decodeFixedHeader_eq`). Its verdicts on a growing buffer are final
  (`parseHeader_append_ok`, `parseHeader_append_error`).
* `decodePublish` and `decodeConnack` read only valid bytes (`decodePublish_eq`,
  `decodeConnack_eq`).
-/

namespace Aemlib.Proto

open Machine

/-! ## The code -/

/-- `validate_mqtt_flags`, on the types the library knows; its `default:` case refuses the others
and is in `decodeFixedHeader`. -/
def validateMqttFlags (type : PacketType) (flags : UInt8) : Status :=
  match type with
  | .connect | .connack | .puback | .suback | .pingreq | .pingresp | .disconnect =>
    if flags ≠ 0x00 then protocolError else statusOk
  | .publish =>
    -- DUP and RETAIN may be set; QoS 3 is reserved
    let qos := (flags >>> 1) &&& 0x03
    if qos = 0x03 then protocolError else statusOk
  | .subscribe => if flags ≠ 0x02 then protocolError else statusOk

/-- The loop of `aemlib_proto_decode_remaining_length`, with `left = buf_len - i` turns to go. -/
def decodeRemainingLengthLoop (buf : List UInt8) :
    (left i multiplier result : Nat) → Except Fault (Except Status (Nat × Nat))
  | 0, _, _, _ => .ok (.error bufferTooSmall)
  | left + 1, i, multiplier, result => do
    let byte ← fetch buf i
    let result := (result + (byte &&& remainingLengthMask).toNat * multiplier) % 2 ^ 32
    if multiplier > maxRemainingLengthMultiplier then
      return .error protocolError
    if byte &&& remainingLengthContinuation = 0 then
      return .ok (result, i + 1)
    decodeRemainingLengthLoop buf left (i + 1) (multiplier * remainingLengthBase % 2 ^ 32) result

/-- `aemlib_proto_decode_remaining_length`: the value and the number of bytes consumed. -/
def decodeRemainingLength (buf : List UInt8) (bufLen : Nat) :
    Except Fault (Except Status (Nat × Nat)) :=
  decodeRemainingLengthLoop buf bufLen 0 1 0

/-- `aemlib_proto_decode_fixed_header`. The source fills in `type` and `flags` before it can
fail; no caller reads them then, so a failure here carries the status alone. -/
def decodeFixedHeader (buf : List UInt8) (bufLen : Nat) :
    Except Fault (Except Status FixedHeader) := do
  if bufLen < fixedHeaderMinSize then
    return .error bufferTooSmall
  let header ← fetch buf 0
  let flags := header &&& 0x0F
  match PacketType.ofVal? (header >>> 4) with
  | none => return .error protocolError
  | some type =>
    let status := validateMqttFlags type flags
    if status ≠ statusOk then
      return .error status
    match ← decodeRemainingLength (buf.drop 1) (bufLen - 1) with
    | .error status => return .error status
    | .ok (remainingLen, consumed) =>
      return .ok
        { type := type
          flags := flags
          remainingLength := remainingLen
          headerSize := sizeAdd 1 consumed }

/-- The `topic`/`payload` pointers `aemlib_proto_decode_publish` hands out, as offsets into the
buffer, with their lengths. -/
structure PublishView where
  topicStart : Nat
  topicLen : Nat
  payloadStart : Nat
  payloadLen : Nat
  deriving DecidableEq, Repr

def decodePublish (buf : List UInt8) (bufLen : Nat) (header : FixedHeader) :
    Except Fault (Except Status PublishView) := do
  -- QoS 1/2 carry a packet identifier that is not parsed
  let qos := (header.flags >>> 1) &&& 0x03
  if qos ≠ 0 then
    return .error (mkStatus .protocol .unsupported)
  let offset := header.headerSize
  let packetEnd := sizeAdd header.headerSize header.remainingLength
  if packetEnd > bufLen then
    return .error bufferTooSmall
  if sizeAdd offset utf8LengthPrefixSize > packetEnd then
    return .error (mkStatus .protocol .malformed)
  let hi ← fetch buf offset
  let lo ← fetch buf (sizeAdd offset 1)
  let topicLength := (hi.toNat <<< 8) ||| lo.toNat
  let topicStart := sizeAdd offset utf8LengthPrefixSize
  if sizeAdd topicStart topicLength > packetEnd then
    return .error (mkStatus .protocol .malformed)
  let payloadStart := sizeAdd topicStart topicLength
  let payloadLen ← checkedSub packetEnd payloadStart
  return .ok
    { topicStart := topicStart
      topicLen := topicLength
      payloadStart := payloadStart
      payloadLen := payloadLen }

/-- `aemlib_proto_decode_connack`: the session-present bit and the return code. -/
def decodeConnack (buf : List UInt8) (bufLen : Nat) :
    Except Fault (Except Status (UInt8 × UInt8)) := do
  if bufLen < connackMinSize then
    return .error bufferTooSmall
  let session ← fetch buf connackSessionByteIndex
  let returnCode ← fetch buf connackReturnCodeIndex
  return .ok (session &&& 0x01, returnCode)

/-- `aemlib_proto_decode_suback`: the packet id and the granted QoS. The type of the packet is left
to the caller. -/
def decodeSuback (buf : List UInt8) (bufLen : Nat) :
    Except Fault (Except Status (UInt16 × UInt8)) := do
  if bufLen < subackMinSize then
    return .error bufferTooSmall
  let hi ← fetch buf subackPacketIdByte1
  let lo ← fetch buf subackPacketIdByte2
  let grantedQos ← fetch buf subackGrantedQosIndex
  return .ok (UInt16.ofNat ((hi.toNat <<< 8) ||| lo.toNat), grantedQos)

/-! ## What the decoders compute -/

def parseRemainingLength (bytes : List UInt8) : Except Status (Nat × Nat) :=
  match Varint.scan remainingLengthMaxBytes bytes with
  | .value v n => .ok (v, n)
  | .more => .error bufferTooSmall
  | .overlong => .error protocolError

def parseHeader : List UInt8 → Except Status FixedHeader
  | [] => .error bufferTooSmall
  | [_] => .error bufferTooSmall
  | header :: length =>
    match PacketType.ofVal? (header >>> 4) with
    | none => .error protocolError
    | some type =>
      if validateMqttFlags type (header &&& 0x0F) ≠ statusOk then
        .error (validateMqttFlags type (header &&& 0x0F))
      else
        match parseRemainingLength length with
        | .error status => .error status
        | .ok (v, n) =>
          .ok { type := type, flags := header &&& 0x0F, remainingLength := v, headerSize := 1 + n }

/-! ## The remaining length loop

The loop carries `multiplier = 128 ^ i` and a partial sum below it, so no product or sum that
reaches the result wraps: the guard on the multiplier stops the turn in which one could. -/

/-- What the loop reports for a scan of the bytes still to come. -/
def loopResult (i result : Nat) : Varint.Scan → Except Status (Nat × Nat)
  | .value v n => .ok (result + 128 ^ i * v, i + n)
  | .more => .error bufferTooSmall
  | .overlong => .error protocolError

/-- One digit further is one digit less to scan. -/
theorem loopResult_push (i result d : Nat) (s : Varint.Scan) :
    loopResult i result (s.push d) = loopResult (i + 1) (result + d * 128 ^ i) s := by
  cases s with
  | value v n =>
    simp only [loopResult, Varint.Scan.push, Except.ok.injEq, Prod.mk.injEq]
    constructor
    · rw [Nat.pow_succ]
      ring
    · omega
  | more => rfl
  | overlong => rfl

/-- The digits read so far and one more stay below the next power. -/
theorem partialSum_lt {i result d : Nat} (hres : result < 128 ^ i) (hd : d < 128) :
    result + d * 128 ^ i < 128 ^ (i + 1) := by
  have : d * 128 ^ i ≤ 127 * 128 ^ i := Nat.mul_le_mul_right _ (by omega)
  rw [Nat.pow_succ]
  omega

theorem decodeRemainingLengthLoop_eq (buf : List UInt8) (left i result : Nat) (hi : i ≤ 4)
    (hres : result < 128 ^ i) (hlen : i + left ≤ buf.length) :
    decodeRemainingLengthLoop buf left i (128 ^ i) result =
      .ok (loopResult i result (Varint.scan (4 - i) ((buf.drop i).take left))) := by
  induction left generalizing i result with
  | zero => simp [decodeRemainingLengthLoop, Varint.scan, loopResult]
  | succ left ih =>
    have hget : i < buf.length := by omega
    have hcons : (buf.drop i).take (left + 1) = buf[i] :: (buf.drop (i + 1)).take left := by
      rw [List.drop_eq_getElem_cons hget, List.take_succ_cons]
    rw [hcons, decodeRemainingLengthLoop, fetch_of_lt hget]
    simp only [bind, Except.bind, pure, Except.pure]
    by_cases h4 : i = 4
    · subst h4
      simp [Varint.scan, loopResult, maxRemainingLengthMultiplier]
    · -- below four digits the guard is not reached and nothing wraps
      obtain ⟨k, hk⟩ : ∃ k, 4 - i = k + 1 := ⟨3 - i, by omega⟩
      have hpow : 128 ^ i ≤ 128 ^ 3 := Nat.pow_le_pow_right (by decide) (by omega)
      have hdig := Varint.toNat_and_mask buf[i]
      have hsum := partialSum_lt hres (Nat.mod_lt buf[i].toNat (by decide : 128 > 0))
      have hsum32 : result + buf[i].toNat % 128 * 128 ^ i < 2 ^ 32 := by
        have : 128 ^ (i + 1) ≤ 128 ^ 4 := Nat.pow_le_pow_right (by decide) (by omega)
        omega
      have hguard : ¬ 128 ^ i > maxRemainingLengthMultiplier := Nat.not_lt.mpr hpow
      rw [if_neg hguard, hdig, Nat.mod_eq_of_lt hsum32]
      simp only [Varint.and_continuation_eq_zero, remainingLengthContinuation, hk, Varint.scan]
      split
      · next hlast =>
        simp only [loopResult, Nat.mod_eq_of_lt hlast, Nat.mul_comm (128 ^ i)]
      · have hnext : 128 ^ i * remainingLengthBase % 2 ^ 32 = 128 ^ (i + 1) := by
          rw [Nat.pow_succ]
          exact Nat.mod_eq_of_lt (show 128 ^ i * 128 < 2 ^ 32 by omega)
        rw [hnext, ih (i + 1) _ (by omega) hsum (by omega), loopResult_push]
        have : 4 - (i + 1) = k := by omega
        rw [this]

theorem decodeRemainingLength_eq {buf : List UInt8} {n : Nat} (h : n ≤ buf.length) :
    decodeRemainingLength buf n = .ok (parseRemainingLength (buf.take n)) := by
  have := decodeRemainingLengthLoop_eq buf n 0 0 (by omega) (by simp) (by omega)
  simp only [Nat.pow_zero, List.drop_zero, Nat.sub_zero] at this
  rw [decodeRemainingLength, this, parseRemainingLength]
  cases Varint.scan 4 (buf.take n) <;> simp [loopResult]

/-! ## The fixed header -/

theorem parseRemainingLength_eq_ok {bytes : List UInt8} {v n : Nat} :
    parseRemainingLength bytes = .ok (v, n) ↔ Varint.scan 4 bytes = .value v n := by
  unfold parseRemainingLength
  split
  · next h => simp [h]
  · next h => simp [h]
  · next h => simp [h]

theorem parseRemainingLength_eq_protocolError {bytes : List UInt8} :
    parseRemainingLength bytes = .error protocolError ↔ Varint.scan 4 bytes = .overlong := by
  unfold parseRemainingLength
  split
  · next h => simp [h]
  · next h => simpa [h] using (by decide : bufferTooSmall ≠ protocolError)
  · next h => simp [h]

/-- The flags of a packet are right or break the protocol; there is no third verdict. -/
theorem validateMqttFlags_eq (type : PacketType) (flags : UInt8) :
    validateMqttFlags type flags = statusOk ∨ validateMqttFlags type flags = protocolError := by
  unfold validateMqttFlags
  cases type <;> (simp only; split <;> simp)

theorem decodeFixedHeader_eq {buf : List UInt8} {n : Nat} (h : n ≤ buf.length) :
    decodeFixedHeader buf n = .ok (parseHeader (buf.take n)) := by
  unfold decodeFixedHeader
  simp only [bind, Except.bind, pure, Except.pure]
  -- less than two bytes are no header; behind the first byte it is the length scan that decides
  match n, buf, h with
  | 0, _, _ => simp [parseHeader]
  | 1, b :: _, _ => simp [parseHeader]
  | n + 2, b :: b' :: rest, h =>
    have hn : n + 1 ≤ (b' :: rest).length := by simpa using h
    have hrem := decodeRemainingLength_eq hn
    rw [if_neg (by simp)]
    simp only [fetch, List.getElem?_cons_zero, List.drop_succ_cons, List.drop_zero,
      Nat.add_one_sub_one, hrem, List.take_succ_cons, parseHeader]
    cases PacketType.ofVal? (b >>> 4) with
    | none => rfl
    | some type =>
      simp only
      split
      · rfl
      · cases hp : parseRemainingLength (b' :: List.take n rest) with
        | error status => rfl
        | ok vn =>
          obtain ⟨v, m⟩ := vn
          have hm : m ≤ 4 := (Varint.scan_consumed (parseRemainingLength_eq_ok.mp hp)).2.1
          simp only [sizeAdd_of_lt (show 1 + m < 2 ^ 64 by omega)]

/-- The header of two bytes or more, as one chain of tests. -/
theorem parseHeader_cons {b b' : UInt8} {rest : List UInt8} :
    parseHeader (b :: b' :: rest) =
      match PacketType.ofVal? (b >>> 4) with
      | none => .error protocolError
      | some type =>
        if validateMqttFlags type (b &&& 0x0F) ≠ statusOk then
          .error (validateMqttFlags type (b &&& 0x0F))
        else
          match parseRemainingLength (b' :: rest) with
          | .error status => .error status
          | .ok (v, n) =>
            .ok { type := type, flags := b &&& 0x0F, remainingLength := v, headerSize := 1 + n } :=
  rfl

/-- A header that was read: type and flags are the first byte's and pass validation, the length
is the number scanned behind that byte. -/
theorem parseHeader_eq_ok {bytes : List UInt8} {header : FixedHeader} :
    parseHeader bytes = .ok header ↔
      ∃ b length n, bytes = b :: length ∧ PacketType.ofVal? (b >>> 4) = some header.type ∧
        header.flags = b &&& 0x0F ∧ validateMqttFlags header.type header.flags = statusOk ∧
        Varint.scan 4 length = .value header.remainingLength n ∧ header.headerSize = 1 + n := by
  constructor
  · intro h
    match bytes with
    | [] => simp [parseHeader] at h
    | [_] => simp [parseHeader] at h
    | b :: b' :: rest =>
      rw [parseHeader_cons] at h
      split at h
      · cases h
      · next type htype =>
        split at h
        · cases h
        · next hflags =>
          split at h
          · cases h
          · next v n hlen =>
            cases h
            exact ⟨b, b' :: rest, n, rfl, htype, rfl, not_not.mp hflags,
              parseRemainingLength_eq_ok.mp hlen, rfl⟩
  · rintro ⟨b, length, n, rfl, htype, hflags, hvalid, hscan, hsize⟩
    cases length with
    | nil => simp [Varint.scan] at hscan
    | cons b' rest =>
      rw [hflags] at hvalid
      rw [parseHeader_cons, htype]
      simp only [hvalid, ne_eq, not_true_eq_false, if_false,
        parseRemainingLength_eq_ok.mpr hscan]
      cases header
      simp_all

/-- A header that was refused: an unknown type, wrong flags or an overlong length. -/
theorem parseHeader_eq_protocolError {bytes : List UInt8} :
    parseHeader bytes = .error protocolError ↔
      ∃ b b' rest, bytes = b :: b' :: rest ∧ ∀ type, PacketType.ofVal? (b >>> 4) = some type →
        validateMqttFlags type (b &&& 0x0F) = statusOk →
          Varint.scan 4 (b' :: rest) = .overlong := by
  have hne : bufferTooSmall ≠ protocolError := by decide
  -- less than two bytes are too few, which is not a breach of the protocol
  match bytes with
  | [] => simp [parseHeader, hne]
  | [_] => simp [parseHeader, hne]
  | b :: b' :: rest =>
    rw [parseHeader_cons]
    cases htype : PacketType.ofVal? (b >>> 4) with
    | none => simp [htype]
    | some type =>
      simp only
      rcases validateMqttFlags_eq type (b &&& 0x0F) with hvalid | hvalid
      · rw [if_neg (by simp [hvalid])]
        cases hlen : parseRemainingLength (b' :: rest) with
        | ok vn =>
          have hscan := parseRemainingLength_eq_ok.mp (show _ = Except.ok (vn.1, vn.2) from hlen)
          simp [htype, hvalid, hscan]
        | error status =>
          have := @parseRemainingLength_eq_protocolError (b' :: rest)
          rw [hlen] at this
          simpa [htype, hvalid] using this
      · have hbad : protocolError ≠ statusOk := by decide
        simp [htype, hvalid, hbad]

/-- Every refusal is "wait for more" or "wrong". -/
theorem parseHeader_error {bytes : List UInt8} {status : Status}
    (h : parseHeader bytes = .error status) : status = bufferTooSmall ∨ status = protocolError := by
  match bytes with
  | [] => exact Or.inl (Except.error.inj h).symm
  | [_] => exact Or.inl (Except.error.inj h).symm
  | b :: b' :: rest =>
    rw [parseHeader_cons] at h
    split at h
    · exact Or.inr (Except.error.inj h).symm
    · next type htype =>
      split at h
      · next hflags =>
        rcases validateMqttFlags_eq type (b &&& 0x0F) with hvalid | hvalid
        · exact absurd hvalid hflags
        · exact Or.inr ((Except.error.inj h).symm.trans hvalid)
      · unfold parseRemainingLength at h
        cases hscan : Varint.scan 4 (b' :: rest) with
        | value v n => simp [hscan] at h
        | more =>
          simp only [hscan] at h
          exact Or.inl (Except.error.inj h).symm
        | overlong =>
          simp only [hscan] at h
          exact Or.inr (Except.error.inj h).symm

/-- A header once read stays read, whatever bytes follow. -/
theorem parseHeader_append_ok {bytes : List UInt8} {header : FixedHeader} (more : List UInt8)
    (h : parseHeader bytes = .ok header) : parseHeader (bytes ++ more) = .ok header := by
  obtain ⟨b, length, n, rfl, htype, hflags, hvalid, hscan, hsize⟩ := parseHeader_eq_ok.mp h
  exact parseHeader_eq_ok.mpr
    ⟨b, length ++ more, n, rfl, htype, hflags, hvalid, Varint.scan_append_value more hscan, hsize⟩

/-- The bytes a header takes are enough to read it. -/
theorem parseHeader_take {bytes : List UInt8} {header : FixedHeader} {n : Nat}
    (h : parseHeader bytes = .ok header) (hn : header.headerSize ≤ n) :
    parseHeader (bytes.take n) = .ok header := by
  obtain ⟨b, length, k, rfl, htype, hflags, hvalid, hscan, hsize⟩ := parseHeader_eq_ok.mp h
  obtain ⟨n, rfl⟩ : ∃ m, n = m + 1 := ⟨n - 1, by omega⟩
  apply parseHeader_eq_ok.mpr
  exact ⟨b, length.take n, k, rfl, htype, hflags, hvalid, Varint.scan_take hscan (by omega), hsize⟩

/-- A header once refused stays refused. -/
theorem parseHeader_append_error {bytes : List UInt8} (more : List UInt8)
    (h : parseHeader bytes = .error protocolError) :
    parseHeader (bytes ++ more) = .error protocolError := by
  obtain ⟨b, b', rest, rfl, hbad⟩ := parseHeader_eq_protocolError.mp h
  refine parseHeader_eq_protocolError.mpr ⟨b, b', rest ++ more, rfl, fun type htype hvalid => ?_⟩
  exact Varint.scan_append_overlong more (hbad type htype hvalid)

/-- The bytes before a header is complete: still waiting, or the header of the whole. -/
theorem parseHeader_prefix {bytes more : List UInt8} {header : FixedHeader}
    (h : parseHeader (bytes ++ more) = .ok header) :
    parseHeader bytes = .error bufferTooSmall ∨ parseHeader bytes = .ok header := by
  cases hb : parseHeader bytes with
  | ok header' =>
    rw [parseHeader_append_ok more hb] at h
    exact Or.inr h
  | error status =>
    rcases parseHeader_error hb with rfl | rfl
    · exact Or.inl rfl
    · rw [parseHeader_append_error more hb] at h
      cases h

/-- A header takes two to five of the bytes and announces less than `2 ^ 28` more. -/
theorem parseHeader_bounds {bytes : List UInt8} {header : FixedHeader}
    (h : parseHeader bytes = .ok header) :
    2 ≤ header.headerSize ∧ header.headerSize ≤ 5 ∧ header.headerSize ≤ bytes.length ∧
      header.remainingLength < 2 ^ 28 := by
  obtain ⟨b, length, n, rfl, -, -, -, hscan, hsize⟩ := parseHeader_eq_ok.mp h
  have hcons := Varint.scan_consumed hscan
  have hval := Varint.scan_value_lt hscan
  simp only [List.length_cons]
  omega

/-- The packet length does not wrap. -/
theorem packetLen_eq {bytes : List UInt8} {header : FixedHeader}
    (h : parseHeader bytes = .ok header) :
    header.packetLen = header.headerSize + header.remainingLength := by
  have := parseHeader_bounds h
  exact sizeAdd_of_lt (by omega)

theorem two_le_packetLen {bytes : List UInt8} {header : FixedHeader}
    (h : parseHeader bytes = .ok header) : 2 ≤ header.packetLen := by
  have := parseHeader_bounds h
  rw [packetLen_eq h]
  omega

/-! ## CONNACK, SUBACK and PUBLISH -/

/-- `decodeConnack` reads the bytes it was given and picks fields by position. -/
theorem decodeConnack_eq {buf : List UInt8} {n : Nat} (h : n ≤ buf.length) :
    decodeConnack buf n =
      .ok (if n < 4 then .error bufferTooSmall else .ok (buf.getD 2 0 &&& 0x01, buf.getD 3 0)) := by
  unfold decodeConnack
  simp only [bind, Except.bind, pure, Except.pure]
  by_cases hn : n < 4
  · rw [if_pos hn, if_pos hn]
  · have h2 : connackSessionByteIndex < buf.length := show 2 < buf.length by omega
    have h3 : connackReturnCodeIndex < buf.length := show 3 < buf.length by omega
    rw [if_neg hn, if_neg hn, fetch_of_lt h2, fetch_of_lt h3]
    simp [List.getD_eq_getElem?_getD, List.getElem?_eq_getElem h2, List.getElem?_eq_getElem h3]

/-- Two bytes, high one first, as the decoder puts them together. -/
theorem shiftLeft_or_eq (hi lo : UInt8) :
    (hi.toNat <<< 8) ||| lo.toNat = hi.toNat * 256 + lo.toNat := by
  have := Nat.two_pow_add_eq_or_of_lt (i := 8) lo.toNat_lt hi.toNat
  rw [Nat.shiftLeft_eq, Nat.mul_comm, ← this, Nat.mul_comm]

/-- `decodeSuback` picks its fields by position too. -/
theorem decodeSuback_eq {buf : List UInt8} {n : Nat} (h : n ≤ buf.length) :
    decodeSuback buf n =
      .ok (if n < 5 then .error bufferTooSmall
        else .ok (UInt16.ofNat ((buf.getD 2 0).toNat * 256 + (buf.getD 3 0).toNat),
          buf.getD 4 0)) := by
  unfold decodeSuback
  simp only [bind, Except.bind, pure, Except.pure, shiftLeft_or_eq]
  by_cases hn : n < 5
  · rw [if_pos hn, if_pos hn]
  · have h2 : subackPacketIdByte1 < buf.length := show 2 < buf.length by omega
    have h3 : subackPacketIdByte2 < buf.length := show 3 < buf.length by omega
    have h4 : subackGrantedQosIndex < buf.length := show 4 < buf.length by omega
    rw [if_neg hn, if_neg hn, fetch_of_lt h2, fetch_of_lt h3, fetch_of_lt h4]
    simp [List.getD_eq_getElem?_getD, List.getElem?_eq_getElem h2, List.getElem?_eq_getElem h3,
      List.getElem?_eq_getElem h4]

/-- The PUBLISH behind a header, by the grammar of the packet: QoS 0, all of it there, a two-byte
topic length that the body can hold, the topic, and the payload up to the end. -/
def parsePublish (bytes : List UInt8) (header : FixedHeader) : Except Status PublishView :=
  let topicLen := (bytes.getD header.headerSize 0).toNat * 256 +
    (bytes.getD (header.headerSize + 1) 0).toNat
  if (header.flags >>> 1) &&& 0x03 ≠ 0 then .error (mkStatus .protocol .unsupported)
  else if bytes.length < header.headerSize + header.remainingLength then .error bufferTooSmall
  else if header.remainingLength < 2 + topicLen ∨ header.remainingLength < 2 then
    .error (mkStatus .protocol .malformed)
  else .ok
    { topicStart := header.headerSize + 2
      topicLen := topicLen
      payloadStart := header.headerSize + 2 + topicLen
      payloadLen := header.remainingLength - 2 - topicLen }

/-- `decodePublish` reads valid bytes only and computes `parsePublish` on them. -/
theorem decodePublish_eq {buf : List UInt8} {n : Nat} {header : FixedHeader} (h : n ≤ buf.length)
    (hsize : header.headerSize ≤ 5) (hrem : header.remainingLength < 2 ^ 28) :
    decodePublish buf n header = .ok (parsePublish (buf.take n) header) := by
  unfold decodePublish parsePublish
  simp only [bind, Except.bind, pure, Except.pure]
  have hlen : (buf.take n).length = n := by rw [List.length_take, Nat.min_eq_left h]
  have hend : sizeAdd header.headerSize header.remainingLength =
      header.headerSize + header.remainingLength := sizeAdd_of_lt (by omega)
  have hoff : sizeAdd header.headerSize utf8LengthPrefixSize = header.headerSize + 2 :=
    sizeAdd_of_lt (show header.headerSize + 2 < 2 ^ 64 by omega)
  have hone : sizeAdd header.headerSize 1 = header.headerSize + 1 := sizeAdd_of_lt (by omega)
  rw [hend, hoff, hone, hlen]
  split
  · rfl
  · by_cases hshort : n < header.headerSize + header.remainingLength
    · rw [if_pos hshort, if_pos hshort]
    · rw [if_neg hshort, if_neg hshort]
      by_cases htwo : header.headerSize + 2 > header.headerSize + header.remainingLength
      · rw [if_pos htwo, if_pos (Or.inr (by omega))]
      · have h0 : header.headerSize < buf.length := by omega
        have h1 : header.headerSize + 1 < buf.length := by omega
        -- past these tests both bytes of the topic length belong to the packet
        have hget : ∀ i, i < n → (buf.take n).getD i 0 = buf.getD i 0 := by
          intro i hi
          simp [List.getD_eq_getElem?_getD, hi]
        rw [if_neg htwo, hget _ (by omega), hget _ (by omega), fetch_of_lt h0, fetch_of_lt h1]
        simp only [shiftLeft_or_eq, List.getD_eq_getElem?_getD, List.getElem?_eq_getElem h0,
          List.getElem?_eq_getElem h1, Option.getD_some]
        -- so none of the sums can wrap
        have ht : buf[header.headerSize].toNat * 256 + buf[header.headerSize + 1].toNat
            < 2 ^ 16 := by
          have hhi := buf[header.headerSize].toNat_lt
          have hlo := buf[header.headerSize + 1].toNat_lt
          omega
        generalize buf[header.headerSize].toNat * 256 + buf[header.headerSize + 1].toNat = t
          at ht ⊢
        have hstart : sizeAdd (header.headerSize + 2) t = header.headerSize + 2 + t :=
          sizeAdd_of_lt (by omega)
        rw [hstart]
        by_cases hfit : header.headerSize + 2 + t > header.headerSize + header.remainingLength
        · rw [if_pos hfit, if_pos (Or.inl (by omega))]
        · rw [if_neg hfit, if_neg (by omega), checkedSub, if_pos (by omega)]
          simp only [Except.ok.injEq, PublishView.mk.injEq, true_and]
          omega

def PublishView.message (view : PublishView) (bytes : List UInt8) : List UInt8 × List UInt8 :=
  ((bytes.drop view.topicStart).take view.topicLen,
    (bytes.drop view.payloadStart).take view.payloadLen)

/-- Both slices of a PUBLISH lie inside the packet. -/
theorem parsePublish_bounds {bytes : List UInt8} {header : FixedHeader} {view : PublishView}
    (h : parsePublish bytes header = .ok view) :
    view.topicStart + view.topicLen ≤ bytes.length ∧
      view.payloadStart + view.payloadLen ≤ bytes.length := by
  unfold parsePublish at h
  simp only at h
  split at h
  · cases h
  · split at h
    · cases h
    · split at h
      · cases h
      · cases h
        simp only
        omega

end Aemlib.Proto
