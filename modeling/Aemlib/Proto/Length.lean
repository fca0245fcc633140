import Aemlib.Proto.Decode
import Aemlib.Proto.Encode

/-!
# The length field and the fixed header, exactly

Encoder and decoder of the remaining length bound its digits by different means: the encoder by the
buffer it is given, the decoder by a multiplier. Here each is described by itself, on every input,
and then the two together. They agree as long as the encoder is not given more than four bytes for
a number that needs them.

The fixed header is the one decoder that both receivers run again and again on a growing buffer, so
its verdicts have to be final and it must not wait for ever.
-/

namespace Aemlib.Proto

open Machine

/-! ## The encoder -/

/-- **The encoder of the length.** One byte for each digit, if the buffer has room for them. -/
theorem encodeRemainingLength_eq (value : Nat) (buf : List UInt8) :
    (Varint.width value ≤ buf.length ∧ ∃ buf',
      encodeRemainingLength value buf.length buf = .ok (.ok (Varint.width value), buf') ∧
      buf'.take (Varint.width value) = Varint.encode buf.length value) ∨
    (buf.length < Varint.width value ∧ ∃ buf',
      encodeRemainingLength value buf.length buf = .ok (.error bufferTooSmall, buf')) := by
  rcases Nat.eq_zero_or_pos buf.length with hzero | hpos
  · refine Or.inr ⟨by rw [hzero]; exact Varint.width_pos value, buf, ?_⟩
    rw [hzero]
    rfl
  · have hiff := Varint.width_le_iff (v := value) hpos
    by_cases hw : Varint.width value ≤ buf.length
    · obtain ⟨buf', hrun, hstore⟩ :=
        encodeRemainingLengthLoop_ok hpos (hiff.mp hw) (Nat.le_of_eq (Nat.zero_add buf.length))
      rw [Nat.zero_add, Varint.length_encode hw] at hrun
      have hdigits := take_of_store hstore
      rw [Nat.zero_add, Varint.length_encode hw, List.take_zero, List.nil_append] at hdigits
      exact Or.inl ⟨hw, buf', hrun, hdigits⟩
    · have hlong : 128 ^ buf.length ≤ value := Nat.le_of_not_lt fun h => hw (hiff.mpr h)
      obtain ⟨buf', hrun⟩ :=
        encodeRemainingLengthLoop_error hlong (Nat.le_of_eq (Nat.zero_add buf.length))
      exact Or.inr ⟨Nat.lt_of_not_le hw, buf', hrun⟩

/-- The same of an encoder that has returned OK. -/
theorem encodeRemainingLength_ok {value outLen : Nat} {buf buf' : List UInt8}
    (h : encodeRemainingLength value buf.length buf = .ok (.ok outLen, buf')) :
    Varint.width value ≤ buf.length ∧ outLen = Varint.width value ∧
      buf'.take outLen = Varint.encode buf.length value := by
  rcases encodeRemainingLength_eq value buf with ⟨hw, b, hrun, hdigits⟩ | ⟨-, b, hrun⟩
  · rw [hrun] at h
    cases h
    exact ⟨hw, rfl, hdigits⟩
  · rw [hrun] at h
    cases h

/-! ## What the encoder accepts, the decoder recovers -/

def EncodesLength (value : UInt32) (buf : List UInt8) : Prop :=
  ∃ outLen buf', encodeRemainingLength value.toNat buf.length buf = .ok (.ok outLen, buf')

theorem encodesLength_iff (value : UInt32) (buf : List UInt8) :
    EncodesLength value buf ↔ Varint.width value.toNat ≤ buf.length := by
  constructor
  · rintro ⟨outLen, buf', hrun⟩
    exact (encodeRemainingLength_ok hrun).1
  · intro hw
    rcases encodeRemainingLength_eq value.toNat buf with ⟨-, buf', hrun, -⟩ | ⟨hlt, -⟩
    · exact ⟨_, buf', hrun⟩
    · omega

/-- On this value and buffer, the encoder returns OK just if the format has the value and the buffer
has room for its digits, and the decoder gets the value back, whatever bytes follow. -/
structure LengthRecovered (value : UInt32) (buf : List UInt8) : Prop where
  accepts : EncodesLength value buf ↔
    value.toNat ≤ 268435455 ∧ Varint.width value.toNat ≤ buf.length
  recovers : ∀ outLen buf',
    encodeRemainingLength value.toNat buf.length buf = .ok (.ok outLen, buf') →
    ∀ more, decodeRemainingLength (buf'.take outLen ++ more) (buf'.take outLen ++ more).length =
      .ok (.ok (value.toNat, outLen))

/-- Four digits hold the values of the format. -/
theorem width_le_four_iff (value : Nat) : Varint.width value ≤ 4 ↔ value ≤ 268435455 := by
  rw [Varint.width_le_iff (by decide)]
  omega

/-- The decoder on the digits of a value of the format. -/
theorem decodeRemainingLength_encode {value budget : Nat} (more : List UInt8)
    (hvalue : value ≤ 268435455) (hw : Varint.width value ≤ budget) :
    decodeRemainingLength (Varint.encode budget value ++ more)
      (Varint.encode budget value ++ more).length = .ok (.ok (value, Varint.width value)) := by
  have hfour := (width_le_four_iff value).mpr hvalue
  rw [Varint.encode_congr hw hfour, decodeRemainingLength_eq (Nat.le_refl _), List.take_length]
  have hscan := @Varint.scan_encode 4 value more (by decide) (by omega)
  rw [Varint.length_encode hfour] at hscan
  rw [parseRemainingLength_eq_ok.mpr hscan]

/-- **When the two agree.** What the encoder accepts is recovered exactly if the value is one of the
format, or the buffer has no more than the four bytes of the format. -/
theorem length_recovered_iff (value : UInt32) (buf : List UInt8) :
    LengthRecovered value buf ↔ value.toNat ≤ 268435455 ∨ buf.length ≤ 4 := by
  have hencodes := encodesLength_iff value buf
  constructor
  · intro h
    by_contra hno
    rw [not_or] at hno
    -- a value of 32 bits has at most five digits, and there is room for them
    have hfive : Varint.width value.toNat ≤ 5 := by
      have hlt := value.toNat_lt
      exact (Varint.width_le_iff (by decide)).mpr (by omega)
    have haccepts := h.accepts.mp (hencodes.mpr (by omega))
    exact hno.1 haccepts.1
  · intro hcase
    have hwidth := width_le_four_iff value.toNat
    refine ⟨?_, fun outLen buf' hrun more => ?_⟩
    · rw [hencodes]
      omega
    · obtain ⟨hw, rfl, hdigits⟩ := encodeRemainingLength_ok hrun
      rw [hdigits]
      exact decodeRemainingLength_encode more (by omega) hw

/-- Five bytes are enough to encode one more than the format has, and the decoder refuses them. -/
theorem length_not_recovered :
    ¬ LengthRecovered 268435456 [0, 0, 0, 0, 0] ∧
      encodeRemainingLength 268435456 5 [0, 0, 0, 0, 0] =
        .ok (.ok 5, [0x80, 0x80, 0x80, 0x80, 1]) ∧
      decodeRemainingLength [0x80, 0x80, 0x80, 0x80, 1] 5 = .ok (.error protocolError) := by
  have hrun : encodeRemainingLength 268435456 5 [0, 0, 0, 0, 0] =
      .ok (.ok 5, [0x80, 0x80, 0x80, 0x80, 1]) := rfl
  refine ⟨fun h => ?_, hrun, rfl⟩
  have haccepts := h.accepts.mp ⟨5, _, hrun⟩
  exact absurd haccepts.1 (by decide)

/-! ## The decoder -/

/-- A byte of the length with its continuation bit clear, as the decoder tests it. -/
theorem lastDigit_iff (bytes : List UInt8) (i : Nat) :
    bytes.getD i 0 &&& remainingLengthContinuation = 0 ↔ (bytes.getD i 0).toNat < 128 :=
  Varint.and_continuation_eq_zero _

theorem decodeRemainingLength_eq_ok {bytes : List UInt8} {value consumed : Nat} :
    decodeRemainingLength bytes bytes.length = .ok (.ok (value, consumed)) ↔
      Varint.scan 4 bytes = .value value consumed := by
  rw [decodeRemainingLength_eq (Nat.le_refl _), List.take_length, Except.ok.injEq]
  exact parseRemainingLength_eq_ok

theorem decodeRemainingLength_eq_protocolError {bytes : List UInt8} :
    decodeRemainingLength bytes bytes.length = .ok (.error protocolError) ↔
      Varint.scan 4 bytes = .overlong := by
  rw [decodeRemainingLength_eq (Nat.le_refl _), List.take_length, Except.ok.injEq]
  exact parseRemainingLength_eq_protocolError

theorem decodeRemainingLength_eq_bufferTooSmall {bytes : List UInt8} :
    decodeRemainingLength bytes bytes.length = .ok (.error bufferTooSmall) ↔
      Varint.scan 4 bytes = .more := by
  rw [decodeRemainingLength_eq (Nat.le_refl _), List.take_length, Except.ok.injEq,
    parseRemainingLength]
  cases Varint.scan remainingLengthMaxBytes bytes with
  | value v n => simp
  | more => simp
  | overlong => simpa using (by decide : protocolError ≠ bufferTooSmall)

/-- A number is read just if one of the first four bytes ends it. -/
theorem exists_scan_value_iff (bytes : List UInt8) :
    (∃ value consumed, Varint.scan 4 bytes = .value value consumed) ↔
      ∃ i < 4, i < bytes.length ∧ (bytes.getD i 0).toNat < 128 := by
  constructor
  · rintro ⟨value, consumed, hscan⟩
    obtain ⟨i, hi, hlen, hlast, -⟩ := Varint.scan_eq_value_iff.mp hscan
    exact ⟨i, hi, hlen, hlast⟩
  · intro h
    classical
    -- the first of these bytes
    obtain ⟨hi, hlen, hlast⟩ := Nat.find_spec h
    refine ⟨_, _, Varint.scan_eq_value_iff.mpr ⟨Nat.find h, hi, hlen, hlast, ?_, rfl, rfl⟩⟩
    intro j hj
    by_contra hlt
    exact Nat.find_min h hj ⟨by omega, by omega, by omega⟩

/-- **The decoder of the length.** OK just if one of the first four bytes has its continuation bit
clear; the first of these ends the number, which is the sum of its digits and one of the format.
`PROTOCOL` just if there are more than four bytes and the first four all continue, and
`BUFFER_TOO_SMALL` in every other case. An accepted number is encoded again in no more bytes than
were consumed, and in the same bytes exactly when in as many. -/
theorem decodeRemainingLength_exact (bytes : List UInt8) :
    ((∃ value consumed, decodeRemainingLength bytes bytes.length = .ok (.ok (value, consumed))) ↔
      ∃ i < 4, i < bytes.length ∧ bytes.getD i 0 &&& remainingLengthContinuation = 0) ∧
    (∀ value consumed, decodeRemainingLength bytes bytes.length = .ok (.ok (value, consumed)) →
      value ≤ 268435455 ∧ ∃ i, consumed = i + 1 ∧ i < bytes.length ∧
        bytes.getD i 0 &&& remainingLengthContinuation = 0 ∧
        (∀ j < i, bytes.getD j 0 &&& remainingLengthContinuation ≠ 0) ∧
        value = ∑ j ∈ Finset.range (i + 1), (bytes.getD j 0).toNat % 128 * 128 ^ j) ∧
    (decodeRemainingLength bytes bytes.length = .ok (.error protocolError) ↔
      5 ≤ bytes.length ∧ ∀ j < 4, bytes.getD j 0 &&& remainingLengthContinuation ≠ 0) ∧
    (decodeRemainingLength bytes bytes.length = .ok (.error bufferTooSmall) ↔
      ¬ (∃ i < 4, i < bytes.length ∧ bytes.getD i 0 &&& remainingLengthContinuation = 0) ∧
      ¬ (5 ≤ bytes.length ∧ ∀ j < 4, bytes.getD j 0 &&& remainingLengthContinuation ≠ 0)) ∧
    (∀ value consumed, decodeRemainingLength bytes bytes.length = .ok (.ok (value, consumed)) →
      ∀ buf, (consumed ≤ buf.length →
          ∃ outLen buf', encodeRemainingLength value buf.length buf = .ok (.ok outLen, buf')) ∧
        ∀ outLen buf', encodeRemainingLength value buf.length buf = .ok (.ok outLen, buf') →
          outLen ≤ consumed ∧ (buf'.take outLen = bytes.take consumed ↔ outLen = consumed)) := by
  simp only [decodeRemainingLength_eq_ok, decodeRemainingLength_eq_protocolError,
    decodeRemainingLength_eq_bufferTooSmall, ne_eq, lastDigit_iff, Nat.not_lt]
  have hvalue := exists_scan_value_iff bytes
  have hlong := @Varint.scan_eq_overlong_iff 4 bytes
  refine ⟨hvalue, ?_, hlong, ?_, ?_⟩
  · intro value consumed hscan
    have hlt := Varint.scan_value_lt hscan
    obtain ⟨i, -, hlen, hlast, hcont, hn, hsum⟩ := Varint.scan_eq_value_iff.mp hscan
    exact ⟨by omega, i, hn, hlen, hlast, hcont, hsum⟩
  · -- what is neither a number nor too long is not complete
    rw [← hvalue, show (5 ≤ bytes.length) = (4 < bytes.length) from rfl, ← hlong]
    cases Varint.scan 4 bytes with
    | value v n => simp
    | more => simp
    | overlong => simp
  · intro value consumed hscan buf
    obtain ⟨hle, heq⟩ := Varint.encode_of_scan hscan
    obtain ⟨-, hfour, hbytes⟩ := Varint.scan_consumed hscan
    constructor
    · intro hroom
      -- a number that was read has digits that fit where it was read from
      rcases encodeRemainingLength_eq value buf with ⟨-, buf', hrun, -⟩ | ⟨hshort, -⟩
      · exact ⟨_, buf', hrun⟩
      · omega
    · intro outLen buf' hrun
      obtain ⟨hw, rfl, hdigits⟩ := encodeRemainingLength_ok hrun
      refine ⟨hle, ?_⟩
      rw [hdigits]
      constructor
      · intro hsame
        have hlen := congrArg List.length hsame
        rw [Varint.length_encode hw, List.length_take] at hlen
        omega
      · intro hfull
        rw [Varint.encode_congr hw (show Varint.width value ≤ 4 by omega)]
        exact heq hfull

/-! ## The fixed header on a growing buffer -/

/-- Six bytes are enough for a verdict. -/
theorem parseHeader_ne_bufferTooSmall {bytes : List UInt8} (h : 6 ≤ bytes.length) :
    parseHeader bytes ≠ .error bufferTooSmall := by
  match bytes, h with
  | b :: b' :: rest, h =>
    have hscan : Varint.scan 4 (b' :: rest) ≠ .more :=
      Varint.scan_ne_more (by simp only [List.length_cons] at h ⊢; omega)
    have hne : protocolError ≠ bufferTooSmall := by decide
    rw [parseHeader_cons]
    cases PacketType.ofVal? (b >>> 4) with
    | none => simpa using hne
    | some type =>
      simp only
      rcases validateMqttFlags_eq type (b &&& 0x0F) with hvalid | hvalid
      · rw [if_neg (by simp [hvalid]), parseRemainingLength]
        cases hs : Varint.scan remainingLengthMaxBytes (b' :: rest) with
        | value v n => simp
        | more => exact absurd hs hscan
        | overlong => simpa using hne
      · have hbad : protocolError ≠ statusOk := by decide
        rw [if_pos (by rw [hvalid]; exact hbad), hvalid]
        simpa using hne

/-- The decoder looks at the valid bytes only, whatever is behind them in memory. -/
theorem decodeFixedHeader_append (valid junk : List UInt8) :
    decodeFixedHeader (valid ++ junk) valid.length = .ok (parseHeader valid) := by
  rw [decodeFixedHeader_eq (by simp), List.take_left]

/-- **The fixed header on a growing buffer.** A header once read is read again, and a header once
refused is refused again, when more valid bytes have come behind those that were there, whatever the
rest of the memory holds; and from six bytes on there is a verdict, which is the last one. -/
theorem decodeFixedHeader_incremental (valid more junk junk' : List UInt8) :
    (∀ header, decodeFixedHeader (valid ++ junk) valid.length = .ok (.ok header) →
      decodeFixedHeader (valid ++ more ++ junk') (valid ++ more).length = .ok (.ok header)) ∧
    (decodeFixedHeader (valid ++ junk) valid.length = .ok (.error protocolError) →
      decodeFixedHeader (valid ++ more ++ junk') (valid ++ more).length =
        .ok (.error protocolError)) ∧
    (6 ≤ valid.length →
      ((∃ header, decodeFixedHeader (valid ++ junk) valid.length = .ok (.ok header)) ∨
        decodeFixedHeader (valid ++ junk) valid.length = .ok (.error protocolError)) ∧
      decodeFixedHeader (valid ++ more ++ junk') (valid ++ more).length =
        decodeFixedHeader (valid ++ junk) valid.length) := by
  rw [decodeFixedHeader_append, decodeFixedHeader_append]
  simp only [Except.ok.injEq]
  refine ⟨fun header h => parseHeader_append_ok more h, fun h => parseHeader_append_error more h,
    fun hsix => ?_⟩
  have hwait := parseHeader_ne_bufferTooSmall hsix
  cases hparse : parseHeader valid with
  | ok header => exact ⟨Or.inl ⟨header, rfl⟩, parseHeader_append_ok more hparse⟩
  | error status =>
    rcases parseHeader_error hparse with rfl | rfl
    · exact absurd hparse hwait
    · exact ⟨Or.inr rfl, parseHeader_append_error more hparse⟩

end Aemlib.Proto
