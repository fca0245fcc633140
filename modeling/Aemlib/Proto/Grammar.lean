import Aemlib.Proto.RoundTrip
import Mathlib.Data.List.TakeWhile

/-!
# The grammar of an incoming PUBLISH

`aemlib_proto_decode_publish` on every buffer a header was read from: which verdict it gives, what
it hands out, what it reads, and what becomes of the message when it is encoded again.

`decodePublish` returns its four results together. The source assigns them one by one through the
caller's pointers, so `decodePublishInto` does the same to a record of them, and a failure is seen
to leave that record alone.
-/

namespace Aemlib.Proto

open Machine

/-! ## The code -/

/-- `aemlib_proto_decode_publish`, with the caller's `*topic`, `*topic_len`, `*payload` and
`*payload_len` as its state; the pointers themselves are not `NULL`. -/
def decodePublishInto (buf : List UInt8) (bufLen : Nat) (header : FixedHeader) :
    Prog Fault Status PublishView Unit := do
  let qos := (header.flags >>> 1) &&& 0x03
  if qos ≠ 0 then
    throw (mkStatus .protocol .unsupported)
  let offset := header.headerSize
  let packetEnd := sizeAdd header.headerSize header.remainingLength
  if packetEnd > bufLen then
    throw bufferTooSmall
  if sizeAdd offset utf8LengthPrefixSize > packetEnd then
    throw (mkStatus .protocol .malformed)
  let hi ← Prog.ofExcept (fetch buf offset)
  let lo ← Prog.ofExcept (fetch buf (sizeAdd offset 1))
  let topicLength := (hi.toNat <<< 8) ||| lo.toNat
  let offset := sizeAdd offset utf8LengthPrefixSize
  if sizeAdd offset topicLength > packetEnd then
    throw (mkStatus .protocol .malformed)
  modify fun out => { out with topicStart := offset, topicLen := topicLength }
  let offset := sizeAdd offset topicLength
  modify fun out => { out with payloadStart := offset }
  let payloadLen ← Prog.ofExcept (checkedSub packetEnd offset)
  modify fun out => { out with payloadLen := payloadLen }

/-- What a C function sees of a string: the bytes before its first NUL. -/
def cString (bytes : List UInt8) : List UInt8 := bytes.takeWhile (· ≠ 0)

def FixedHeader.qos (header : FixedHeader) : UInt8 := (header.flags >>> 1) &&& 0x03

/-- Assigned one by one or returned together, the results are the same; a failure assigns none. -/
theorem decodePublishInto_eq (buf : List UInt8) (bufLen : Nat) (header : FixedHeader)
    (out : PublishView) :
    decodePublishInto buf bufLen header out =
      (decodePublish buf bufLen header).map fun
        | .ok view => (.ok (), view)
        | .error status => (.error status, out) := by
  unfold decodePublishInto decodePublish
  -- test by test; the two differ only in where the results are kept
  by_cases hqos : (header.flags >>> 1) &&& 0x03 ≠ 0
  · simp only [if_pos hqos]
    rfl
  by_cases hshort : sizeAdd header.headerSize header.remainingLength > bufLen
  · simp only [if_neg hqos, if_pos hshort]
    rfl
  by_cases htwo : sizeAdd header.headerSize utf8LengthPrefixSize >
      sizeAdd header.headerSize header.remainingLength
  · simp only [if_neg hqos, if_neg hshort, if_pos htwo]
    rfl
  have hok : ∀ {α β : Type} (a : α) (f : α → Except Fault β), (Except.ok a >>= f) = f a :=
    fun _ _ => rfl
  simp only [if_neg hqos, if_neg hshort, if_neg htwo]
  cases fetch buf header.headerSize with
  | error fault => rfl
  | ok hi =>
    cases fetch buf (sizeAdd header.headerSize 1) with
    | error fault => rfl
    | ok lo =>
      simp only [Prog.run_ofExcept_ok_bind, hok]
      by_cases hfit : sizeAdd (sizeAdd header.headerSize utf8LengthPrefixSize)
          ((hi.toNat <<< 8) ||| lo.toNat) > sizeAdd header.headerSize header.remainingLength
      · simp only [if_pos hfit]
        rfl
      · simp only [if_neg hfit]
        cases checkedSub (sizeAdd header.headerSize header.remainingLength)
          (sizeAdd (sizeAdd header.headerSize utf8LengthPrefixSize)
            ((hi.toNat <<< 8) ||| lo.toNat)) with
        | error fault => rfl
        | ok payloadLen => rfl

/-! ## The verdicts -/

def topicLength (buf : List UInt8) (header : FixedHeader) : Nat :=
  readUint16Be (buf.drop header.headerSize)

/-- On the buffer a header was read from, the decoder is its grammar. -/
theorem decodePublishInto_parse {buf : List UInt8} {header : FixedHeader}
    (h : parseHeader buf = .ok header) (out : PublishView) :
    decodePublishInto buf buf.length header out = .ok (match parsePublish buf header with
      | .ok view => (.ok (), view)
      | .error status => (.error status, out)) := by
  obtain ⟨-, hsize, -, hrem⟩ := parseHeader_bounds h
  rw [decodePublishInto_eq, decodePublish_eq (Nat.le_refl _) hsize hrem, List.take_length]
  rfl

/-- The decoder gets along with the bytes of the packet, whatever size it is told. -/
theorem decodePublish_take {buf : List UInt8} {header : FixedHeader}
    (h : parseHeader buf = .ok header) :
    decodePublish (buf.take (min (header.headerSize + header.remainingLength) buf.length))
        buf.length header = decodePublish buf buf.length header := by
  obtain ⟨-, hsize, -, hrem⟩ := parseHeader_bounds h
  have hend : sizeAdd header.headerSize header.remainingLength =
      header.headerSize + header.remainingLength := sizeAdd_of_lt (by omega)
  have hoff : sizeAdd header.headerSize utf8LengthPrefixSize = header.headerSize + 2 :=
    sizeAdd_of_lt (show header.headerSize + 2 < 2 ^ 64 by omega)
  have hone : sizeAdd header.headerSize 1 = header.headerSize + 1 := sizeAdd_of_lt (by omega)
  unfold decodePublish
  simp only [hend, hoff, hone]
  split
  · rfl
  split
  · rfl
  split
  · rfl
  -- past the three tests both bytes of the topic length belong to the packet
  have hfetch : ∀ i, i < header.headerSize + 2 →
      fetch (buf.take (min (header.headerSize + header.remainingLength) buf.length)) i =
        fetch buf i := by
    intro i hi
    rw [fetch, fetch, List.getElem?_take_of_lt (by omega)]
  rw [hfetch _ (by omega), hfetch _ (by omega)]

/-- The grammar in these words. -/
theorem parsePublish_eq (buf : List UInt8) (header : FixedHeader) :
    parsePublish buf header =
      if header.qos ≠ 0 then .error (mkStatus .protocol .unsupported)
      else if buf.length < header.headerSize + header.remainingLength then .error bufferTooSmall
      else if header.remainingLength < 2 + topicLength buf header ∨ header.remainingLength < 2 then
        .error (mkStatus .protocol .malformed)
      else .ok
        { topicStart := header.headerSize + 2
          topicLen := topicLength buf header
          payloadStart := header.headerSize + 2 + topicLength buf header
          payloadLen := header.remainingLength - 2 - topicLength buf header } := by
  simp only [topicLength, readUint16Be_drop]
  rfl

/-- What the decoder accepts, and what it hands out then. -/
theorem parsePublish_eq_ok {buf : List UInt8} {header : FixedHeader} {view : PublishView} :
    parsePublish buf header = .ok view ↔
      header.qos = 0 ∧ header.headerSize + header.remainingLength ≤ buf.length ∧
      2 + topicLength buf header ≤ header.remainingLength ∧
      view = ⟨header.headerSize + 2, topicLength buf header,
        header.headerSize + 2 + topicLength buf header,
        header.remainingLength - 2 - topicLength buf header⟩ := by
  rw [parsePublish_eq]
  split
  · next hqos => simp [hqos]
  · next hqos =>
    split
    · next hshort => simp [Nat.not_le.mpr hshort]
    · next hwhole =>
      split
      · next hbad =>
        constructor
        · intro h
          cases h
        · -- the two tests of the last `if` are one: a topic that fits needs two bytes
          rintro ⟨-, -, hfit, -⟩
          omega
      · next hgood =>
        rw [Except.ok.injEq]
        constructor
        · intro h
          exact ⟨not_not.mp hqos, by omega, by omega, h.symm⟩
        · intro h
          exact h.2.2.2.symm

/-! ## Encoding it again -/

/-- Two bytes are the number they hold. -/
theorem uint16Be_readUint16Be {bytes : List UInt8} (h : 2 ≤ bytes.length) :
    uint16Be (readUint16Be bytes) = bytes.take 2 := by
  match bytes, h with
  | hi :: lo :: rest, _ =>
    have hlo := lo.toNat_lt
    have hhigh : (hi.toNat * 256 + lo.toNat) >>> 8 = hi.toNat := by
      rw [Nat.shiftRight_eq_div_pow]
      omega
    have hlow : (hi.toNat * 256 + lo.toNat) &&& 0xFF = lo.toNat := by
      rw [Nat.and_two_pow_sub_one_eq_mod _ 8]
      omega
    show [UInt8.ofNat ((hi.toNat * 256 + lo.toNat) >>> 8),
      UInt8.ofNat ((hi.toNat * 256 + lo.toNat) &&& 0xFF)] = [hi, lo]
    rw [hhigh, hlow, UInt8.ofNat_toNat, UInt8.ofNat_toNat]

/-- The body of an accepted packet is the body of the message in it. -/
theorem publish_body_of_parse {buf : List UInt8} {header : FixedHeader} {view : PublishView}
    (h : parsePublish buf header = .ok view) :
    (buf.drop header.headerSize).take header.remainingLength =
        (Packet.publish (view.message buf).1 (view.message buf).2).body ∧
      (view.message buf).1.length = topicLength buf header ∧
      2 + (view.message buf).1.length + (view.message buf).2.length = header.remainingLength := by
  obtain ⟨-, hwhole, hfit, rfl⟩ := parsePublish_eq_ok.mp h
  generalize hrest : buf.drop header.headerSize = rest
  have hlen : header.remainingLength ≤ rest.length := by
    rw [← hrest, List.length_drop]
    omega
  have hread : topicLength buf header = readUint16Be rest := by rw [topicLength, hrest]
  rw [hread] at hfit ⊢
  simp only [PublishView.message, Nat.add_assoc, ← List.drop_drop, hrest]
  have htopic : ((rest.drop 2).take (readUint16Be rest)).length = readUint16Be rest := by
    rw [List.length_take, List.length_drop]
    omega
  refine ⟨?_, htopic, ?_⟩
  · have hsplit : header.remainingLength =
        2 + (readUint16Be rest + (header.remainingLength - 2 - readUint16Be rest)) := by omega
    conv_lhs => rw [hsplit, List.take_add, List.take_add]
    rw [Packet.body, lengthPrefixed, htopic, uint16Be_readUint16Be (by omega), List.append_assoc]
  · rw [htopic, List.length_take, List.length_drop, List.length_drop]
    omega

/-- A PUBLISH begins with the byte the encoder writes exactly if its flags are all clear. -/
theorem publish_header_iff {b : UInt8} (h : PacketType.ofVal? (b >>> 4) = some .publish) :
    headerByte .publish 0 = b ↔ b &&& 0x0F = 0 := by
  have hall : ∀ n : Fin 256, PacketType.ofVal? (UInt8.ofFin n >>> 4) = some .publish →
      (headerByte .publish 0 = UInt8.ofFin n ↔ UInt8.ofFin n &&& 0x0F = 0) := by decide +kernel
  exact hall b.toFin h

/-- **When the same bytes come out.** The encoder writes no flags and the shortest length there is;
everything behind the fixed header is as it was. -/
theorem publish_bytes_eq_iff {buf : List UInt8} {header : FixedHeader} {view : PublishView}
    (hheader : parseHeader buf = .ok header) (htype : header.type = .publish)
    (hview : parsePublish buf header = .ok view) :
    (Packet.publish (view.message buf).1 (view.message buf).2).bytes =
        buf.take (header.headerSize + header.remainingLength) ↔
      header.flags = 0 ∧
        Varint.Minimal ((buf.take header.headerSize).drop 1) header.remainingLength := by
  have hrem := (parseHeader_bounds hheader).2.2.2
  obtain ⟨hbody, -, hsize⟩ := publish_body_of_parse hview
  generalize (view.message buf).1 = topic at hbody hsize ⊢
  generalize (view.message buf).2 = payload at hbody hsize ⊢
  have hlen : (Packet.publish topic payload).body.length = header.remainingLength := by
    rw [length_publish_body, hsize]
  obtain ⟨b, length, n, rfl, hval, hflags, -, hscan, hn⟩ := parseHeader_eq_ok.mp hheader
  obtain ⟨hle, heq⟩ := Varint.encode_of_scan hscan
  obtain ⟨-, hfour, hbytes⟩ := Varint.scan_consumed hscan
  rw [htype] at hval
  -- both packets are a header byte, digits and the same body
  have hfront : (b :: length).take header.headerSize = b :: length.take n := by
    rw [hn, Nat.add_comm, List.take_succ_cons]
  rw [List.take_add, hbody, hfront, bytes_eq (by omega), hlen, hflags, List.cons_append,
    List.cons.injEq, List.append_left_inj, List.drop_succ_cons, List.drop_zero,
    Varint.minimal_take_iff hscan]
  refine and_congr (publish_header_iff hval) ⟨fun hsame => ?_, heq⟩
  have hcount := congrArg List.length hsame
  rw [Varint.length_encode (Nat.le_trans hle hfour), List.length_take] at hcount
  omega

/-- The message of an accepted packet, encoded again into a buffer that is large enough: the
encoder returns OK, the decoders get the message back from the new packet, and it is the old one
exactly if that had no flags and no padding in its length. -/
def Reencodes (buf : List UInt8) (header : FixedHeader) (message : List UInt8 × List UInt8) :
    Prop :=
  ∀ e : Encoder, e.buf.length < 2 ^ 64 → e.offset = 0 →
    5 + header.remainingLength ≤ e.buf.length →
    ∃ e', encodePublish e.buf.length (cString message.1) message.2 e = .ok (.ok (), e') ∧
      (∃ header' view', decodeFixedHeader e'.buf e'.outLen = .ok (.ok header') ∧
        header'.type = .publish ∧
        (∀ out, decodePublishInto e'.buf e'.outLen header' out = .ok (.ok (), view')) ∧
        view'.message (e'.buf.take e'.outLen) = message) ∧
      (e'.buf.take e'.outLen = buf.take (header.headerSize + header.remainingLength) ↔
        header.flags = 0 ∧
          Varint.Minimal ((buf.take header.headerSize).drop 1) header.remainingLength)

theorem cString_of_not_mem {bytes : List UInt8} (h : 0 ∉ bytes) : cString bytes = bytes := by
  rw [cString, List.takeWhile_eq_self_iff]
  intro byte hbyte
  have hne : byte ≠ 0 := fun hzero => h (hzero ▸ hbyte)
  exact decide_eq_true hne

theorem reencodes_of_parse {buf : List UInt8} {header : FixedHeader} {view : PublishView}
    (hheader : parseHeader buf = .ok header) (htype : header.type = .publish)
    (hview : parsePublish buf header = .ok view) (hnul : 0 ∉ (view.message buf).1) :
    Reencodes buf header (view.message buf) := by
  intro e hbuf hoff hroom
  have hrem := (parseHeader_bounds hheader).2.2.2
  have hsame := publish_bytes_eq_iff hheader htype hview
  obtain ⟨-, htopic, hsize⟩ := publish_body_of_parse hview
  rw [cString_of_not_mem hnul]
  -- the message is within the limits of the encoder, since a packet has held it
  have hlt : topicLength buf header ≤ 65535 := by
    have hhi := ((buf.drop header.headerSize).getD 0 0).toNat_lt
    have hlo := ((buf.drop header.headerSize).getD 1 0).toNat_lt
    rw [topicLength, readUint16Be]
    omega
  obtain ⟨e', hrun⟩ := exists_encodePublish e (view.message buf).1 (view.message buf).2 hbuf hoff
    (by omega) (by omega)
  obtain ⟨-, hout, hbytes⟩ := encode_ensures (.publish _ _) hbuf rfl hoff _ _ hrun
  -- what the encoder has left is read back as the message
  obtain ⟨header', view', hheader', htype', -, -, hview', hmessage⟩ :=
    parse_publish_bytes [] (show (view.message buf).1.length ≤ 65535 by omega)
      (show 2 + (view.message buf).1.length + (view.message buf).2.length ≤ 268435455 by omega)
  rw [List.append_nil] at hheader' hview' hmessage
  have hle := le_length_of_take hout hbytes
  refine ⟨e', hrun, ⟨header', view', ?_, htype', fun out => ?_, ?_⟩, ?_⟩
  · rw [decodeFixedHeader_eq hle, hbytes, hheader']
  · obtain ⟨-, hfive, -, hsmall⟩ := parseHeader_bounds hheader'
    rw [decodePublishInto_eq, decodePublish_eq hle hfive hsmall, hbytes, hview']
    rfl
  · rw [hbytes, hmessage]
  · rw [hbytes, hsame]

/-! ## The decoder, exactly -/

/-- **PUBLISH is decoded by its grammar.** For a header that was read from the buffer: `UNSUPPORTED`
if the QoS bits are set, else `BUFFER_TOO_SMALL` if the packet is not all there, else `MALFORMED` if
the packet cannot hold the topic it announces, and the caller's results are left alone; else OK with
the topic two bytes behind the header and the payload from the end of the topic to the end of the
packet. No byte behind the packet or the buffer is read, and the message can be encoded again. -/
theorem decodePublish_grammar {buf : List UInt8} {header : FixedHeader}
    (hdecode : decodeFixedHeader buf buf.length = .ok (.ok header))
    (htype : header.type = .publish) (out : PublishView) :
    (header.qos ≠ 0 → decodePublishInto buf buf.length header out =
      .ok (.error (mkStatus .protocol .unsupported), out)) ∧
    (header.qos = 0 → buf.length < header.headerSize + header.remainingLength →
      decodePublishInto buf buf.length header out = .ok (.error bufferTooSmall, out)) ∧
    (header.qos = 0 → header.headerSize + header.remainingLength ≤ buf.length →
      header.remainingLength < 2 ∨ header.remainingLength < 2 + topicLength buf header →
      decodePublishInto buf buf.length header out =
        .ok (.error (mkStatus .protocol .malformed), out)) ∧
    (header.qos = 0 → header.headerSize + header.remainingLength ≤ buf.length →
      2 + topicLength buf header ≤ header.remainingLength →
      ∃ view, decodePublishInto buf buf.length header out = .ok (.ok (), view) ∧
        view.topicStart = header.headerSize + 2 ∧ view.topicLen = topicLength buf header ∧
        view.payloadStart = view.topicStart + view.topicLen ∧
        view.payloadStart + view.payloadLen = header.headerSize + header.remainingLength ∧
        (0 ∉ (view.message buf).1 → Reencodes buf header (view.message buf))) ∧
    decodePublishInto (buf.take (min (header.headerSize + header.remainingLength) buf.length))
        buf.length header out =
      decodePublishInto buf buf.length header out := by
  have hheader : parseHeader buf = .ok header := by
    rwa [decodeFixedHeader_eq (Nat.le_refl _), List.take_length, Except.ok.injEq] at hdecode
  have hrun := decodePublishInto_parse hheader out
  refine ⟨fun hqos => ?_, fun hqos hshort => ?_, fun hqos hwhole hbad => ?_,
    fun hqos hwhole hfit => ?_, ?_⟩
  · have hparse : parsePublish buf header = .error (mkStatus .protocol .unsupported) := by
      rw [parsePublish_eq, if_pos hqos]
    rw [hrun, hparse]
  · have hparse : parsePublish buf header = .error bufferTooSmall := by
      rw [parsePublish_eq, if_neg (not_not.mpr hqos), if_pos hshort]
    rw [hrun, hparse]
  · have hparse : parsePublish buf header = .error (mkStatus .protocol .malformed) := by
      rw [parsePublish_eq, if_neg (not_not.mpr hqos), if_neg (by omega), if_pos (by omega)]
    rw [hrun, hparse]
  · have hview := parsePublish_eq_ok.mpr ⟨hqos, hwhole, hfit, rfl⟩
    rw [hview] at hrun
    exact ⟨_, hrun, rfl, rfl, rfl, by simp only; omega, reencodes_of_parse hheader htype hview⟩
  · rw [decodePublishInto_eq, decodePublishInto_eq, decodePublish_take hheader]

/-- A retained message with a padded length, and a byte behind it: topic "a" and two bytes of
payload. It is decoded, and can be encoded again. -/
theorem decodePublish_grammar_padded :
    ∃ view : PublishView,
      decodePublishInto [0x31, 0x85, 0x00, 0, 1, 0x61, 7, 8, 9] 9 ⟨.publish, 1, 5, 3⟩ ⟨0, 0, 0, 0⟩ =
        .ok (.ok (), view) ∧
      view.topicStart = 5 ∧ view.topicLen = 1 ∧ view.payloadStart + view.payloadLen = 8 ∧
      Reencodes [0x31, 0x85, 0x00, 0, 1, 0x61, 7, 8, 9] ⟨.publish, 1, 5, 3⟩
        (view.message [0x31, 0x85, 0x00, 0, 1, 0x61, 7, 8, 9]) := by
  have hdecode : decodeFixedHeader [0x31, 0x85, 0x00, 0, 1, 0x61, 7, 8, 9] 9 =
      .ok (.ok ⟨.publish, 1, 5, 3⟩) := by decide
  obtain ⟨-, -, -, haccept, -⟩ := decodePublish_grammar hdecode rfl ⟨0, 0, 0, 0⟩
  obtain ⟨view, hrun, hstart, hlen, -, hend, hagain⟩ :=
    haccept (by decide) (by decide) (by decide)
  refine ⟨view, hrun, hstart, hlen, hend, hagain ?_⟩
  simp only [PublishView.message, hstart, hlen]
  decide

end Aemlib.Proto
