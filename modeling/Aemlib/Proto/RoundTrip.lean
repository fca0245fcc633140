import Aemlib.Proto.Decode
import Aemlib.Proto.Encode

/-!
# What the encoders write, read back

`decodeFixedHeader` and `decodePublish` on the bytes that `encodePublish` left in its buffer, and a
length-prefixed string on the bytes that `writeUtf8` left. A string is written whole, but its
length is cut to 16 bits: a reader finds the end of the string where the writer put it exactly when
the string is shorter than `2 ^ 16` bytes.
-/

namespace Aemlib.Proto

open Machine

/-! ## Numbers of two bytes -/

/-- The number in the first two bytes, high one first. -/
def readUint16Be (bytes : List UInt8) : Nat :=
  (bytes.getD 0 0).toNat * 256 + (bytes.getD 1 0).toNat

@[simp] theorem length_uint16Be (n : Nat) : (uint16Be n).length = 2 := rfl

/-- Two bytes hold a number modulo `2 ^ 16`. -/
theorem readUint16Be_uint16Be (n : Nat) (more : List UInt8) :
    readUint16Be (uint16Be n ++ more) = n % 65536 := by
  have hhi : (UInt8.ofNat (n >>> 8)).toNat = n / 256 % 256 := by
    rw [UInt8.toNat_ofNat', Nat.shiftRight_eq_div_pow]
  have hlo : (UInt8.ofNat (n &&& 0xFF)).toNat = n % 256 := by
    rw [UInt8.toNat_ofNat', Nat.and_two_pow_sub_one_eq_mod n 8, Nat.mod_mod]
  show (UInt8.ofNat (n >>> 8)).toNat * 256 + (UInt8.ofNat (n &&& 0xFF)).toNat = n % 65536
  rw [hhi, hlo]
  omega

theorem readUint16Be_drop (bytes : List UInt8) (i : Nat) :
    readUint16Be (bytes.drop i) = (bytes.getD i 0).toNat * 256 + (bytes.getD (i + 1) 0).toNat := by
  simp only [readUint16Be, List.getD_eq_getElem?_getD, List.getElem?_drop, Nat.add_zero]

/-! ## The fixed header -/

/-- The header in front of a body of less than `2 ^ 28` bytes is read back. -/
theorem parseHeader_encode {type : PacketType} {flags : UInt8} {n : Nat} (more : List UInt8)
    (htype : PacketType.ofVal? (headerByte type flags >>> 4) = some type)
    (hflags : headerByte type flags &&& 0x0F = flags)
    (hvalid : validateMqttFlags type flags = statusOk) (hn : n < 2 ^ 28) :
    parseHeader (headerByte type flags :: (Varint.encode 4 n ++ more)) =
      .ok ⟨type, flags, n, 1 + (Varint.encode 4 n).length⟩ := by
  apply parseHeader_eq_ok.mpr
  refine ⟨headerByte type flags, Varint.encode 4 n ++ more, (Varint.encode 4 n).length, rfl, htype,
    hflags.symm, hvalid, ?_, rfl⟩
  exact Varint.scan_encode more (by decide) hn

/-- What `Encoded` says of a framed packet that fits its length field: header byte, digits and the
whole body. -/
theorem bytes_eq {p : Packet} (h : p.body.length < 2 ^ 32) :
    p.bytes = p.header :: (Varint.encode 4 p.body.length ++ p.body) := by
  show p.header :: (Varint.encode 4 (p.body.length % 2 ^ 32) ++
    p.body.take (p.body.length % 2 ^ 32)) = _
  rw [Nat.mod_eq_of_lt h, List.take_length]

theorem length_connect_body (clientId : List UInt8) (keepaliveSec : UInt16) :
    (Packet.connect clientId keepaliveSec).body.length = 12 + clientId.length := by
  simp only [Packet.body, lengthPrefixed, List.length_append, length_uint16Be, List.length_cons,
    List.length_nil]
  omega

theorem length_subscribe_body (packetId : UInt16) (topic : List UInt8) :
    (Packet.subscribe packetId topic).body.length = 5 + topic.length := by
  simp only [Packet.body, lengthPrefixed, List.length_append, length_uint16Be,
    List.length_singleton]
  omega

/-! ## PUBLISH -/

theorem length_publish_body (topic payload : List UInt8) :
    (Packet.publish topic payload).body.length = 2 + topic.length + payload.length := by
  simp only [Packet.body, lengthPrefixed, List.length_append, length_uint16Be]

/-- A PUBLISH body behind any header bytes, and anything behind the body. -/
theorem parsePublish_layout {front topic payload : List UInt8} {header : FixedHeader}
    (more : List UInt8) (hflags : header.flags = 0) (hsize : header.headerSize = front.length)
    (hrem : header.remainingLength = 2 + topic.length + payload.length)
    (htopic : topic.length < 65536) :
    parsePublish (front ++ ((lengthPrefixed topic ++ payload) ++ more)) header =
      .ok ⟨front.length + 2, topic.length, front.length + 2 + topic.length, payload.length⟩ := by
  have hprefix : (front ++ ((lengthPrefixed topic ++ payload) ++ more)).drop front.length =
      uint16Be topic.length ++ (topic ++ payload ++ more) := by
    rw [List.drop_left, lengthPrefixed]
    simp only [List.append_assoc]
  have hlen : ((front ++ ((lengthPrefixed topic ++ payload) ++ more)).getD
        header.headerSize 0).toNat * 256 +
      ((front ++ ((lengthPrefixed topic ++ payload) ++ more)).getD
        (header.headerSize + 1) 0).toNat = topic.length := by
    rw [hsize, ← readUint16Be_drop, hprefix, readUint16Be_uint16Be, Nat.mod_eq_of_lt htopic]
  have hwhole : ¬ (front ++ ((lengthPrefixed topic ++ payload) ++ more)).length <
      header.headerSize + header.remainingLength := by
    simp only [List.length_append, lengthPrefixed, length_uint16Be, hsize, hrem]
    omega
  unfold parsePublish
  simp only [hlen, hflags]
  rw [if_neg (by decide), if_neg hwhole, if_neg (by omega), hsize, hrem]
  simp only [Except.ok.injEq, PublishView.mk.injEq, true_and]
  omega

/-- The slices of that view are the topic and the payload. -/
theorem message_layout (front topic payload more : List UInt8) :
    (PublishView.mk (front.length + 2) topic.length (front.length + 2 + topic.length)
      payload.length).message (front ++ ((lengthPrefixed topic ++ payload) ++ more)) =
      (topic, payload) := by
  have hbytes : front ++ ((lengthPrefixed topic ++ payload) ++ more) =
      (front ++ uint16Be topic.length) ++ (topic ++ (payload ++ more)) := by
    simp only [lengthPrefixed, List.append_assoc]
  have hstart : (front ++ uint16Be topic.length).length = front.length + 2 := by
    rw [List.length_append, length_uint16Be]
  have hdrop : (front ++ ((lengthPrefixed topic ++ payload) ++ more)).drop (front.length + 2) =
      topic ++ (payload ++ more) := by
    rw [hbytes, ← hstart, List.drop_left]
  simp only [PublishView.message, Prod.mk.injEq]
  constructor
  · rw [hdrop, List.take_left]
  · rw [← List.drop_drop, hdrop, List.drop_left, List.take_left]

/-- The header of a PUBLISH is read back, whatever follows. -/
theorem parseHeader_publish {n : Nat} (more : List UInt8) (hn : n < 2 ^ 28) :
    parseHeader (headerByte .publish 0 :: (Varint.encode 4 n ++ more)) =
      .ok ⟨.publish, 0, n, 1 + (Varint.encode 4 n).length⟩ :=
  parseHeader_encode more (by decide) (by decide) (by decide) hn

/-- The bytes of a PUBLISH within the format's limits, and anything behind them, as the grammar
reads them. -/
theorem parse_publish_bytes {topic payload : List UInt8} (more : List UInt8)
    (htopic : topic.length ≤ 65535) (hsize : 2 + topic.length + payload.length ≤ 268435455) :
    ∃ header view,
      parseHeader ((Packet.publish topic payload).bytes ++ more) = .ok header ∧
      header.type = .publish ∧ header.flags = 0 ∧
      header.headerSize + header.remainingLength = (Packet.publish topic payload).bytes.length ∧
      parsePublish ((Packet.publish topic payload).bytes ++ more) header = .ok view ∧
      view.message ((Packet.publish topic payload).bytes ++ more) = (topic, payload) := by
  have hbody := length_publish_body topic payload
  rw [bytes_eq (by omega), hbody]
  generalize hdigits : Varint.encode 4 (2 + topic.length + payload.length) = digits
  -- the fixed header in front of the body
  have hall : (Packet.publish topic payload).header ::
      (digits ++ (Packet.publish topic payload).body) ++ more =
      (headerByte .publish 0 :: digits) ++ ((lengthPrefixed topic ++ payload) ++ more) := by
    simp only [Packet.header, Packet.body, List.cons_append, List.append_assoc]
  have hheader := parseHeader_publish ((lengthPrefixed topic ++ payload) ++ more)
    (show 2 + topic.length + payload.length < 2 ^ 28 by omega)
  rw [hdigits, ← List.cons_append] at hheader
  have hfront : 1 + digits.length = (headerByte .publish 0 :: digits).length := by
    rw [List.length_cons, Nat.add_comm]
  rw [hall]
  refine ⟨_, _, hheader, rfl, rfl, ?_, parsePublish_layout more rfl hfront rfl (by omega),
    message_layout (headerByte .publish 0 :: digits) topic payload more⟩
  simp only [List.length_cons, List.length_append, hbody]
  omega

/-- **PUBLISH round trip.** Whenever the encoder returns OK, the two decoders get type, flags,
length, topic and payload back from the bytes it wrote, whatever bytes follow them. -/
theorem publish_round_trip {topic payload : List UInt8} (htopic : topic.length ≤ 65535)
    (hsize : 2 + topic.length + payload.length ≤ 268435455) {e e' : Encoder}
    (hbuf : e.buf.length < 2 ^ 64) (hoff : e.offset = 0)
    (h : encodePublish e.buf.length topic payload e = .ok (.ok (), e')) (more : List UInt8) :
    ∃ header view,
      decodeFixedHeader (e'.buf.take e'.outLen ++ more) (e'.buf.take e'.outLen ++ more).length =
        .ok (.ok header) ∧
      header.type = .publish ∧ header.flags = 0 ∧
      header.headerSize + header.remainingLength = e'.outLen ∧
      decodePublish (e'.buf.take e'.outLen ++ more) (e'.buf.take e'.outLen ++ more).length header =
        .ok (.ok view) ∧
      view.message (e'.buf.take e'.outLen ++ more) = (topic, payload) := by
  obtain ⟨-, hout, hbytes⟩ := encode_ensures (.publish topic payload) hbuf rfl hoff _ _ h
  obtain ⟨header, view, hheader, htype, hflags, hlength, hview, hmessage⟩ :=
    parse_publish_bytes more htopic hsize
  have hbounds := parseHeader_bounds hheader
  rw [hbytes, hout]
  refine ⟨header, view, ?_, htype, hflags, hlength, ?_, hmessage⟩
  · rw [decodeFixedHeader_eq (Nat.le_refl _), List.take_length, hheader]
  · rw [decodePublish_eq (Nat.le_refl _) hbounds.2.1 hbounds.2.2.2, List.take_length, hview]

/-- Topic "a" and two bytes of payload, written to a buffer of twelve bytes and read back with a
byte behind them. -/
theorem publish_round_trip_a :
    ∃ header view, decodeFixedHeader [0x30, 5, 0, 1, 0x61, 1, 2, 0xFF] 8 = .ok (.ok header) ∧
      header.headerSize + header.remainingLength = 7 ∧
      decodePublish [0x30, 5, 0, 1, 0x61, 1, 2, 0xFF] 8 header = .ok (.ok view) ∧
      view.message [0x30, 5, 0, 1, 0x61, 1, 2, 0xFF] = ([0x61], [1, 2]) := by
  have h : encodePublish 12 [0x61] [1, 2] ⟨List.replicate 12 0, 0, 0⟩ =
      .ok (.ok (), ⟨[0x30, 5, 0, 1, 0x61, 1, 2, 0x61, 1, 2, 0, 0], 10, 7⟩) := by
    rfl
  obtain ⟨header, view, hheader, -, -, hlength, hview, hmessage⟩ :=
    @publish_round_trip [0x61] [1, 2] (by decide) (by decide) ⟨List.replicate 12 0, 0, 0⟩ _
      (by decide) rfl h [0xFF]
  exact ⟨header, view, hheader, hlength, hview, hmessage⟩

/-! ## Strings -/

/-- A length-prefixed string as a decoder reads it: the string, and what is behind it. -/
def readUtf8 (bytes : List UInt8) : List UInt8 × List UInt8 :=
  ((bytes.drop 2).take (readUint16Be bytes), bytes.drop (2 + readUint16Be bytes))

/-- **Where a decoder splits a string from what follows it.** -/
theorem readUtf8_lengthPrefixed_iff (str rest : List UInt8) :
    readUtf8 (lengthPrefixed str ++ rest) = (str, rest) ↔ str.length < 65536 := by
  have hread : readUint16Be (lengthPrefixed str ++ rest) = str.length % 65536 := by
    rw [lengthPrefixed, List.append_assoc]
    exact readUint16Be_uint16Be _ _
  have hdrop : (lengthPrefixed str ++ rest).drop 2 = str ++ rest := rfl
  constructor
  · intro h
    have hstr : (str ++ rest).take (str.length % 65536) = str := by
      rw [← hdrop, ← hread]
      exact congrArg Prod.fst h
    have hlen := congrArg List.length hstr
    rw [List.length_take, List.length_append] at hlen
    omega
  · intro h
    rw [readUtf8, ← List.drop_drop, hdrop, hread, Nat.mod_eq_of_lt h, List.take_left,
      List.drop_left]

/-- An append that there is room for returns OK. -/
theorem exists_append (e : Encoder) (data : List UInt8) (hbuf : e.buf.length < 2 ^ 64)
    (hroom : e.offset + data.length ≤ e.buf.length) :
    ∃ e', append e.buf.length data e = .ok (.ok (), e') := by
  obtain ⟨buf, hstore⟩ := exists_store e.buf e.offset data hroom
  refine ⟨{ e with buf := buf, offset := sizeAdd e.offset data.length }, ?_⟩
  rw [append_eq, sizeAdd_of_lt (by omega), if_neg (by omega)]
  exact Prog.ofExcept_bind_eq_ok.mpr ⟨buf, hstore, rfl⟩

/-- A PUBLISH that fits its buffer and its length field is encoded. -/
theorem exists_encodePublish (e : Encoder) (topic payload : List UInt8)
    (hbuf : e.buf.length < 2 ^ 64) (hoff : e.offset = 0)
    (hroom : 5 + (2 + topic.length + payload.length) ≤ e.buf.length)
    (hsize : 2 + topic.length + payload.length ≤ 268435455) :
    ∃ e', encodePublish e.buf.length topic payload e = .ok (.ok (), e') := by
  have hbody := length_publish_body topic payload
  obtain ⟨r, e', hrun, hend⟩ := framed_returns hbuf (publish_appends hbuf topic payload)
    (publish_safe hbuf topic payload) rfl hoff (by omega)
  cases r with
  | ok u => exact ⟨e', hrun⟩
  | error status =>
    obtain ⟨-, -, -, hshort | hlong⟩ := hend
    · omega
    · omega

end Aemlib.Proto
