import Aemlib.Proto.Length
import Aemlib.Proto.RoundTrip

/-!
# CONNECT and SUBSCRIBE on the wire

The two control packets byte by byte, as MQTT 3.1.1 lays them out. `Packet.bytes` is in the words of
the encoders; here the constants and the two-byte numbers are those of the format, and the length
field is described by what a reader makes of it.
-/

namespace Aemlib.Proto

open Machine

/-! ## The format -/

def bigEndian (n : Nat) : List UInt8 := [UInt8.ofNat (n / 256), UInt8.ofNat (n % 256)]

def connectBody (clientId : List UInt8) (keepaliveSec : UInt16) : List UInt8 :=
  [0x00, 0x04, 0x4D, 0x51, 0x54, 0x54, 0x04, 0x02] ++ bigEndian keepaliveSec.toNat ++
    bigEndian clientId.length ++ clientId

def subscribeBody (packetId : UInt16) (topic : List UInt8) : List UInt8 :=
  bigEndian packetId.toNat ++ bigEndian topic.length ++ topic ++ [0x00]

/-- The bytes an encoder has left: header byte, the shortest length field there is, and the body. A
receiver accepts them as one packet. -/
structure LaidOut (header : UInt8) (body : List UInt8) (e : Encoder) : Prop where
  bytes : ∃ digits, Varint.Minimal digits body.length ∧
    e.buf.take e.outLen = header :: (digits ++ body) ∧ e.outLen = 1 + digits.length + body.length
  accepted : ∃ fixed, decodeFixedHeader e.buf e.outLen = .ok (.ok fixed) ∧
    headerByte fixed.type fixed.flags = header ∧ fixed.remainingLength = body.length ∧
    fixed.headerSize + fixed.remainingLength = e.outLen

/-! ## The encoders keep to it -/

theorem uint16Be_eq (n : Nat) : uint16Be n = bigEndian n := by
  rw [uint16Be, bigEndian, Nat.shiftRight_eq_div_pow, Nat.and_two_pow_sub_one_eq_mod n 8]

theorem connect_body_eq (clientId : List UInt8) (keepaliveSec : UInt16) :
    (Packet.connect clientId keepaliveSec).body = connectBody clientId keepaliveSec := by
  simp only [Packet.body, connectBody, lengthPrefixed, uint16Be_eq, List.append_assoc]
  rfl

theorem subscribe_body_eq (packetId : UInt16) (topic : List UInt8) :
    (Packet.subscribe packetId topic).body = subscribeBody packetId topic := by
  simp only [Packet.body, subscribeBody, lengthPrefixed, uint16Be_eq, List.append_assoc]

/-- **A framed packet is laid out.** Whatever the packet, if its header is a valid one and its body
fits the length field. -/
theorem FramedEnd.laidOut {type : PacketType} {flags : UInt8} {body : List UInt8} {e e' : Encoder}
    (htype : PacketType.ofVal? (headerByte type flags >>> 4) = some type)
    (hflags : headerByte type flags &&& 0x0F = flags)
    (hvalid : validateMqttFlags type flags = statusOk) (hbody : body.length < 2 ^ 28)
    (h : FramedEnd (headerByte type flags) body e (.ok ()) e') :
    LaidOut (headerByte type flags) body e' := by
  obtain ⟨-, -, -, hout, hbytes⟩ := h
  rw [Nat.mod_eq_of_lt (show body.length < 2 ^ 32 by omega), List.take_length] at hout hbytes
  have hwidth := (width_le_four_iff body.length).mpr (by omega)
  have hlen : e'.outLen = 1 + (Varint.encode 4 body.length).length + body.length := by
    rw [hout, List.length_cons, List.length_append]
    omega
  constructor
  · exact ⟨_, Varint.minimal_encode hwidth, hbytes, hlen⟩
  · have hle := le_length_of_take hout hbytes
    have hparse := parseHeader_encode body htype hflags hvalid hbody
    refine ⟨⟨type, flags, body.length, 1 + (Varint.encode 4 body.length).length⟩, ?_, rfl, rfl,
      hlen.symm⟩
    rw [decodeFixedHeader_eq hle, hbytes, hparse]

/-- **CONNECT and SUBSCRIBE are MQTT 3.1.1.** Whenever one of the two encoders returns OK for a
string of at most 65535 bytes, what it leaves in the buffer is the packet of the format. -/
theorem encode_laidOut (str : List UInt8) (hstr : str.length ≤ 65535) (e e' : Encoder)
    (hbuf : e.buf.length < 2 ^ 64) (hoff : e.offset = 0) :
    (∀ keepaliveSec, encodeConnect e.buf.length str keepaliveSec e = .ok (.ok (), e') →
      LaidOut 0x10 (connectBody str keepaliveSec) e') ∧
    (∀ packetId, encodeSubscribe e.buf.length packetId str e = .ok (.ok (), e') →
      LaidOut 0x82 (subscribeBody packetId str) e') := by
  constructor
  · intro keepaliveSec h
    have hend := framed_ensures hbuf (connect_appends hbuf str keepaliveSec) rfl hoff _ _ h
    have hlen := length_connect_body str keepaliveSec
    rw [connect_body_eq] at hend hlen
    exact hend.laidOut (by decide) (by decide) (by decide) (by omega)
  · intro packetId h
    have hend := framed_ensures hbuf (subscribe_appends hbuf packetId str) rfl hoff _ _ h
    have hlen := length_subscribe_body packetId str
    rw [subscribe_body_eq] at hend hlen
    exact hend.laidOut (by decide) (by decide) (by decide) (by omega)

/-- Client id "a" with a keepalive of 258 seconds, and topic "a" with packet id 1, each into a
buffer of 18 bytes. -/
theorem encode_laidOut_a :
    (∃ e', encodeConnect 18 [0x61] 258 ⟨List.replicate 18 0, 0, 0⟩ = .ok (.ok (), e') ∧
      LaidOut 0x10 [0, 4, 0x4D, 0x51, 0x54, 0x54, 4, 2, 1, 2, 0, 1, 0x61] e') ∧
    (∃ e', encodeSubscribe 18 1 [0x61] ⟨List.replicate 18 0, 0, 0⟩ = .ok (.ok (), e') ∧
      LaidOut 0x82 [0, 1, 0, 1, 0x61, 0] e') :=
  ⟨⟨_, rfl, (encode_laidOut [0x61] (by decide) ⟨List.replicate 18 0, 0, 0⟩ _ (by decide) rfl).1
    258 rfl⟩, ⟨_, rfl, (encode_laidOut [0x61] (by decide) ⟨List.replicate 18 0, 0, 0⟩ _ (by decide)
    rfl).2 1 rfl⟩⟩

end Aemlib.Proto
