import Aemlib.Machine.Framing
import Aemlib.Proto.RoundTrip

/-!
# Packets as frames

A packet announces its own length, so a stream of packets is cut in one way only
(`framed_prefixFree`). The packets the client encodes are such frames as long as they keep to the
limits of the format (`Packet.Regular`): a string has a length of 16 bits and a body one of four
base-128 digits.
-/

namespace Aemlib.Proto

open Machine

/-! ## Frames -/

/-- A packet that is as long as its fixed header says. -/
def Framed (packet : List UInt8) : Prop :=
  ∃ header, parseHeader packet = .ok header ∧ header.packetLen = packet.length

theorem framed_prefixFree : PrefixFree Framed where
  ne_nil p h := by
    obtain ⟨header, hparse, -⟩ := h
    rintro rfl
    cases hparse
  eq_of_prefix p q hp hq h := by
    obtain ⟨header, hparse, hlen⟩ := hp
    obtain ⟨header', hparse', hlen'⟩ := hq
    obtain ⟨more, rfl⟩ := h
    rw [parseHeader_append_ok more hparse] at hparse'
    cases hparse'
    exact (List.prefix_append p more).eq_of_length (hlen.symm.trans hlen')

/-! ## The packets of the client -/

def Packet.type : Packet → PacketType
  | .connect _ _ => .connect
  | .publish _ _ => .publish
  | .subscribe _ _ => .subscribe
  | .pingreq => .pingreq

def Packet.flags : Packet → UInt8
  | .subscribe _ _ => subscribeFlags
  | _ => 0

/-- A packet within the limits of the format. -/
def Packet.Regular : Packet → Prop
  | .connect clientId _ => clientId.length ≤ 65535
  | .publish topic payload =>
    topic.length ≤ 65535 ∧ 2 + topic.length + payload.length ≤ 268435455
  | .subscribe _ topic => topic.length ≤ 65535
  | .pingreq => True

instance : DecidablePred Packet.Regular
  | .connect clientId _ => inferInstanceAs (Decidable (clientId.length ≤ 65535))
  | .publish _ _ => inferInstanceAs (Decidable (_ ∧ _))
  | .subscribe _ topic => inferInstanceAs (Decidable (topic.length ≤ 65535))
  | .pingreq => inferInstanceAs (Decidable True)

/-- The fixed header of a packet within the limits. -/
def Packet.fixedHeader (p : Packet) : FixedHeader where
  type := p.type
  flags := p.flags
  remainingLength := p.body.length
  headerSize := 1 + (Varint.encode 4 p.body.length).length

namespace Packet.Regular

theorem body_lt {p : Packet} (h : p.Regular) : p.body.length < 2 ^ 28 := by
  cases p with
  | connect clientId keepaliveSec =>
    have hid : clientId.length ≤ 65535 := h
    rw [length_connect_body]
    omega
  | publish topic payload =>
    have hsize := h.2
    rw [length_publish_body]
    omega
  | subscribe packetId topic =>
    have htopic : topic.length ≤ 65535 := h
    rw [length_subscribe_body]
    omega
  | pingreq => decide

/-- Header byte, digits and body, nothing cut off. -/
theorem bytes_eq_append {p : Packet} (h : p.Regular) :
    p.bytes = (p.header :: Varint.encode 4 p.body.length) ++ p.body := by
  have hlt := h.body_lt
  rw [bytes_eq (by omega), List.cons_append]

theorem length_bytes {p : Packet} (h : p.Regular) :
    p.bytes.length = p.fixedHeader.headerSize + p.body.length := by
  rw [h.bytes_eq_append, List.length_append, List.length_cons, Nat.add_comm _ 1]
  rfl

/-- The header is read back, whatever follows the packet. -/
theorem parseHeader_bytes {p : Packet} (h : p.Regular) (more : List UInt8) :
    parseHeader (p.bytes ++ more) = .ok p.fixedHeader := by
  have hlt := h.body_lt
  rw [bytes_eq (by omega), List.cons_append, List.append_assoc]
  cases p with
  | connect | publish | subscribe | pingreq =>
    exact parseHeader_encode _ (by decide) (by decide) (by decide) hlt

theorem packetLen_bytes {p : Packet} (h : p.Regular) :
    p.fixedHeader.packetLen = p.bytes.length := by
  rw [packetLen_eq (h.parseHeader_bytes []), h.length_bytes]
  rfl

theorem framed {p : Packet} (h : p.Regular) : Framed p.bytes := by
  refine ⟨p.fixedHeader, ?_, h.packetLen_bytes⟩
  have hparse := h.parseHeader_bytes []
  rwa [List.append_nil] at hparse

end Packet.Regular

end Aemlib.Proto
