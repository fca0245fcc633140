import Aemlib.Status
import Aemlib.Machine.Memory

/-!
# MQTT packets: types, constants and machine arithmetic (`proto/proto.h`)

Lengths and offsets are `size_t` on a 64-bit target. They are kept as `Nat` and every addition the
source makes on an untrusted length goes through `sizeAdd`, which wraps; subtractions go through
`checkedSub`, which faults instead of wrapping.
-/

namespace Aemlib

def sizeAdd (a b : Nat) : Nat := (a + b) % 2 ^ 64

theorem sizeAdd_of_lt {a b : Nat} (h : a + b < 2 ^ 64) : sizeAdd a b = a + b := Nat.mod_eq_of_lt h

namespace Proto

-- the constants `AEMLIB_MQTT_*`
abbrev remainingLengthBase : Nat := 128
abbrev remainingLengthMask : UInt8 := 0x7F
abbrev remainingLengthContinuation : UInt8 := 0x80
abbrev maxRemainingLengthMultiplier : Nat := 128 * 128 * 128
abbrev remainingLengthMaxBytes : Nat := 4
abbrev fixedHeaderMinSize : Nat := 2
abbrev utf8LengthPrefixSize : Nat := 2
abbrev protocolLevel : UInt8 := 4
abbrev connectCleanSession : UInt8 := 0x02
abbrev pingreqLength : Nat := 2
abbrev disconnectLength : Nat := 2
abbrev subscribeFlags : UInt8 := 0x02
abbrev subscribePayloadQos : UInt8 := 0
abbrev connackMinSize : Nat := 4
abbrev connackSessionByteIndex : Nat := 2
abbrev connackReturnCodeIndex : Nat := 3
abbrev subackMinSize : Nat := 5
abbrev subackPacketIdByte1 : Nat := 2
abbrev subackPacketIdByte2 : Nat := 3
abbrev subackGrantedQosIndex : Nat := 4

inductive PacketType where
  | connect
  | connack
  | publish
  | puback
  | subscribe
  | suback
  | pingreq
  | pingresp
  | disconnect
  deriving DecidableEq, Repr

/-- The number of a packet type on the wire. -/
def PacketType.val : PacketType → UInt8
  | .connect => 1
  | .connack => 2
  | .publish => 3
  | .puback => 4
  | .subscribe => 8
  | .suback => 9
  | .pingreq => 12
  | .pingresp => 13
  | .disconnect => 14

def PacketType.ofVal? : UInt8 → Option PacketType
  | 1 => some .connect
  | 2 => some .connack
  | 3 => some .publish
  | 4 => some .puback
  | 8 => some .subscribe
  | 9 => some .suback
  | 12 => some .pingreq
  | 13 => some .pingresp
  | 14 => some .disconnect
  | _ => none

/-- The first byte of a packet: the type in the high nibble, the flags in the low one. -/
def headerByte (type : PacketType) (flags : UInt8) : UInt8 := (type.val <<< 4) ||| flags

structure FixedHeader where
  type : PacketType
  flags : UInt8
  remainingLength : Nat
  headerSize : Nat
  deriving DecidableEq, Repr

/-- The length of the whole packet behind a header, as both receivers compute it. -/
def FixedHeader.packetLen (header : FixedHeader) : Nat :=
  sizeAdd header.headerSize header.remainingLength

end Proto

end Aemlib
