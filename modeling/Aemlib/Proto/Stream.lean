import Aemlib.Proto.Framing

/-!
# One stream, one reading

`proto.h` has encoders for five kinds of packets. Put packets on one stream, each as its encoder has
left it in a buffer of its own: within the limits of the format, the stream says which packets they
were, with all that is in them (`stream_unambiguous`). Nothing of it depends on the size of the
buffers or on what was in them before.

A packet is read back by its type: `Outgoing.read` undoes `Outgoing.bytes`.
-/

namespace Aemlib.Proto

open Machine

/-! ## DISCONNECT -/

theorem encodeDisconnect_eq {bufLen : Nat} {e : Encoder} (hlen : e.buf.length = bufLen) :
    encodeDisconnect bufLen e =
      if bufLen < 2 then .ok (.error bufferTooSmall, e)
      else .ok (.ok (), { e with
        buf := [headerByte .disconnect 0, 0] ++ e.buf.drop 2, outLen := 2 }) := by
  unfold encodeDisconnect
  by_cases h : bufLen < 2
  · simp [h]
  · have hst : store e.buf 0 [headerByte .disconnect 0, 0] =
        .ok ([headerByte .disconnect 0, 0] ++ e.buf.drop 2) :=
      store_eq_ok.mpr ⟨by simp; omega, by simp⟩
    simp [h, hst]

/-! ## The packets there are encoders for -/

/-- A 16-bit number is read back. -/
theorem readUint16Be_toNat (n : UInt16) (more : List UInt8) :
    UInt16.ofNat (readUint16Be (uint16Be n.toNat ++ more)) = n := by
  rw [readUint16Be_uint16Be, Nat.mod_eq_of_lt n.toNat_lt, UInt16.ofNat_toNat]

/-- The packets the client sends, and DISCONNECT. -/
inductive Outgoing where
  | packet (p : Packet)
  | disconnect
  deriving DecidableEq, Repr

namespace Outgoing

def encode (bufLen : Nat) : Outgoing → Enc Unit
  | .packet p => p.encode bufLen
  | .disconnect => encodeDisconnect bufLen

def Regular : Outgoing → Prop
  | .packet p => p.Regular
  | .disconnect => True

instance : DecidablePred Regular
  | .packet p => inferInstanceAs (Decidable p.Regular)
  | .disconnect => inferInstanceAs (Decidable True)

def bytes : Outgoing → List UInt8
  | .packet p => p.bytes
  | .disconnect => [headerByte .disconnect 0, 0]

def fixedHeader : Outgoing → FixedHeader
  | .packet p => p.fixedHeader
  | .disconnect => ⟨.disconnect, 0, 0, 2⟩

def body : Outgoing → List UInt8
  | .packet p => p.body
  | .disconnect => []

/-- What a reader makes of a packet type and a body. -/
def read (type : PacketType) (body : List UInt8) : Outgoing :=
  match type with
  | .connect =>
    .packet (.connect (readUtf8 (body.drop 10)).1 (UInt16.ofNat (readUint16Be (body.drop 8))))
  | .publish => .packet (.publish (readUtf8 body).1 (readUtf8 body).2)
  | .subscribe =>
    .packet (.subscribe (UInt16.ofNat (readUint16Be body)) (readUtf8 (body.drop 2)).1)
  | .pingreq => .packet .pingreq
  | _ => .disconnect

/-- Type and body are the packet. -/
theorem Regular.read_body {p : Outgoing} (h : p.Regular) : read p.fixedHeader.type p.body = p := by
  cases p with
  | disconnect => rfl
  | packet p =>
    cases p with
    | connect clientId keepaliveSec =>
      -- the id is the last field: nothing follows it
      have hid : clientId.length < 65536 := Nat.lt_succ_of_le h
      have hread := (readUtf8_lengthPrefixed_iff clientId []).mpr hid
      rw [List.append_nil] at hread
      show packet (.connect (readUtf8 (lengthPrefixed clientId)).1
        (UInt16.ofNat (readUint16Be (uint16Be keepaliveSec.toNat ++ lengthPrefixed clientId)))) = _
      rw [hread, readUint16Be_toNat]
    | publish topic payload =>
      have hread := (readUtf8_lengthPrefixed_iff topic payload).mpr (Nat.lt_succ_of_le h.1)
      show packet (.publish (readUtf8 (lengthPrefixed topic ++ payload)).1
        (readUtf8 (lengthPrefixed topic ++ payload)).2) = _
      rw [hread]
    | subscribe packetId topic =>
      have htopic : topic.length < 65536 := Nat.lt_succ_of_le h
      have hread := (readUtf8_lengthPrefixed_iff topic [subscribePayloadQos]).mpr htopic
      show packet (.subscribe
        (UInt16.ofNat (readUint16Be (uint16Be packetId.toNat ++ (lengthPrefixed topic ++ _))))
        (readUtf8 (lengthPrefixed topic ++ [subscribePayloadQos])).1) = _
      rw [hread, readUint16Be_toNat]
    | pingreq => rfl

theorem Regular.parseHeader_bytes {p : Outgoing} (h : p.Regular) :
    parseHeader p.bytes = .ok p.fixedHeader := by
  cases p with
  | disconnect => rfl
  | packet p =>
    have hparse := Packet.Regular.parseHeader_bytes h []
    rwa [List.append_nil] at hparse

theorem Regular.drop_bytes {p : Outgoing} (h : p.Regular) :
    p.bytes.drop p.fixedHeader.headerSize = p.body := by
  cases p with
  | disconnect => rfl
  | packet p =>
    have hbytes : p.bytes = _ := Packet.Regular.bytes_eq_append h
    show p.bytes.drop p.fixedHeader.headerSize = p.body
    rw [hbytes]
    refine List.drop_left' ?_
    rw [List.length_cons, Nat.add_comm]
    rfl

theorem Regular.framed {p : Outgoing} (h : p.Regular) : Framed p.bytes := by
  cases p with
  | disconnect => exact ⟨_, rfl, rfl⟩
  | packet p => exact Packet.Regular.framed h

/-- The bytes say which packet it is. -/
theorem Regular.eq_of_bytes {p q : Outgoing} (hp : p.Regular) (hq : q.Regular)
    (h : p.bytes = q.bytes) : p = q := by
  have hheader : p.fixedHeader = q.fixedHeader := by
    have hparse := hp.parseHeader_bytes
    rw [h, hq.parseHeader_bytes] at hparse
    exact (Except.ok.inj hparse).symm
  calc
    p = read p.fixedHeader.type (p.bytes.drop p.fixedHeader.headerSize) := by
      rw [hp.drop_bytes, hp.read_body]
    _ = read q.fixedHeader.type (q.bytes.drop q.fixedHeader.headerSize) := by rw [h, hheader]
    _ = q := by rw [hq.drop_bytes, hq.read_body]

/-- What is in the buffer when an encoder has returned OK. -/
theorem take_of_encode {p : Outgoing} {e e' : Encoder} (hbuf : e.buf.length < 2 ^ 64)
    (hoff : e.offset = 0) (h : p.encode e.buf.length e = .ok (.ok (), e')) :
    e'.buf.take e'.outLen = p.bytes := by
  cases p with
  | disconnect =>
    have h' : encodeDisconnect e.buf.length e = .ok (.ok (), e') := h
    rw [encodeDisconnect_eq rfl] at h'
    split at h'
    · cases h'
    · cases h'
      rfl
  | packet p =>
    obtain ⟨-, -, htake⟩ := encode_ensures p hbuf rfl hoff _ _ h
    exact htake

end Outgoing

/-! ## Streams -/

/-- Packets encoded one after the other, each into a buffer of its own, and the stream of what the
encoders left there. -/
inductive Streams : List Outgoing → List UInt8 → Prop where
  | nil : Streams [] []
  | cons {p : Outgoing} {packets : List Outgoing} {e e' : Encoder} {stream : List UInt8} :
    e.buf.length < 2 ^ 64 → e.offset = 0 → p.encode e.buf.length e = .ok (.ok (), e') →
    Streams packets stream → Streams (p :: packets) (e'.buf.take e'.outLen ++ stream)

theorem Streams.eq_flatMap {packets : List Outgoing} {stream : List UInt8}
    (h : Streams packets stream) : stream = packets.flatMap Outgoing.bytes := by
  induction h with
  | nil => rfl
  | cons hbuf hoff hencode _ ih =>
    rw [Outgoing.take_of_encode hbuf hoff hencode, ih, List.flatMap_cons]

/-- **One stream, one reading.** Of two streams of packets within the limits of the format, the one
is the beginning of the other exactly if its packets are the first packets of the other. -/
theorem stream_unambiguous {ps qs : List Outgoing} {s₁ s₂ : List UInt8}
    (hps : ∀ p ∈ ps, p.Regular) (hqs : ∀ q ∈ qs, q.Regular) (h₁ : Streams ps s₁)
    (h₂ : Streams qs s₂) : s₁ <+: s₂ ↔ ps <+: qs := by
  rw [h₁.eq_flatMap, h₂.eq_flatMap]
  constructor
  · refine framed_prefixFree.prefix_of_flatMap (fun p hp => (hps p hp).framed)
      (fun q hq => (hqs q hq).framed) ?_
    exact fun p hp q hq => (hps p hp).eq_of_bytes (hqs q hq)
  · rintro ⟨rest, rfl⟩
    rw [List.flatMap_append]
    exact List.prefix_append _ _

def encodedIn (size : Nat) (cell : UInt8) (p : Outgoing) : Option (List UInt8) :=
  match p.encode size ⟨List.replicate size cell, 0, 0⟩ with
  | .ok (.ok (), e) => some (e.buf.take e.outLen)
  | _ => none

theorem Streams.of_encodedIn (size : Nat) (cell : UInt8) {p : Outgoing} {bytes : List UInt8}
    {packets : List Outgoing} {stream : List UInt8} (hsize : size < 2 ^ 64)
    (h : encodedIn size cell p = some bytes) (hs : Streams packets stream) :
    Streams (p :: packets) (bytes ++ stream) := by
  have hlen : (List.replicate size cell).length = size := List.length_replicate
  unfold encodedIn at h
  split at h
  · next e' hencode =>
    cases h
    refine .cons (e := ⟨List.replicate size cell, 0, 0⟩) ?_ rfl ?_ hs
    · rw [hlen]
      exact hsize
    · rw [hlen]
      exact hencode
  · cases h

/-- A SUBSCRIBE and a PUBLISH from buffers that just hold them, and the same two and a DISCONNECT
from larger buffers that were used before. -/
theorem stream_unambiguous_subscribe :
    ∃ s₁ s₂, Streams [.packet (.subscribe 2 [0x61]), .packet (.publish [0x61] [7])] s₁ ∧
      Streams [.packet (.subscribe 2 [0x61]), .packet (.publish [0x61] [7]), .disconnect] s₂ ∧
      s₁ = [0x82, 6, 0, 2, 0, 1, 0x61, 0, 0x30, 4, 0, 1, 0x61, 7] ∧ s₁ <+: s₂ := by
  have h₁ : Streams [.packet (.subscribe 2 [0x61]), .packet (.publish [0x61] [7])]
      ([0x82, 6, 0, 2, 0, 1, 0x61, 0] ++ ([0x30, 4, 0, 1, 0x61, 7] ++ [])) :=
    .of_encodedIn 11 0 (by decide) rfl
      (.of_encodedIn 9 0 (by decide) rfl .nil)
  have h₂ : Streams [.packet (.subscribe 2 [0x61]), .packet (.publish [0x61] [7]), .disconnect]
      ([0x82, 6, 0, 2, 0, 1, 0x61, 0] ++ ([0x30, 4, 0, 1, 0x61, 7] ++ ([0xE0, 0] ++ []))) :=
    .of_encodedIn 16 9 (by decide) rfl
      (.of_encodedIn 12 9 (by decide) rfl
        (.of_encodedIn 2 9 (by decide) rfl .nil))
  refine ⟨_, _, h₁, h₂, rfl, (stream_unambiguous ?_ ?_ h₁ h₂).mpr ?_⟩
  · decide
  · decide
  · decide

end Aemlib.Proto
