import Aemlib.Platform.Wire
import Aemlib.Proto.Framing

/-!
# The broker of the demo (`examples/pubsub_demo.c`)

A client on one endpoint of a virtual pair, and on the other a broker in a few lines: it answers
CONNECT and SUBSCRIBE, keeps one topic, and sends a PUBLISH on that topic back as it came. It
collects what it reads in a buffer of 256 bytes and handles every packet that is complete.

The code is translated with every access checked, those of `printf` included. What the broker is for
is said on packets (`answers`, `subscription`); `brokerTick_serves` ties the two on any stream that
the client can have sent, however it is cut into reads. Put together with the client's side, the
messages the callback is told are the publications that were echoed (`demo_delivers`).
-/

namespace Aemlib

open Machine Proto Virtual

namespace Demo

/-! ## The code -/

/-- The statics of the broker: `buf` and `buf_len` of `broker_tick`, and the topic it keeps. -/
structure Broker where
  buf : List UInt8
  bufLen : Nat
  topic : List UInt8
  topicLen : Nat
  subscribed : Bool
  deriving DecidableEq, Repr

abbrev bufSize : Nat := 256

abbrev topicSize : Nat := 128

/-- The broker, and what the clock and the message callback keep for themselves. -/
structure Host (τ : Type) where
  broker : Broker
  user : τ

variable {τ : Type}

abbrev BrokerM (τ : Type) := Prog Fault Status (Net (Host τ))

def getBroker : BrokerM τ Broker := do
  let n ← get
  return n.rest.broker

def setBroker (b : Broker) : BrokerM τ Unit :=
  modify fun n => { n with rest := { n.rest with broker := b } }

@[simp] theorem run_getBroker_bind {α : Type} (f : Broker → BrokerM τ α) (n : Net (Host τ)) :
    (getBroker >>= f) n = f n.rest.broker n := rfl

@[simp] theorem run_setBroker_bind {α : Type} (b : Broker) (f : Unit → BrokerM τ α)
    (n : Net (Host τ)) :
    (setBroker b >>= f) n = f () { n with rest := { n.rest with broker := b } } := rfl

/-- `printf("%.*s")`: the bytes up to a NUL, and at most `len` of them. -/
def printed (buf : List UInt8) : (off len : Nat) → Except Fault (List UInt8)
  | _, 0 => .ok []
  | off, len + 1 => do
    let byte ← fetch buf off
    if byte = 0 then return []
    let rest ← printed buf (off + 1) len
    return byte :: rest

def connack : List UInt8 := [0x20, 0x02, 0x00, 0x00]

def suback (packetId : UInt16) : List UInt8 :=
  [0x90, 0x03, UInt8.ofNat (packetId.toNat >>> 8), UInt8.ofNat (packetId.toNat &&& 0xFF), 0x00]

/-- `broker_process_packet`. `buf` are all the cells behind the pointer. -/
def brokerProcessPacket (buf : List UInt8) (header : FixedHeader) (packetLen : Nat) :
    BrokerM τ Unit := do
  match header.type with
  | .connect =>
    let _ ← peerWrite connack
  | .subscribe =>
    let offset := header.headerSize
    let hi ← Prog.ofExcept (fetch buf offset)
    let lo ← Prog.ofExcept (fetch buf (sizeAdd offset 1))
    let packetId := UInt16.ofNat ((hi.toNat <<< 8) ||| lo.toNat)
    let offset := sizeAdd offset 2
    let hi ← Prog.ofExcept (fetch buf offset)
    let lo ← Prog.ofExcept (fetch buf (sizeAdd offset 1))
    let topicLen := (hi.toNat <<< 8) ||| lo.toNat
    let offset := sizeAdd offset 2
    -- a topic that is too long is acknowledged all the same
    if topicLen ≤ topicSize then
      let b ← getBroker
      let data ← Prog.ofExcept (load buf offset topicLen)
      let topic ← Prog.ofExcept (store b.topic 0 data)
      setBroker { b with topic := topic, topicLen := topicLen, subscribed := true }
    let _ ← Prog.ofExcept (printed buf offset topicLen)
    let _ ← peerWrite (suback packetId)
  | .publish =>
    match ← Prog.ofExcept (decodePublish buf packetLen header) with
    | .error _ => return
    | .ok view =>
      let _ ← Prog.ofExcept (printed buf view.topicStart view.topicLen)
      let _ ← Prog.ofExcept (printed buf view.payloadStart view.payloadLen)
      let b ← getBroker
      if b.subscribed ∧ view.topicLen = b.topicLen then
        -- `memcmp`, behind the two tests of the `&&`
        let topic ← Prog.ofExcept (load buf view.topicStart view.topicLen)
        let kept ← Prog.ofExcept (load b.topic 0 view.topicLen)
        if topic = kept then
          let data ← Prog.ofExcept (load buf 0 packetLen)
          let _ ← peerWrite data
  | _ => return

/-- The loop of `broker_tick`. Every turn but the last takes a packet off the buffer. -/
def brokerTickLoop : (fuel : Nat) → BrokerM τ Unit
  | 0 => Prog.ofExcept (.error .outOfFuel)
  | fuel + 1 => do
    let b ← getBroker
    if b.bufLen = 0 then return
    -- no whole header yet, or none at all: what is held stays for the next tick
    match ← Prog.ofExcept (decodeFixedHeader b.buf b.bufLen) with
    | .error _ => return
    | .ok header =>
      let packetLen := header.packetLen
      if packetLen > b.bufLen then return
      brokerProcessPacket b.buf header packetLen
      let b ← getBroker
      let left ← Prog.ofExcept (checkedSub b.bufLen packetLen)
      setBroker { b with bufLen := left }
      if left > 0 then
        let b ← getBroker
        let buf ← Prog.ofExcept (Machine.move b.buf 0 packetLen left)
        setBroker { b with buf := buf }
      brokerTickLoop fuel

def brokerTick : BrokerM τ Unit := do
  let b ← getBroker
  let room ← Prog.ofExcept (checkedSub bufSize b.bufLen)
  let result ← peerRead room
  let buf ← Prog.ofExcept (store b.buf b.bufLen result.data)
  setBroker { b with buf := buf }
  -- the bytes of a failed read are in the buffer but are not counted
  if HardError result.status then return
  setBroker { b with buf := buf, bufLen := sizeAdd b.bufLen result.data.length }
  brokerTickLoop (sizeAdd b.bufLen result.data.length + 1)

def Broker.zero : Broker where
  buf := List.replicate bufSize 0
  bufLen := 0
  topic := List.replicate topicSize 0
  topicLen := 0
  subscribed := false

/-! ## What the broker is for -/

def keep (kept : Option (List UInt8)) : Packet → Option (List UInt8)
  | .subscribe _ topic => if topic.length ≤ topicSize then some topic else kept
  | _ => kept

def answer (kept : Option (List UInt8)) : Packet → List (List UInt8)
  | .connect _ _ => [connack]
  | .subscribe packetId _ => [suback packetId]
  | .publish topic payload =>
    if kept = some topic then [(Packet.publish topic payload).bytes] else []
  | .pingreq => []

def answers (kept : Option (List UInt8)) : List Packet → List (List UInt8)
  | [] => []
  | p :: packets => answer kept p ++ answers (keep kept p) packets

/-- The messages among the answers: those published on the topic that was kept at the time. -/
def echoes (kept : Option (List UInt8)) : List Packet → List (List UInt8 × List UInt8)
  | [] => []
  | .publish topic payload :: packets =>
    if kept = some topic then (topic, payload) :: echoes kept packets else echoes kept packets
  | p :: packets => echoes (keep kept p) packets

theorem answers_append (kept : Option (List UInt8)) (packets packets' : List Packet) :
    answers kept (packets ++ packets') =
      answers kept packets ++ answers (packets.foldl keep kept) packets' := by
  induction packets generalizing kept with
  | nil => rfl
  | cons p packets ih =>
    rw [List.cons_append, answers, ih, answers, List.append_assoc]
    rfl

/-- What the client makes of an answer. -/
theorem answer_message (kept : Option (List UInt8)) {p : Packet} (hp : p.Regular) :
    (∀ q ∈ answer kept p, Framed q) ∧
      (answer kept p).filterMap messageOf = echoes kept [p] := by
  cases p with
  | connect clientId keepaliveSec =>
    refine ⟨?_, rfl⟩
    intro q hq
    rw [List.mem_singleton.mp hq]
    exact ⟨⟨.connack, 0, 2, 2⟩, by decide, by decide⟩
  | subscribe packetId topic =>
    have hparse : parseHeader (suback packetId) = .ok ⟨.suback, 0, 3, 2⟩ := rfl
    refine ⟨?_, ?_⟩
    · intro q hq
      rw [List.mem_singleton.mp hq]
      exact ⟨_, hparse, rfl⟩
    · rfl
  | publish topic payload =>
    simp only [answer, echoes]
    split
    · refine ⟨?_, ?_⟩
      · intro q hq
        rw [List.mem_singleton.mp hq]
        exact hp.framed
      · -- the echo carries the message it was sent with
        obtain ⟨header, view, hparse, htype, -, -, hview, hmessage⟩ :=
          parse_publish_bytes [] hp.1 hp.2
        rw [List.append_nil] at hparse hview hmessage
        have hbounds := parseHeader_bounds hparse
        have hmsg : messageOf (Packet.publish topic payload).bytes = some (topic, payload) := by
          unfold messageOf
          rw [decodeFixedHeader_eq (Nat.le_refl _), List.take_length, hparse]
          simp only [htype, if_true]
          rw [decodePublish_eq (Nat.le_refl _) hbounds.2.1 hbounds.2.2.2, List.take_length, hview]
          simp only [hmessage]
        rw [List.filterMap_cons, hmsg, List.filterMap_nil]
    · exact ⟨fun q hq => (nomatch hq), rfl⟩
  | pingreq => exact ⟨fun q hq => (nomatch hq), rfl⟩

theorem answers_messages (kept : Option (List UInt8)) {packets : List Packet}
    (h : ∀ p ∈ packets, p.Regular) :
    (∀ q ∈ answers kept packets, Framed q) ∧
      (answers kept packets).filterMap messageOf = echoes kept packets := by
  induction packets generalizing kept with
  | nil => exact ⟨fun q hq => (nomatch hq), rfl⟩
  | cons p packets ih =>
    obtain ⟨hframed, hmsgs⟩ := answer_message kept (h p List.mem_cons_self)
    obtain ⟨hframed', hmsgs'⟩ := ih (keep kept p) fun q hq => h q (List.mem_cons_of_mem p hq)
    refine ⟨?_, ?_⟩
    · intro q hq
      rcases List.mem_append.mp hq with hq | hq
      · exact hframed q hq
      · exact hframed' q hq
    · rw [answers, List.filterMap_append, hmsgs, hmsgs']
      cases p with
      | publish topic payload =>
        simp only [echoes, keep]
        split
        · rfl
        · rfl
      | _ => rfl

/-! ## One packet -/

def Broker.held (b : Broker) : List UInt8 := b.buf.take b.bufLen

def Broker.kept (b : Broker) : Option (List UInt8) :=
  if b.subscribed then some (b.topic.take b.topicLen) else none

structure Broker.Valid (b : Broker) : Prop where
  bufOwned : b.buf.length = bufSize
  topicOwned : b.topic.length = topicSize
  bufLe : b.bufLen ≤ bufSize
  topicLe : b.topicLen ≤ topicSize

theorem Broker.zero_valid : Broker.zero.Valid where
  bufOwned := List.length_replicate
  topicOwned := List.length_replicate
  bufLe := Nat.zero_le _
  topicLe := Nat.zero_le _

/-- The data of the writes, whether or not the pair took them. -/
def offered (log : List Exchange) : List (List UInt8) :=
  log.flatMap fun
    | .write data _ => [data]
    | _ => []

@[simp] theorem offered_append (log log' : List Exchange) :
    offered (log ++ log') = offered log ++ offered log' := List.flatMap_append

/-- The broker has dealt with a packet, which is still in the buffer. -/
structure Processed (n : Net (Host τ)) (p : Packet) (n' : Net (Host τ)) : Prop where
  buf : n'.rest.broker.buf = n.rest.broker.buf
  bufLen : n'.rest.broker.bufLen = n.rest.broker.bufLen
  valid : n'.rest.broker.Valid
  kept : n'.rest.broker.kept = keep n.rest.broker.kept p
  received : Virtual.received n'.log = Virtual.received n.log
  offered : offered n'.log = offered n.log ++ answer n.rest.broker.kept p
  pair : n'.pair = n.pair.writes .b (answer n.rest.broker.kept p)

/-- What does not run past the end can be printed. -/
theorem exists_printed {buf : List UInt8} {off len : Nat} (h : off + len ≤ buf.length) :
    ∃ out, printed buf off len = .ok out := by
  induction len generalizing off with
  | zero => exact ⟨[], rfl⟩
  | succ len ih =>
    obtain ⟨out, hout⟩ := ih (show off + 1 + len ≤ buf.length by omega)
    have hfetch := fetch_of_lt (show off < buf.length by omega)
    simp only [printed, hfetch, hout, bind, Except.bind, pure, Except.pure]
    split
    · exact ⟨_, rfl⟩
    · exact ⟨_, rfl⟩

/-- The number in two bytes of a packet. -/
theorem uint16Be_or {n : Nat} (h : n < 65536) :
    ((UInt8.ofNat (n >>> 8)).toNat <<< 8) ||| (UInt8.ofNat (n &&& 0xFF)).toNat = n := by
  have hread := readUint16Be_uint16Be n []
  rw [Nat.mod_eq_of_lt h] at hread
  rw [shiftLeft_or_eq]
  exact hread

/-- A write is in the log; nothing else that the broker's account is about changes. -/
theorem Processed.write {n m : Net (Host τ)} {p : Packet} {data : List UInt8}
    {res : WriteResult} (hvalid : m.rest.broker.Valid) (hpair : m.pair = n.pair)
    (hbuf : m.rest.broker.buf = n.rest.broker.buf)
    (hlen : m.rest.broker.bufLen = n.rest.broker.bufLen)
    (hkept : m.rest.broker.kept = keep n.rest.broker.kept p) (hlog : m.log = n.log)
    (hanswer : answer n.rest.broker.kept p = [data]) :
    Processed n p ⟨(m.pair.write .b data).2, m.log ++ [.write data res], m.rest⟩ where
  buf := hbuf
  bufLen := hlen
  valid := hvalid
  kept := hkept
  received := by
    rw [Virtual.received_append, hlog]
    exact List.append_nil _
  offered := by
    rw [offered_append, hlog, hanswer]
    rfl
  pair := by
    rw [hpair, hanswer]
    rfl

theorem brokerProcessPacket_subscribe {n : Net (Host τ)} {packetId : UInt16}
    {topic buf tail : List UInt8} (htopic : topic.length ≤ 65535) (hv : n.rest.broker.Valid)
    (hbuf : buf = (Packet.subscribe packetId topic).bytes ++ tail) :
    ∃ n', brokerProcessPacket buf (Packet.subscribe packetId topic).fixedHeader
        (Packet.subscribe packetId topic).bytes.length n = .ok (.ok (), n') ∧
      Processed n (.subscribe packetId topic) n' := by
  have hp : (Packet.subscribe packetId topic).Regular := htopic
  generalize hheader : (Packet.subscribe packetId topic).fixedHeader = header
  obtain ⟨-, hfive, -, -⟩ := parseHeader_bounds (hp.parseHeader_bytes [])
  rw [hheader] at hfive
  -- the buffer: fixed header, packet id, topic length, topic
  obtain ⟨front, hfront, hlayout⟩ : ∃ front : List UInt8, front.length = header.headerSize ∧
      buf = front ++ (uint16Be packetId.toNat ++ (uint16Be topic.length ++
        (topic ++ (subscribePayloadQos :: tail)))) := by
    refine ⟨(Packet.subscribe packetId topic).header ::
      Varint.encode 4 (Packet.subscribe packetId topic).body.length, ?_, ?_⟩
    · rw [← hheader, List.length_cons, Nat.add_comm]
      rfl
    · rw [hbuf, hp.bytes_eq_append]
      simp only [Packet.body, lengthPrefixed, List.append_assoc, List.cons_append,
        List.nil_append]
  have hid := packetId.toNat_lt
  have hfetch : ∀ i, fetch buf (header.headerSize + i) = fetch (uint16Be packetId.toNat ++
      (uint16Be topic.length ++ (topic ++ (subscribePayloadQos :: tail)))) i := by
    intro i
    rw [hlayout, ← hfront, fetch_append]
  have hload : load buf (header.headerSize + 4) topic.length = .ok topic := by
    have := load_append (front ++ (uint16Be packetId.toNat ++ uint16Be topic.length)) topic
      (subscribePayloadQos :: tail)
    simp only [List.append_assoc, List.length_append, length_uint16Be, hfront] at this
    rw [hlayout]
    exact this
  obtain ⟨out, hout⟩ := exists_printed
    (show header.headerSize + 4 + topic.length ≤ buf.length from (load_eq_ok.mp hload).1)
  have htype : header.type = .subscribe := by
    rw [← hheader]
    rfl
  have h1 : sizeAdd header.headerSize 1 = header.headerSize + 1 := sizeAdd_of_lt (by omega)
  have h2 : sizeAdd header.headerSize 2 = header.headerSize + 2 := sizeAdd_of_lt (by omega)
  have h3 : sizeAdd (header.headerSize + 2) 1 = header.headerSize + 3 := sizeAdd_of_lt (by omega)
  have h4 : sizeAdd (header.headerSize + 2) 2 = header.headerSize + 4 := sizeAdd_of_lt (by omega)
  have hf0 : fetch buf header.headerSize = .ok (UInt8.ofNat (packetId.toNat >>> 8)) := hfetch 0
  have hf1 : fetch buf (header.headerSize + 1) = .ok (UInt8.ofNat (packetId.toNat &&& 0xFF)) :=
    hfetch 1
  have hf2 : fetch buf (header.headerSize + 2) = .ok (UInt8.ofNat (topic.length >>> 8)) := hfetch 2
  have hf3 : fetch buf (header.headerSize + 3) = .ok (UInt8.ofNat (topic.length &&& 0xFF)) :=
    hfetch 3
  unfold brokerProcessPacket
  simp only [htype, h1, h2, h3, h4, hf0, hf1, hf2, hf3, Prog.run_ofExcept_ok_bind,
    uint16Be_or (show topic.length < 65536 by omega),
    uint16Be_or (show packetId.toNat < 65536 from hid), UInt16.ofNat_toNat, hload, hout]
  by_cases hsmall : topic.length ≤ topicSize
  · -- the topic is copied to the front of `broker_topic`
    obtain ⟨kept, hstore⟩ := exists_store n.rest.broker.topic 0 topic (by
      rw [hv.topicOwned, Nat.zero_add]
      exact hsmall)
    have hfirst := take_of_store hstore
    rw [Nat.zero_add, List.take_zero, List.nil_append] at hfirst
    rw [if_pos hsmall]
    simp only [run_getBroker_bind, run_setBroker_bind, Prog.run_ofExcept_ok_bind, hstore]
    refine ⟨_, rfl, Processed.write (m := ⟨n.pair, n.log, ⟨{ n.rest.broker with
      topic := kept, topicLen := topic.length, subscribed := true }, n.rest.user⟩⟩)
      ⟨hv.bufOwned, (length_of_store hstore).trans hv.topicOwned, hv.bufLe, hsmall⟩ rfl rfl rfl ?_
      rfl rfl⟩
    show some (kept.take topic.length) = keep _ _
    rw [hfirst, keep, if_pos hsmall]
  · rw [if_neg hsmall]
    refine ⟨_, rfl, Processed.write hv rfl rfl rfl ?_ rfl rfl⟩
    rw [keep, if_neg hsmall]

theorem brokerProcessPacket_publish {n : Net (Host τ)} {topic payload buf tail : List UInt8}
    (hp : (Packet.publish topic payload).Regular) (hv : n.rest.broker.Valid)
    (hbuf : buf = (Packet.publish topic payload).bytes ++ tail) :
    ∃ n', brokerProcessPacket buf (Packet.publish topic payload).fixedHeader
        (Packet.publish topic payload).bytes.length n = .ok (.ok (), n') ∧
      Processed n (.publish topic payload) n' := by
  generalize hheader : (Packet.publish topic payload).fixedHeader = header
  obtain ⟨-, hfive, -, hrem⟩ := parseHeader_bounds (hp.parseHeader_bytes [])
  rw [hheader] at hfive hrem
  -- the buffer: fixed header, topic length, topic, payload
  obtain ⟨front, hfront, hbytes⟩ : ∃ front : List UInt8, front.length = header.headerSize ∧
      (Packet.publish topic payload).bytes =
        front ++ ((lengthPrefixed topic ++ payload) ++ []) := by
    refine ⟨(Packet.publish topic payload).header ::
      Varint.encode 4 (Packet.publish topic payload).body.length, ?_, ?_⟩
    · rw [← hheader, List.length_cons, Nat.add_comm]
      rfl
    · rw [hp.bytes_eq_append, List.append_nil]
      rfl
  have hview : decodePublish buf (Packet.publish topic payload).bytes.length header =
      .ok (.ok ⟨header.headerSize + 2, topic.length, header.headerSize + 2 + topic.length,
        payload.length⟩) := by
    rw [decodePublish_eq (by rw [hbuf, List.length_append]; omega) hfive hrem, hbuf,
      List.take_left, hbytes, ← hfront]
    have hbody := length_publish_body topic payload
    refine congrArg _ (parsePublish_layout [] ?_ hfront.symm ?_ (Nat.lt_succ_of_le hp.1))
    · rw [← hheader]
      rfl
    · rw [← hheader]
      exact hbody
  have hwhole : load buf 0 (Packet.publish topic payload).bytes.length =
      .ok (Packet.publish topic payload).bytes := by
    rw [hbuf]
    exact load_append [] _ tail
  have htopic : load buf (header.headerSize + 2) topic.length = .ok topic := by
    have := load_append (front ++ uint16Be topic.length) topic (payload ++ tail)
    simp only [List.append_assoc, List.length_append, length_uint16Be, hfront] at this
    rw [hbuf, hbytes, lengthPrefixed]
    simp only [List.append_assoc, List.nil_append]
    exact this
  have hpayload : load buf (header.headerSize + 2 + topic.length) payload.length = .ok payload := by
    have := load_append (front ++ (uint16Be topic.length ++ topic)) payload tail
    simp only [List.append_assoc, List.length_append, length_uint16Be, hfront,
      ← Nat.add_assoc] at this
    rw [hbuf, hbytes, lengthPrefixed]
    simp only [List.append_assoc, List.nil_append]
    exact this
  obtain ⟨out, hout⟩ := exists_printed (load_eq_ok.mp htopic).1
  obtain ⟨out', hout'⟩ := exists_printed (load_eq_ok.mp hpayload).1
  have htype : header.type = .publish := by
    rw [← hheader]
    rfl
  -- without a subscription to this topic nothing is written, and nothing changes
  have hsilent : n.rest.broker.kept ≠ some topic → Processed n (.publish topic payload) n :=
    fun hne => ⟨rfl, rfl, hv, rfl, rfl, by rw [answer, if_neg hne, List.append_nil],
      by rw [answer, if_neg hne, Pair.writes, List.foldl_nil]⟩
  unfold brokerProcessPacket
  simp only [htype, hview, hout, hout', htopic, hwhole, run_getBroker_bind,
    Prog.run_ofExcept_ok_bind]
  split
  -- the first `memcmp` compares with a topic of the same length
  · next hsub =>
    have hload : load n.rest.broker.topic 0 topic.length =
        .ok (n.rest.broker.topic.take topic.length) := by
      refine load_eq_ok.mpr ⟨?_, rfl⟩
      rw [hv.topicOwned, hsub.2, Nat.zero_add]
      exact hv.topicLe
    have hkept : n.rest.broker.kept = some (n.rest.broker.topic.take topic.length) := by
      rw [Broker.kept, if_pos hsub.1, hsub.2]
    simp only [hload, Prog.run_ofExcept_ok_bind]
    split
    · next heq =>
      refine ⟨_, rfl, Processed.write hv rfl rfl rfl rfl rfl ?_⟩
      rw [hkept, answer, if_pos (by rw [← heq])]
    · next hne =>
      refine ⟨_, rfl, hsilent fun h => hne ?_⟩
      rw [hkept, Option.some.injEq] at h
      exact h.symm
  -- a topic of another length, or none, is not the one that is kept
  · next hsub =>
    refine ⟨_, rfl, hsilent fun h => hsub ?_⟩
    unfold Broker.kept at h
    split at h
    · next hyes =>
      rw [Option.some.injEq] at h
      refine ⟨hyes, ?_⟩
      rw [← h, List.length_take, hv.topicOwned]
      exact Nat.min_eq_left hv.topicLe
    · cases h

/-- **One packet.** On a packet the client can have sent, the code does not fault and does what the
broker is for. -/
theorem brokerProcessPacket_processed {n : Net (Host τ)} {p : Packet} {buf tail : List UInt8}
    (hp : p.Regular) (hv : n.rest.broker.Valid) (hbuf : buf = p.bytes ++ tail) :
    ∃ n', brokerProcessPacket buf p.fixedHeader p.bytes.length n = .ok (.ok (), n') ∧
      Processed n p n' := by
  cases p with
  | connect clientId keepaliveSec =>
    exact ⟨_, rfl, Processed.write hv rfl rfl rfl rfl rfl rfl⟩
  | subscribe packetId topic => exact brokerProcessPacket_subscribe hp hv hbuf
  | publish topic payload => exact brokerProcessPacket_publish hp hv hbuf
  | pingreq => exact ⟨n, rfl, rfl, rfl, hv, rfl, rfl, (List.append_nil _).symm, rfl⟩

/-! ## A tick -/

/-- The broker has handled the first packets of a stream and holds what else it has read. -/
structure Serves (stream : List Packet) (n : Net (Host τ)) : Prop where
  valid : n.rest.broker.Valid
  account : ∃ handled todo, stream = handled ++ todo ∧
    Virtual.received n.log = handled.flatMap Packet.bytes ++ n.rest.broker.held ∧
    offered n.log = answers none handled ∧ n.rest.broker.kept = handled.foldl keep none

def Broker.drop (b : Broker) (packetLen : Nat) : Broker :=
  { b with
    buf := slide b.buf packetLen (b.bufLen - packetLen)
    bufLen := b.bufLen - packetLen }

theorem Broker.Valid.drop {b : Broker} (h : b.Valid) (packetLen : Nat) :
    (b.drop packetLen).Valid where
  bufOwned := by
    rw [Broker.drop, length_slide (by rw [h.bufOwned]; exact h.bufLe), h.bufOwned]
  topicOwned := h.topicOwned
  bufLe := Nat.le_trans (Nat.sub_le _ _) h.bufLe
  topicLe := h.topicLe

theorem Broker.Valid.held_drop {b : Broker} (h : b.Valid) (packetLen : Nat) :
    (b.drop packetLen).held = b.held.drop packetLen :=
  take_slide (by rw [h.bufOwned]; exact h.bufLe)

theorem Broker.Valid.length_held {b : Broker} (h : b.Valid) : b.held.length = b.bufLen := by
  rw [Broker.held, List.length_take, h.bufOwned]
  exact Nat.min_eq_left h.bufLe

/-- A turn of the loop that handles a packet. -/
theorem brokerTickLoop_turn (fuel : Nat) {n n₁ : Net (Host τ)} {header : FixedHeader}
    (hv : n.rest.broker.Valid) (hne : n.rest.broker.bufLen ≠ 0)
    (hparse : parseHeader n.rest.broker.held = .ok header)
    (hle : header.packetLen ≤ n.rest.broker.bufLen)
    (hrun : brokerProcessPacket n.rest.broker.buf header header.packetLen n = .ok (.ok (), n₁))
    (hbuf : n₁.rest.broker.buf = n.rest.broker.buf)
    (hlen : n₁.rest.broker.bufLen = n.rest.broker.bufLen) :
    brokerTickLoop (fuel + 1) n = brokerTickLoop fuel
      { n₁ with rest := { n₁.rest with broker := n₁.rest.broker.drop header.packetLen } } := by
  have hsub : checkedSub n₁.rest.broker.bufLen header.packetLen =
      .ok (n₁.rest.broker.bufLen - header.packetLen) :=
    checkedSub_eq_ok.mpr ⟨by rw [hlen]; exact hle, rfl⟩
  have hmove : Machine.move n₁.rest.broker.buf 0 header.packetLen
      (n₁.rest.broker.bufLen - header.packetLen) =
      .ok (slide n₁.rest.broker.buf header.packetLen
        (n₁.rest.broker.bufLen - header.packetLen)) := by
    apply move_zero_eq
    have := hv.bufLe
    rw [hbuf, hlen, hv.bufOwned]
    omega
  rw [brokerTickLoop]
  simp only [run_getBroker_bind]
  rw [if_neg hne, decodeFixedHeader_eq (by rw [hv.bufOwned]; exact hv.bufLe)]
  simp only [Prog.run_ofExcept_ok_bind]
  rw [show n.rest.broker.buf.take n.rest.broker.bufLen = n.rest.broker.held from rfl, hparse]
  simp only
  rw [if_neg (Nat.not_lt.mpr hle), Prog.bind_of_ok hrun]
  simp only [run_getBroker_bind, run_setBroker_bind, hsub, Prog.run_ofExcept_ok_bind]
  split
  · simp only [run_getBroker_bind, run_setBroker_bind, hmove, Prog.run_ofExcept_ok_bind]
    rfl
  -- nothing is left, and the source does not move it
  · next hzero =>
    have hnil : n₁.rest.broker.bufLen - header.packetLen = 0 := by omega
    simp only [Broker.drop, hnil, slide_zero_right]

/-- The loop stops at a packet that is not complete. -/
theorem brokerTickLoop_stops (fuel : Nat) {n : Net (Host τ)} {p : Packet}
    (hv : n.rest.broker.Valid) (hp : p.Regular) (hheld : n.rest.broker.held <+: p.bytes)
    (hlt : n.rest.broker.bufLen < p.bytes.length) :
    brokerTickLoop (fuel + 1) n = .ok (.ok (), n) := by
  have hdecode := decodeFixedHeader_eq
    (show n.rest.broker.bufLen ≤ n.rest.broker.buf.length by rw [hv.bufOwned]; exact hv.bufLe)
  rw [show n.rest.broker.buf.take n.rest.broker.bufLen = n.rest.broker.held from rfl] at hdecode
  obtain ⟨more, hmore⟩ := hheld
  have hparse := hp.parseHeader_bytes []
  rw [List.append_nil, ← hmore] at hparse
  rw [brokerTickLoop]
  simp only [run_getBroker_bind]
  split
  · rfl
  · rcases parseHeader_prefix hparse with herr | hok
    · rw [hdecode, herr]
      rfl
    · rw [hdecode, hok]
      simp only [Prog.run_ofExcept_ok_bind]
      rw [if_pos (by rw [hp.packetLen_bytes]; exact hlt)]
      rfl

/-- The broker has handled packets that were at the front of its buffer. -/
structure Handled (n : Net (Host τ)) (done : List Packet) (n' : Net (Host τ)) : Prop where
  valid : n'.rest.broker.Valid
  held : n.rest.broker.held = done.flatMap Packet.bytes ++ n'.rest.broker.held
  kept : n'.rest.broker.kept = done.foldl keep n.rest.broker.kept
  received : Virtual.received n'.log = Virtual.received n.log
  offered : offered n'.log = offered n.log ++ answers n.rest.broker.kept done
  pair : n'.pair = n.pair.writes .b (answers n.rest.broker.kept done)

theorem Handled.nil {n : Net (Host τ)} (hv : n.rest.broker.Valid) : Handled n [] n where
  valid := hv
  held := rfl
  kept := rfl
  received := rfl
  offered := (List.append_nil _).symm
  pair := rfl

/-- A packet is handled and taken off, and then others. -/
theorem Processed.handled {n n₁ n' : Net (Host τ)} {p : Packet} {done : List Packet}
    (h : Processed n p n₁) (hheld : n.rest.broker.held = p.bytes ++
      (n₁.rest.broker.drop p.bytes.length).held)
    (hrest : Handled { n₁ with rest := { n₁.rest with
      broker := n₁.rest.broker.drop p.bytes.length } } done n') : Handled n (p :: done) n' where
  valid := hrest.valid
  held := by
    rw [hheld, List.flatMap_cons, List.append_assoc]
    exact congrArg _ hrest.held
  kept := by
    rw [hrest.kept, List.foldl_cons, ← h.kept]
    rfl
  received := hrest.received.trans h.received
  offered := by
    rw [hrest.offered, answers, ← List.append_assoc, ← h.offered, ← h.kept]
    rfl
  pair := by
    rw [hrest.pair, answers, Pair.writes, Pair.writes, List.foldl_append, ← h.kept]
    exact congrArg (fun s => Pair.writes s .b _) h.pair

/-- **The loop**, on the beginning of packets that the client can have sent: those that are complete
are handled, in order, and the next one is not complete. -/
theorem brokerTickLoop_handles {todo : List Packet} (hreg : ∀ p ∈ todo, p.Regular) {fuel : Nat}
    {n : Net (Host τ)} (hv : n.rest.broker.Valid) (hfuel : n.rest.broker.bufLen < fuel)
    (hheld : n.rest.broker.held <+: todo.flatMap Packet.bytes) :
    ∃ n' done rest, brokerTickLoop fuel n = .ok (.ok (), n') ∧ todo = done ++ rest ∧
      Handled n done n' ∧ ∀ p ∈ rest.head?, n'.rest.broker.bufLen < p.bytes.length := by
  -- the induction follows the packets; the loop's fuel follows it
  induction todo generalizing n fuel with
  | nil =>
    have hnil : n.rest.broker.held = [] := List.prefix_nil.mp hheld
    have hzero : n.rest.broker.bufLen = 0 := by rw [← hv.length_held, hnil, List.length_nil]
    cases fuel with
    | zero => exact absurd hfuel (Nat.not_lt_zero _)
    | succ fuel =>
      refine ⟨n, [], [], ?_, rfl, .nil hv, fun p hp => nomatch hp⟩
      rw [brokerTickLoop, run_getBroker_bind, if_pos hzero]
      rfl
  | cons p todo ih =>
    have hp : p.Regular := hreg p List.mem_cons_self
    rw [List.flatMap_cons] at hheld
    cases fuel with
    | zero => exact absurd hfuel (Nat.not_lt_zero _)
    | succ fuel =>
      by_cases hle : p.bytes.length ≤ n.rest.broker.bufLen
      · -- a whole packet: it is processed, dropped, and the rest follows
        have hlen := hp.packetLen_bytes
        obtain ⟨more, hmore⟩ : p.bytes <+: n.rest.broker.held :=
          List.prefix_of_prefix_length_le (List.prefix_append _ _) hheld
            (by rw [hv.length_held]; exact hle)
        have hbuf : n.rest.broker.buf = p.bytes ++ n.rest.broker.buf.drop p.bytes.length := by
          have hfront : n.rest.broker.buf.take p.bytes.length =
              n.rest.broker.held.take p.bytes.length := by
            rw [Broker.held, List.take_take, Nat.min_eq_left hle]
          conv_lhs => rw [← List.take_append_drop p.bytes.length n.rest.broker.buf]
          rw [hfront, ← hmore, List.take_left]
        obtain ⟨n₁, hrun, hdone⟩ := brokerProcessPacket_processed hp hv hbuf
        have hparse : parseHeader n.rest.broker.held = .ok p.fixedHeader := by
          rw [← hmore]
          exact hp.parseHeader_bytes more
        have hpos := two_le_packetLen hparse
        have hturn := brokerTickLoop_turn fuel hv (by omega) hparse (hlen ▸ hle)
          (hlen ▸ hrun) hdone.buf hdone.bufLen
        rw [hlen] at hturn hpos
        have hheld₁ : n₁.rest.broker.held = n.rest.broker.held := by
          rw [Broker.held, hdone.buf, hdone.bufLen]
          rfl
        have hdrop : (n₁.rest.broker.drop p.bytes.length).held = more := by
          rw [hdone.valid.held_drop, hheld₁, ← hmore, List.drop_left]
        have hfuel' : n₁.rest.broker.bufLen - p.bytes.length < fuel := by
          rw [hdone.bufLen]
          omega
        have hpre : (n₁.rest.broker.drop p.bytes.length).held <+: todo.flatMap Packet.bytes := by
          rw [hdrop]
          rw [← hmore] at hheld
          exact (List.prefix_append_right_inj _).mp hheld
        obtain ⟨n', done, rest, hrest, hsplit, hhandled, hhead⟩ := ih
          (fun q hq => hreg q (List.mem_cons_of_mem p hq))
          (n := { n₁ with rest := { n₁.rest with broker := n₁.rest.broker.drop p.bytes.length } })
          (hdone.valid.drop _) hfuel' hpre
        refine ⟨n', p :: done, rest, hturn.trans hrest, congrArg _ hsplit, ?_, hhead⟩
        exact hdone.handled (by rw [hdrop, hmore]) hhandled
      · -- the packet at the front is not complete
        have hlt := Nat.lt_of_not_le hle
        have hpre : n.rest.broker.held <+: p.bytes :=
          List.prefix_of_prefix_length_le hheld (List.prefix_append _ _)
            (by rw [hv.length_held]; exact Nat.le_of_lt hlt)
        refine ⟨n, [], p :: todo, brokerTickLoop_stops fuel hv hp hpre hlt, rfl, .nil hv, ?_⟩
        intro q hq
        cases hq
        exact hlt

/-- Handling more of the stream. -/
theorem Serves.handles {stream handled todo done rest : List Packet} {n n' : Net (Host τ)}
    (hsplit : stream = handled ++ todo) (hmore : todo = done ++ rest)
    (hreceived : Virtual.received n.log = handled.flatMap Packet.bytes ++ n.rest.broker.held)
    (hoffered : offered n.log = answers none handled)
    (hkept : n.rest.broker.kept = handled.foldl keep none) (h : Handled n done n') :
    Serves stream n' := by
  refine ⟨h.valid, handled ++ done, rest, ?_, ?_, ?_, ?_⟩
  · rw [hsplit, hmore, List.append_assoc]
  · rw [h.received, hreceived, h.held, List.flatMap_append, List.append_assoc]
  · rw [h.offered, hoffered, hkept, answers_append]
  · rw [h.kept, hkept, List.foldl_append]

/-- What is left to the loop once a tick has read. -/
def afterPeerRead (n : Net (Host τ)) (b : Broker) : Net (Host τ) where
  pair := (n.pair.read .b (bufSize - n.rest.broker.bufLen)).2
  log := n.log ++ [.read (bufSize - n.rest.broker.bufLen)
    (n.pair.read .b (bufSize - n.rest.broker.bufLen)).1]
  rest := ⟨b, n.rest.user⟩

/-- A tick puts what it reads behind what it holds. The loop follows, if the read has not failed. -/
theorem brokerTick_eq {n : Net (Host τ)} (hv : n.rest.broker.Valid) :
    ∃ b : Broker, b.Valid ∧ b.kept = n.rest.broker.kept ∧
      b.held = n.rest.broker.held ++ (n.pair.read .b (bufSize - n.rest.broker.bufLen)).1.data ∧
      brokerTick n =
        if HardError (n.pair.read .b (bufSize - n.rest.broker.bufLen)).1.status then
          .ok (.ok (), afterPeerRead n b)
        else brokerTickLoop (b.bufLen + 1) (afterPeerRead n b) := by
  unfold afterPeerRead
  generalize hb : n.rest.broker = b at hv
  have hroom : checkedSub bufSize b.bufLen = .ok (bufSize - b.bufLen) :=
    checkedSub_eq_ok.mpr ⟨hv.bufLe, rfl⟩
  -- the pair gives no more than was asked for
  obtain ⟨hdata, htaken, -⟩ := n.pair.read_conserves .b (bufSize - b.bufLen)
  have hread := peerRead_eq n (bufSize - b.bufLen)
  generalize n.pair.read .b (bufSize - b.bufLen) = out at hdata htaken hread
  obtain ⟨result, pair⟩ := out
  simp only at hdata htaken hread
  have hfits : b.bufLen + result.data.length ≤ 256 := by
    have hle : b.bufLen ≤ 256 := hv.bufLe
    have hroom : result.data.length ≤ 256 - b.bufLen := hdata
    omega
  obtain ⟨buf, hstore⟩ := exists_store b.buf b.bufLen result.data (hv.bufOwned ▸ hfits)
  have hlen : sizeAdd b.bufLen result.data.length = b.bufLen + result.data.length :=
    sizeAdd_of_lt (by omega)
  have howned : buf.length = bufSize := (length_of_store hstore).trans hv.bufOwned
  unfold brokerTick
  simp only [run_getBroker_bind, hb, hroom, Prog.run_ofExcept_ok_bind, Prog.bind_of_ok hread,
    hstore, run_setBroker_bind]
  by_cases hhard : HardError result.status
  · -- a read that failed has brought nothing
    have hnone : result.data = [] := by
      rw [← htaken]
      exact if_neg hhard.1
    refine ⟨{ b with buf := buf }, ⟨howned, hv.topicOwned, hv.bufLe, hv.topicLe⟩, rfl, ?_, ?_⟩
    · rw [hnone, List.append_nil]
      exact take_of_store_le hstore (Nat.le_refl b.bufLen)
    · rw [if_pos hhard, if_pos hhard]
      rfl
  · refine ⟨{ b with buf := buf, bufLen := b.bufLen + result.data.length },
      ⟨howned, hv.topicOwned, hfits, hv.topicLe⟩, rfl, take_of_store hstore, ?_⟩
    rw [if_neg hhard, if_neg hhard]
    simp only [run_setBroker_bind, hlen]

/-- **A tick.** If what the client's transport has taken is the beginning of a stream of packets
within the limits of the format, the broker does not fault and has handled the first packets of that
stream. -/
theorem brokerTick_serves {stream : List Packet} (hreg : ∀ p ∈ stream, p.Regular)
    {n : Net (Host τ)} (hn : Serves stream n)
    (hstream : Virtual.received n.log ++ n.pair.stored .aToB <+: stream.flatMap Packet.bytes) :
    ∃ n', brokerTick n = .ok (.ok (), n') ∧ Serves stream n' := by
  obtain ⟨hv, handled, todo, hsplit, hreceived, hoffered, hkept⟩ := hn
  obtain ⟨b, hvb, hkeptb, hheldb, htick⟩ := brokerTick_eq hv
  obtain ⟨-, -, hstored⟩ := n.pair.read_conserves .b (bufSize - n.rest.broker.bufLen)
  have hgot : Virtual.received (afterPeerRead n b).log =
      handled.flatMap Packet.bytes ++ b.held := by
    rw [hheldb, ← List.append_assoc, ← hreceived]
    exact (Virtual.received_append _ _).trans (congrArg _ (List.append_nil _))
  have hput : offered (afterPeerRead n b).log = answers none handled := by
    rw [← hoffered]
    exact (offered_append _ _).trans (List.append_nil _)
  have hkept' : b.kept = handled.foldl keep none := hkeptb.trans hkept
  rw [htick]
  split
  · exact ⟨_, rfl, hvb, handled, todo, hsplit, hgot, hput, hkept'⟩
  · have hpre : b.held <+: todo.flatMap Packet.bytes := by
      -- held and read are the beginning of what is yet to be handled
      have hA := hstored .aToB
      rw [if_pos (by decide)] at hA
      rw [hA, hreceived, hsplit, List.flatMap_append, List.append_assoc, ← List.append_assoc _ _
        (Pair.stored _ _), ← hheldb, List.prefix_append_right_inj] at hstream
      exact (List.prefix_append _ _).trans hstream
    have hregular : ∀ p ∈ todo, p.Regular := fun p hp =>
      hreg p (hsplit ▸ List.mem_append_right handled hp)
    obtain ⟨n', done, rest, hrun, hmore, hhandled, -⟩ :=
      brokerTickLoop_handles hregular (n := afterPeerRead n b) hvb (Nat.lt_succ_self _) hpre
    exact ⟨n', hrun, .handles hsplit hmore hgot hput hkept' hhandled⟩

/-! ### What a tick keeps

The broker reaches the pair by reading and writing only. -/

section

variable {J : Net (Host τ) → Prop}

theorem getBroker_keeps : Prog.Keeps J (getBroker : BrokerM τ Broker) := by
  intro n hn r n' h
  cases h
  exact hn

variable (hset : ∀ n b, J n → J { n with rest := { n.rest with broker := b } })

include hset

theorem setBroker_keeps (b : Broker) : Prog.Keeps J (setBroker b : BrokerM τ Unit) := by
  intro n hn r n' h
  cases h
  exact hset n b hn

variable (hwrite : ∀ data, Prog.Keeps J (peerWrite data))

include hwrite

theorem brokerProcessPacket_keeps (buf : List UInt8) (header : FixedHeader) (packetLen : Nat) :
    Prog.Keeps J (brokerProcessPacket buf header packetLen) := by
  have hput : ∀ data, Prog.Keeps J (peerWrite data >>= fun _ => pure () : BrokerM τ Unit) :=
    fun data => (hwrite data).bind fun _ => Prog.keeps_pure _
  have hprint : ∀ off len data, Prog.Keeps J (Prog.ofExcept (printed buf off len) >>= fun _ =>
      peerWrite data >>= fun _ => pure () : BrokerM τ Unit) := fun off len data =>
    (Prog.keeps_ofExcept _).bind fun _ => hput data
  unfold brokerProcessPacket
  cases header.type with
  | connect => exact hput connack
  | subscribe =>
    apply (Prog.keeps_ofExcept _).bind
    intro hi
    apply (Prog.keeps_ofExcept _).bind
    intro lo
    apply (Prog.keeps_ofExcept _).bind
    intro hi'
    apply (Prog.keeps_ofExcept _).bind
    intro lo'
    -- the topic is kept if it fits, the SUBACK goes out in both cases
    apply Prog.Keeps.ite
    · apply getBroker_keeps.bind
      intro b
      apply (Prog.keeps_ofExcept _).bind
      intro data
      apply (Prog.keeps_ofExcept _).bind
      intro topic
      exact (setBroker_keeps hset _).bind fun _ => hprint _ _ _
    · exact hprint _ _ _
  | publish =>
    apply (Prog.keeps_ofExcept _).bind
    intro decoded
    cases decoded with
    | error status => exact Prog.keeps_pure _
    | ok view =>
      apply (Prog.keeps_ofExcept _).bind
      intro _
      apply (Prog.keeps_ofExcept _).bind
      intro _
      apply getBroker_keeps.bind
      intro b
      -- echoed only on the topic kept
      apply Prog.Keeps.ite
      · apply (Prog.keeps_ofExcept _).bind
        intro topic
        apply (Prog.keeps_ofExcept _).bind
        intro kept
        apply Prog.Keeps.ite
        · exact (Prog.keeps_ofExcept _).bind fun data => hput data
        · exact Prog.keeps_pure _
      · exact Prog.keeps_pure _
  | _ => exact Prog.keeps_pure _

theorem brokerTickLoop_keeps (fuel : Nat) : Prog.Keeps J (brokerTickLoop fuel) := by
  induction fuel with
  | zero => exact Prog.keeps_ofExcept _
  | succ fuel ih =>
    apply getBroker_keeps.bind
    intro b
    apply Prog.Keeps.ite
    · exact Prog.keeps_pure _
    · apply (Prog.keeps_ofExcept _).bind
      intro decoded
      cases decoded with
      | error status => exact Prog.keeps_pure _
      | ok header =>
        apply Prog.Keeps.ite
        · exact Prog.keeps_pure _
        · apply (brokerProcessPacket_keeps hset hwrite _ _ _).bind
          intro _
          apply getBroker_keeps.bind
          intro b
          apply (Prog.keeps_ofExcept _).bind
          intro left
          apply (setBroker_keeps hset _).bind
          intro _
          apply Prog.Keeps.ite
          · apply getBroker_keeps.bind
            intro b
            apply (Prog.keeps_ofExcept _).bind
            intro buf
            exact (setBroker_keeps hset _).bind fun _ => ih
          · exact ih

theorem brokerTick_keeps (hread : ∀ len, Prog.Keeps J (peerRead len)) :
    Prog.Keeps J brokerTick := by
  apply getBroker_keeps.bind
  intro b
  apply (Prog.keeps_ofExcept _).bind
  intro room
  apply (hread _).bind
  intro result
  apply (Prog.keeps_ofExcept _).bind
  intro buf
  apply (setBroker_keeps hset _).bind
  intro _
  apply Prog.Keeps.ite
  · exact Prog.keeps_pure _
  · exact (setBroker_keeps hset _).bind fun _ => brokerTickLoop_keeps hset hwrite _

end

end Demo

end Aemlib
