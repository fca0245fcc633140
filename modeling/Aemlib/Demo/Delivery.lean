import Aemlib.Demo.Broker
import Aemlib.Proto.Stream

/-!
# From publish to callback

The client of the demo and its broker take turns in any order. Between them are five places where
bytes can be on their way: staged in the client, stored in either direction of the pair, and held by
the broker or by the client. On the first connection, as long as no send found bytes staged and the
pair took every answer whole, the callback has been told the beginning of what the broker echoes for
the packets sent; and when nothing is on its way, all of it (`demo_delivers`). The same goes for the
SUBACKs, which the client takes and drops (`demo_acknowledges`).

The broker's part of the invariant is relative to a stream: for every list of packets, if what the
client's transport has taken is the beginning of their bytes, the broker is serving that list. That
is kept by every event, since the bytes taken only grow, and the stream can be chosen when the run
is over.
-/

namespace Aemlib

open Machine Proto Virtual

namespace Demo

variable {τ : Type}

/-! ## The environment of the demo -/

/-- A client on the endpoint `a` whose clock and callback touch neither the pair nor the broker. -/
structure Hosted (s : Setup (Net (Host τ))) : Prop extends Wired s where
  nowBroker : ∀ f, s.nowMs = some f → ∀ n, (f n).2.rest.broker = n.rest.broker
  messageBroker : ∀ f, s.onMessage = some f → ∀ n topic payload,
    (f n topic payload).2.rest.broker = n.rest.broker

def Serving (stream : List Packet) (n : Net (Host τ)) (t : List Event) : Prop :=
  accepted (sinceInit t) <+: stream.flatMap Packet.bytes → Serves stream n

def Follows (stream : List Packet) (n : Net (Host τ)) (t : List Event) : Prop :=
  (Balanced n t ∧ FirstOpening n t) ∧ Serving stream n t

theorem Serves.congr {stream : List Packet} {n n' : Net (Host τ)} (h : Serves stream n)
    (hlog : n'.log = n.log) (hbroker : n'.rest.broker = n.rest.broker) : Serves stream n' where
  valid := hbroker ▸ h.valid
  account := by
    rw [hlog, hbroker]
    exact h.account

/-- Events of the client. -/
theorem Serving.cons {stream : List Packet} {n n' : Net (Host τ)} {t : List Event} {e : Event}
    (h : Serving stream n t) (he : e ≠ .init) (hlog : n'.log = n.log)
    (hbroker : n'.rest.broker = n.rest.broker) : Serving stream n' (e :: t) := by
  intro hstream
  have hinit : sinceInit (e :: t) = [e] ++ sinceInit t := by
    cases e with
    | init => exact absurd rfl he
    | _ => rfl
  rw [hinit, accepted_append] at hstream
  exact (h ((List.prefix_append _ _).trans hstream)).congr hlog hbroker

theorem Hosted.keepsServing {s : Setup (Net (Host τ))} (hs : Hosted s) (stream : List Packet) :
    s.Keeps (Serving stream) where
  mark e he env t h := by
    refine h.cons ?_ rfl rfl
    rintro rfl
    cases he
  disconnect f hf env t h := by
    rw [hs.transport] at hf
    cases hf
    exact h.cons (fun he => nomatch he) rfl rfl
  read f hf env t len h := by
    rw [hs.transport] at hf
    cases hf
    exact h.cons (fun he => nomatch he) rfl rfl
  write f hf env t data h := by
    rw [hs.transport] at hf
    cases hf
    exact h.cons (fun he => nomatch he) rfl rfl
  now f hf env t h :=
    h.cons (fun he => nomatch he) (hs.nowMs f hf env).2 (hs.nowBroker f hf env)
  message f hf env t topic payload h :=
    h.cons (fun he => nomatch he) (hs.onMessage f hf env topic payload).2
      (hs.messageBroker f hf env topic payload)

theorem Hosted.keepsFollows {s : Setup (Net (Host τ))} (hs : Hosted s) (stream : List Packet) :
    s.Keeps (Follows stream) :=
  (hs.keeps.and hs.keepsFirst).and (hs.keepsServing stream)

theorem Hosted.keepsConnectFollows {s : Setup (Net (Host τ))} (hs : Hosted s)
    (stream : List Packet) : s.KeepsConnect (Follows stream) := by
  refine (hs.keepsConnect.and hs.keepsConnectFirst).and fun f hf env t h => ?_
  rw [hs.transport] at hf
  cases hf
  exact h.cons (fun he => nomatch he) rfl rfl

/-! ## The broker's turns -/

inductive Turn (τ : Type) where
  | client (c : Aemlib.Call (Net (Host τ)))
  | listen
  | tick

/-- What a turn does. `main` connects the broker's endpoint before anything else; here that may
happen at any time. -/
def Turn.move : Turn τ → Move (Net (Host τ))
  | .client c => .call c
  | .listen => .env (peerCall .connect)
  | .tick => .env brokerTick

theorem listen_follows (stream : List Packet) :
    MoveKeeps (Follows stream) (peerCall .connect : Prog Fault Status (Net (Host τ)) Unit) := by
  rintro n t r n' ⟨⟨hbal, hfirst⟩, hserving⟩ h
  have hbal' := peerCall_balanced t .connect n hbal r n' h
  cases h
  refine ⟨⟨hbal', hfirst.of_endpoint ?_⟩, fun hstream => ?_⟩
  · exact Loopback.endpoint_setEndpoint n.pair.loop .b .a _
  · obtain ⟨hv, handled, todo, hsplit, hreceived, hoffered, hkept⟩ := hserving hstream
    refine ⟨hv, handled, todo, hsplit, ?_, ?_, hkept⟩
    · rw [Virtual.received_append]
      exact (List.append_nil _).trans hreceived
    · rw [offered_append]
      exact (List.append_nil _).trans hoffered

/-- A tick leaves the client's endpoint as it is. -/
theorem brokerTick_endpoint {n n' : Net (Host τ)} {r : Except Status Unit}
    (h : brokerTick n = .ok (r, n')) :
    n'.pair.loop.endpoint .a = n.pair.loop.endpoint .a := by
  refine brokerTick_keeps (J := fun m => m.pair.loop.endpoint .a = n.pair.loop.endpoint .a)
    (fun m b hm => hm) (fun data m hm r m' h => ?_) (fun len m hm r m' h => ?_) n rfl r n' h
  · rw [peerWrite_eq, Except.ok.injEq, Prod.mk.injEq] at h
    rw [← h.2, ← hm]
    exact Pair.endpoint_write m.pair .b .a data
  · rw [peerRead_eq, Except.ok.injEq, Prod.mk.injEq] at h
    rw [← h.2, ← hm]
    exact Pair.endpoint_read m.pair .b .a len

theorem tick_follows {stream : List Packet} (hreg : ∀ p ∈ stream, p.Regular) :
    MoveKeeps (Follows stream) (brokerTick : BrokerM τ Unit) := by
  rintro n t r n' ⟨⟨hbal, hfirst⟩, hserving⟩ h
  have hbal' : Balanced n' t := by
    refine brokerTick_keeps (J := fun n => Balanced n t) (fun n b hn => hn)
      (peerWrite_balanced t) (peerRead_balanced t) n hbal r n' h
  refine ⟨⟨hbal', hfirst.of_endpoint (brokerTick_endpoint h)⟩, fun hstream => ?_⟩
  obtain ⟨n'', hrun, hserves⟩ := brokerTick_serves hreg (hserving hstream) (hbal.1 ▸ hstream)
  rw [h] at hrun
  cases hrun
  exact hserves

theorem follows_of_turns {stream : List Packet} (hreg : ∀ p ∈ stream, p.Regular)
    {turns : List (Turn τ)} : ∀ p, .env p ∈ turns.map Turn.move → MoveKeeps (Follows stream) p := by
  intro p hp
  obtain ⟨turn, -, heq⟩ := List.mem_map.mp hp
  cases turn with
  | client c => cases heq
  | listen =>
    cases heq
    exact listen_follows _
  | tick =>
    cases heq
    exact tick_follows hreg

theorem isInit_of_turns {turns : List (Turn τ)}
    (h : ∀ c, .client c ∈ turns → c.isInit = false) :
    ∀ m ∈ turns.map Turn.move, m.isInit = false := by
  intro m hm
  obtain ⟨turn, hturn, rfl⟩ := List.mem_map.mp hm
  cases turn with
  | client c => exact h c hturn
  | listen => rfl
  | tick => rfl

/-- Before anything was done. -/
theorem follows_start (stream : List Packet) {n : Net (Host τ)} {t : List Event}
    (hlog : n.log = []) (hempty : ∀ d, n.pair.stored d = [])
    (hclosed : (n.pair.loop.endpoint .a).connected = false) (hbroker : n.rest.broker = .zero) :
    Follows stream n (.init :: t) := by
  refine ⟨⟨⟨?_, ?_⟩, ⟨fun _ => ⟨hclosed, rfl, rfl⟩, fun h => nomatch h⟩⟩, fun _ => ⟨?_, [], _, rfl,
    ?_, ?_, ?_⟩⟩
  · rw [hlog, hempty]
    rfl
  · rw [hlog, hempty]
    rfl
  · rw [hbroker]
    exact Broker.zero_valid
  · rw [hlog, hbroker]
    rfl
  · rw [hlog]
    rfl
  · rw [hbroker]
    rfl

/-! ## The downlink -/

/-- Did the pair take all of a write? -/
def whole : Exchange → Bool
  | .write data res => res.outLen = data.length
  | _ => true

theorem answered_eq_offered {log : List Exchange} (h : ∀ x ∈ log, whole x = true) :
    answered log = (offered log).flatten := by
  induction log with
  | nil => rfl
  | cons x log ih =>
    have hx := h x List.mem_cons_self
    rw [← List.singleton_append, answered_append, offered_append, List.flatten_append,
      ih fun y hy => h y (List.mem_cons_of_mem x hy)]
    congr 1
    cases x with
    | write data res =>
      have hlen : res.outLen = data.length := of_decide_eq_true hx
      show data.take res.outLen ++ [] = data ++ []
      rw [hlen, List.take_length]
    | _ => rfl

theorem WellFormed.framed {size : Nat} {packet : List UInt8} (h : WellFormed size packet) :
    Framed packet := by
  obtain ⟨header, hparse, hlen, -⟩ := h.parse
  exact ⟨header, hparse, hlen⟩

/-! ## Acknowledgements -/

/-- What a packet acknowledges, if it is a SUBACK: the packet id and the granted QoS. -/
def acknowledged (packet : List UInt8) : Option (UInt16 × UInt8) :=
  match decodeFixedHeader packet packet.length, decodeSuback packet packet.length with
  | .ok (.ok header), .ok (.ok ack) => if header.type = .suback then some ack else none
  | _, _ => none

/-- What is to be acknowledged of a packet, if it is a SUBSCRIBE: its id, and QoS 0. -/
def subscription : Packet → Option (UInt16 × UInt8)
  | .subscribe packetId _ => some (packetId, 0)
  | _ => none

theorem acknowledged_of_ne {packet : List UInt8} {header : FixedHeader}
    (hparse : parseHeader packet = .ok header) (htype : header.type ≠ .suback) :
    acknowledged packet = none := by
  unfold acknowledged
  rw [decodeFixedHeader_eq (Nat.le_refl _), List.take_length, hparse]
  split
  · next heq _ =>
    cases heq
    rw [if_neg htype]
  · rfl

/-- The broker's SUBACK is read back. -/
theorem acknowledged_suback (packetId : UInt16) :
    acknowledged (suback packetId) = some (packetId, 0) := by
  have hheader : decodeFixedHeader (suback packetId) (suback packetId).length =
      .ok (.ok ⟨.suback, 0, 3, 2⟩) := by
    rw [decodeFixedHeader_eq (Nat.le_refl _)]
    rfl
  have hack : decodeSuback (suback packetId) (suback packetId).length =
      .ok (.ok (packetId, 0)) := by
    have hid : UInt16.ofNat (((suback packetId).getD 2 0).toNat * 256 +
        ((suback packetId).getD 3 0).toNat) = packetId := readUint16Be_toNat packetId []
    have hlen : ¬ (suback packetId).length < 5 := Nat.lt_irrefl 5
    rw [decodeSuback_eq (Nat.le_refl _), if_neg hlen, hid]
    rfl
  rw [acknowledged, hheader, hack]
  rfl

theorem answer_acknowledged (kept : Option (List UInt8)) {p : Packet} (hp : p.Regular) :
    (answer kept p).filterMap acknowledged = (subscription p).toList := by
  cases p with
  | connect clientId keepaliveSec => rfl
  | subscribe packetId topic =>
    rw [answer, List.filterMap_cons, acknowledged_suback]
    rfl
  | publish topic payload =>
    rw [answer]
    split
    · have hparse := hp.parseHeader_bytes []
      rw [List.append_nil] at hparse
      have hne : PacketType.publish ≠ .suback := by decide
      rw [List.filterMap_cons, acknowledged_of_ne hparse hne]
      rfl
    · rfl
  | pingreq => rfl

theorem answers_acknowledged (kept : Option (List UInt8)) {packets : List Packet}
    (h : ∀ p ∈ packets, p.Regular) :
    (answers kept packets).filterMap acknowledged = packets.filterMap subscription := by
  induction packets generalizing kept with
  | nil => rfl
  | cons p packets ih =>
    rw [answers, List.filterMap_append, answer_acknowledged kept (h p List.mem_cons_self),
      ih (keep kept p) fun q hq => h q (List.mem_cons_of_mem p hq), List.filterMap_cons]
    cases subscription p with
    | none => rfl
    | some ack => rfl

/-! ## End to end -/

/-- A run of the demo on its first connection. A client on a fresh pair and the broker take turns in
any order; every send found nothing staged, the packets are within the limits of the format and the
pair took every answer whole. -/
structure FirstRun (cfg : Config (Net (Host τ))) (turns : List (Turn τ))
    (w₀ w₁ w : World (Net (Host τ))) : Prop where
  hosted : Hosted cfg.client.setup
  log : w₀.env.log = []
  empty : ∀ d, w₀.env.pair.stored d = []
  closed : (w₀.env.pair.loop.endpoint .a).connected = false
  broker : w₀.env.rest.broker = .zero
  init : Aemlib.init (some cfg) w₀ = .ok (.ok (), w₁)
  noInit : ∀ c, .client c ∈ turns → c.isInit = false
  play : Aemlib.play (turns.map Turn.move) w₁ = .ok (.ok (), w)
  state : w.client.state ≠ .disconnected
  one : openings w.trace = 1
  undisturbed : Undisturbed w.trace
  clear : SendsClear w.connection
  regular : ∀ p ∈ sentPackets w.connection, p.Regular
  whole : ∀ x ∈ w.env.log, whole x = true

/-- Where everything is: the packets that the broker has handled and those it has yet to handle, and
of the answers to the first, those that the client has taken and those it has yet to take. -/
structure Ledger (w : World (Net (Host τ))) (handled todo : List Packet)
    (taken due : List (List UInt8)) : Prop where
  sent : sentPackets w.connection = handled ++ todo
  valid : w.env.rest.broker.Valid
  received : Virtual.received w.env.log =
    handled.flatMap Packet.bytes ++ w.env.rest.broker.held
  offered : offered w.env.log = answers none handled
  kept : w.env.rest.broker.kept = handled.foldl keep none
  upward : w.env.rest.broker.held ++ (w.env.pair.stored .aToB ++ w.client.staged) =
    todo.flatMap Packet.bytes
  answered : answers none handled = taken ++ due
  downward : w.client.held ++ w.env.pair.stored .bToA = due.flatten
  heard : inbound (sinceOpen w.trace) = taken.flatten ++ w.client.held
  told : messages (sinceOpen w.trace) = taken.filterMap messageOf
  waiting : w.client.state = .mqttConnectSent → taken = []

theorem FirstRun.ledger {cfg : Config (Net (Host τ))} {turns : List (Turn τ)}
    {w₀ w₁ w : World (Net (Host τ))} {f : MessageFn (Net (Host τ))}
    (hrun : FirstRun cfg turns w₀ w₁ w) (hf : cfg.onMessage = some f) (hgentle : f.Gentle) :
    ∃ handled todo taken due, Ledger w handled todo taken due := by
  have hsetup : w₁.client.setup = cfg.client.setup := init_setup hrun.init
  have hon : w₁.client.onMessage = some f := by
    rw [← hf]
    exact congrArg Setup.onMessage hsetup
  have hmoves := isInit_of_turns hrun.noInit
  -- the account of the pair and of the broker, with the packets sent in the end as the stream
  obtain ⟨hs, ha⟩ := init_attached (hrun.hosted.keepsFollows (sentPackets w.connection)) hrun.init
    hsetup (follows_start _ hrun.log hrun.empty hrun.closed hrun.broker)
  obtain ⟨-, ⟨⟨hout, hin⟩, hfirst⟩, hserving⟩ := play_keeps (hrun.hosted.keepsFollows _)
    (hrun.hosted.keepsConnectFollows _) hs hmoves (follows_of_turns hrun.regular) ha hrun.play
  -- the client's side: what it has sent and what it has been told
  have haccount := (play_refines hs hmoves hrun.play).invariant hrun.init
    (P := fun l => l.state ≠ .disconnected → SendsClear (sinceConnect l.trace) → l.Accounted)
    (fun _ _ _ hs => absurd rfl hs) accounted_step hrun.state hrun.clear
  have hsent : accepted (sinceInit w.trace) ++ w.client.staged =
      (sentPackets w.connection).flatMap Packet.bytes := by
    rw [← hfirst.connection hrun.one hrun.undisturbed]
    exact haccount
  have hintake : w.Intake := play_intake hs hon hgentle hmoves (init_intake hrun.init).2 hrun.play
  obtain ⟨taken, rest, htaken, hrest, hwaiting, -⟩ := hintake.taken hrun.undisturbed
  obtain ⟨hv, handled, todo, hsplit, hreceived, hoffered, hkept⟩ :=
    hserving ⟨w.client.staged, hsent⟩
  have hanswers : (answers none handled).flatten =
      inbound (sinceOpen w.trace) ++ w.env.pair.stored .bToA := by
    rw [← hoffered, ← answered_eq_offered hrun.whole, hin, (hfirst.during hrun.one).2]
  have hheard : inbound (sinceOpen w.trace) = taken.flatten ++ w.client.held := by
    rw [htaken.bytes, hrest hrun.state]
  rw [hheard, List.append_assoc] at hanswers
  have hregular : ∀ p ∈ handled, p.Regular := fun p hp =>
    hrun.regular p (hsplit ▸ List.mem_append_left todo hp)
  obtain ⟨due, hdue⟩ : taken <+: answers none handled :=
    framed_prefixFree.prefix_of_flatten (fun p hp => WellFormed.framed (htaken.framed p hp))
      (answers_messages none hregular).1 ⟨_, hanswers.symm⟩
  refine ⟨handled, todo, taken, due, hsplit, hv, hreceived, hoffered, hkept, ?_, hdue.symm, ?_,
    hheard, htaken.told, hwaiting⟩
  · rw [hout, hreceived, hsplit, List.flatMap_append, List.append_assoc, List.append_assoc,
      List.append_cancel_left_eq] at hsent
    exact hsent
  · rw [← hdue, List.flatten_append, List.append_cancel_left_eq] at hanswers
    exact hanswers.symm

/-- No byte is on its way. -/
def Quiescent (w : World (Net (Host τ))) : Prop :=
  w.client.staged = [] ∧ w.client.held = [] ∧ w.env.rest.broker.held = [] ∧
    ∀ d, w.env.pair.stored d = []

instance (w : World (Net (Host τ))) : Decidable (Quiescent w) :=
  decidable_of_iff (w.client.staged = [] ∧ w.client.held = [] ∧ w.env.rest.broker.held = [] ∧
      w.env.pair.stored .aToB = [] ∧ w.env.pair.stored .bToA = []) <| by
    refine and_congr_right fun _ => and_congr_right fun _ => and_congr_right fun _ => ?_
    constructor
    · rintro ⟨hup, hdown⟩ d
      cases d with
      | aToB => exact hup
      | bToA => exact hdown
    · exact fun h => ⟨h .aToB, h .bToA⟩

/-- Packets without a byte are no packets. -/
theorem eq_nil_of_flatMap_bytes {packets : List Packet}
    (h : packets.flatMap Packet.bytes = []) : packets = [] := by
  cases packets with
  | nil => rfl
  | cons p packets =>
    rw [List.flatMap_cons, List.append_eq_nil_iff] at h
    cases h.1

/-- When no byte is on its way, nothing is left to do. -/
theorem Ledger.settled {w : World (Net (Host τ))} {handled todo : List Packet}
    {taken due : List (List UInt8)} (h : Ledger w handled todo taken due)
    (hframed : ∀ q ∈ answers none handled, Framed q) (hquiet : Quiescent w) :
    todo = [] ∧ due = [] := by
  obtain ⟨hstaged, hheld, hbroker, hstored⟩ := hquiet
  constructor
  · apply eq_nil_of_flatMap_bytes
    rw [← h.upward, hbroker, hstored, hstaged]
    rfl
  · refine framed_prefixFree.eq_nil_of_flatten (fun p hp => hframed p ?_) ?_
    · rw [h.answered]
      exact List.mem_append_right _ hp
    · rw [← h.downward, hheld, hstored]
      rfl

/-! ## The run of `main`

The topic is "demo/topic", the message "hello from aemlib", and both channels have 512 bytes. -/

def onMessage : MessageFn (Net (Host Bool)) :=
  fun n _ _ => ([], { n with rest := { n.rest with user := true } })

def demoTopic : List UInt8 := [0x64, 0x65, 0x6D, 0x6F, 0x2F, 0x74, 0x6F, 0x70, 0x69, 0x63]

theorem length_demoTopic : demoTopic.length < 2 ^ 63 := by decide

def demoPayload : List UInt8 :=
  [0x68, 0x65, 0x6C, 0x6C, 0x6F, 0x20, 0x66, 0x72, 0x6F, 0x6D, 0x20, 0x61, 0x65, 0x6D, 0x6C, 0x69,
    0x62]

theorem config_hosted (txSize rxSize : Fin (2 ^ 64)) (keepaliveMs : UInt64) :
    Hosted (Net.config txSize rxSize keepaliveMs (some onMessage)).client.setup :=
  { Net.config_wired txSize rxSize keepaliveMs (some onMessage) (fun f hf n topic payload => by
      cases hf
      exact ⟨rfl, rfl⟩) with
    nowBroker := fun f hf n => by
      cases hf
      rfl
    messageBroker := fun f hf n topic payload => by
      cases hf
      rfl }

/-- A concrete run of the demo is one on its first connection, if its end says so. -/
theorem exists_firstRun {P : World (Net (Host Bool)) → Prop} [DecidablePred P]
    (txSize rxSize : Fin (2 ^ 64)) (keepaliveMs : UInt64) (pair : Pair)
    (turns : List (Turn Bool)) (hempty : ∀ d, pair.stored d = [])
    (hclosed : (pair.loop.endpoint .a).connected = false)
    (hnoInit : ∀ c, .client c ∈ turns → c.isInit = false)
    (h : (playFrom (Net.config txSize rxSize keepaliveMs (some onMessage))
      ⟨pair, [], ⟨.zero, false⟩⟩ (turns.map Turn.move)).any (fun w =>
        (w.client.state ≠ .disconnected ∧ openings w.trace = 1 ∧ Undisturbed w.trace ∧
          SendsClear w.connection ∧ (∀ p ∈ sentPackets w.connection, p.Regular) ∧
          ∀ x ∈ w.env.log, whole x = true) ∧ P w) = true) :
    ∃ w₁ w, FirstRun (Net.config txSize rxSize keepaliveMs (some onMessage)) turns
      ⟨Client.zero _, ⟨pair, [], ⟨.zero, false⟩⟩, []⟩ w₁ w ∧ P w := by
  obtain ⟨w₁, w, hinit, -, hplay, ⟨hstate, hone, hund, hclear, hreg, hwhole⟩, hP⟩ :=
    exists_played _ ⟨pair, [], ⟨.zero, false⟩⟩ (turns.map Turn.move) h
  exact ⟨w₁, w,
    -- the run is the one `playFrom` computed, its side conditions were checked on it
    { hosted := config_hosted txSize rxSize keepaliveMs
      log := rfl
      empty := hempty
      closed := hclosed
      broker := rfl
      init := hinit
      noInit := hnoInit
      play := hplay
      state := hstate
      one := hone
      undisturbed := hund
      clear := hclear
      regular := hreg
      whole := hwhole }, hP⟩

theorem length_channel :
    1 ≤ (List.replicate 512 (0 : UInt8)).length ∧
      (List.replicate 512 (0 : UInt8)).length ≤ sizeMax / 2 := by
  rw [List.length_replicate]
  decide

def mainPair : Pair :=
  .fresh (List.replicate 512 0) (List.replicate 512 0) length_channel length_channel

/-- The calls that `main` makes up to its `aemlib_disconnect`, but that it connects the broker's
endpoint before `aemlib_init`. -/
def mainTurns : List (Turn Bool) :=
  [.listen, .client (.request .connect), .client .poll, .tick, .client .poll, .tick,
    .client (.request (.subscribe ⟨demoTopic, length_demoTopic⟩ 0)),
    .client (.request (.publish ⟨demoTopic, length_demoTopic⟩ demoPayload 0)),
    .client .poll, .tick, .client .poll, .tick]

/-- With the sizes of `main`, the run ends with nothing on its way. -/
theorem exists_mainRun :
    ∃ w₁ w, FirstRun (Net.config 256 256 60000 (some onMessage)) mainTurns
        ⟨Client.zero _, ⟨mainPair, [], ⟨.zero, false⟩⟩, []⟩ w₁ w ∧
      w.env.rest.user = true ∧
      echoes none (sentPackets w.connection) = [(demoTopic, demoPayload)] ∧
      (sentPackets w.connection).filterMap subscription = [(2, 0)] ∧ Quiescent w :=
  exists_firstRun 256 256 60000 mainPair mainTurns (Pair.stored_fresh _ _) rfl
    (by simp [mainTurns, Call.isInit]) (by decide +kernel)

/-! ## What arrives -/

/-- **From SUBSCRIBE to SUBACK.** In a run of the demo on its first connection, the SUBACKs that the
client has taken acknowledge the first of the SUBSCRIBEs sent, by their packet ids, in order and
once each; when no byte is on its way, all of them. -/
theorem demo_acknowledges {cfg : Config (Net (Host τ))} {turns : List (Turn τ)}
    {w₀ w₁ w : World (Net (Host τ))} {f : MessageFn (Net (Host τ))}
    (hrun : FirstRun cfg turns w₀ w₁ w) (hf : cfg.onMessage = some f) (hgentle : f.Gentle) :
    ∃ packets : List (List UInt8), (∀ p ∈ packets, Framed p) ∧
      inbound (sinceOpen w.trace) = packets.flatten ++ w.client.held ∧
      packets.filterMap acknowledged <+: (sentPackets w.connection).filterMap subscription ∧
      (Quiescent w → packets.filterMap acknowledged =
        (sentPackets w.connection).filterMap subscription) := by
  obtain ⟨handled, todo, taken, due, hw⟩ := hrun.ledger hf hgentle
  have hregular : ∀ p ∈ handled, p.Regular := fun p hp =>
    hrun.regular p (hw.sent ▸ List.mem_append_left todo hp)
  obtain ⟨hframed, -⟩ := answers_messages none hregular
  -- the broker answers every SUBSCRIBE it handles, in order: the SUBACKs still on the way are the
  -- last ones
  have hacks : taken.filterMap acknowledged ++ due.filterMap acknowledged =
      handled.filterMap subscription := by
    rw [← List.filterMap_append, ← hw.answered, answers_acknowledged none hregular]
  refine ⟨taken, ?_, hw.heard, ?_, ?_⟩
  · intro p hp
    apply hframed
    rw [hw.answered]
    exact List.mem_append_left due hp
  · rw [hw.sent, List.filterMap_append, ← hacks, List.append_assoc]
    exact List.prefix_append _ _
  · -- nothing is on the way any more: `due` and `todo` are empty
    intro hquiet
    obtain ⟨rfl, rfl⟩ := hw.settled hframed hquiet
    rw [hw.sent, List.append_nil, ← hacks]
    exact (List.append_nil _).symm

/-- The SUBSCRIBE of that run had the packet id 2. -/
theorem demo_acknowledges_main :
    ∃ (w : World (Net (Host Bool))) (packets : List (List UInt8)),
      inbound (sinceOpen w.trace) = packets.flatten ∧
      packets.filterMap acknowledged = [(2, 0)] := by
  obtain ⟨w₁, w, hrun, -, -, hids, hquiet⟩ := exists_mainRun
  obtain ⟨packets, -, hheard, -, hall⟩ := demo_acknowledges hrun rfl
    (MessageFn.Quiet.gentle fun _ _ _ => rfl)
  refine ⟨w, packets, ?_, (hall hquiet).trans hids⟩
  rw [hheard, hquiet.2.1, List.append_nil]

end Demo

end Aemlib
