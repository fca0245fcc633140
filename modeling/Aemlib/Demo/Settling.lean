import Aemlib.Demo.Flow
import Aemlib.Machine.Rounds

/-!
# The demo settles

`demo_delivers` says what has been told when no byte is on its way; here the bytes do arrive. A byte
on its way has up to five places ahead of it. A poll or a tick moves some byte on, or finds nothing
to do; and when neither of the two finds anything to do, nothing is on its way. So a measure of what
is on its way falls in every round in which both have a turn (`demo_settles`).

Two sizes matter. The broker and the client read only as much as their buffers can hold, so a packet
that does not fit would stop them for good; and `vt_write` takes what it has room for and
`broker_process_packet` drops the rest, so the answers must fit into the pair.
-/

namespace Aemlib

open Machine Proto Virtual

namespace Demo

variable {τ : Type}

/-! ## The answers -/

/-- An answer is no longer than the packet. -/
theorem length_answer_le (kept : Option (List UInt8)) {p : Packet} (hp : p.Regular) :
    (answer kept p).flatten.length ≤ p.bytes.length := by
  have hlen := hp.length_bytes
  have hheader : 2 ≤ p.fixedHeader.headerSize := by
    obtain ⟨htwo, -⟩ := parseHeader_bounds (hp.parseHeader_bytes [])
    exact htwo
  -- CONNACK has 4 bytes and SUBACK has 5; a message goes back as it came
  cases p with
  | connect clientId keepaliveSec =>
    rw [length_connect_body] at hlen
    show 4 ≤ _
    omega
  | subscribe packetId topic =>
    rw [length_subscribe_body] at hlen
    show 5 ≤ _
    omega
  | publish topic payload =>
    rw [answer]
    split
    · rw [List.flatten_singleton]
    · exact Nat.zero_le _
  | pingreq => exact Nat.zero_le _

theorem length_answers_le (kept : Option (List UInt8)) {packets : List Packet}
    (h : ∀ p ∈ packets, p.Regular) :
    (answers kept packets).flatten.length ≤ (packets.flatMap Packet.bytes).length := by
  induction packets generalizing kept with
  | nil => exact Nat.le_refl _
  | cons p packets ih =>
    have hfirst := length_answer_le kept (h p List.mem_cons_self)
    have hrest := ih (keep kept p) fun q hq => h q (List.mem_cons_of_mem p hq)
    rw [answers, List.flatten_append, List.length_append, List.flatMap_cons, List.length_append]
    omega

theorem length_bytes_pos (p : Packet) : 0 < p.bytes.length := by
  rw [Packet.bytes]
  exact Nat.succ_pos _

/-- What the client makes of an answer: a packet it accepts, if it has room for it. -/
theorem answer_wellFormed {size : Nat} (kept : Option (List UInt8)) {p : Packet} (hp : p.Regular)
    (hsize : p.bytes.length ≤ size) : ∀ q ∈ answer kept p, WellFormed size q := by
  have hle := length_answer_le kept hp
  intro q hq
  have hdecode : ∀ {header : FixedHeader}, parseHeader q = .ok header →
      decodeFixedHeader q q.length = .ok (.ok header) := by
    intro header hparse
    rw [decodeFixedHeader_eq (Nat.le_refl _), List.take_length, hparse]
  cases p with
  | connect clientId keepaliveSec =>
    cases List.mem_singleton.mp hq
    exact ⟨⟨.connack, 0, 2, 2⟩, hdecode rfl, rfl, Nat.le_trans hle hsize, fun h => nomatch h⟩
  | subscribe packetId topic =>
    cases List.mem_singleton.mp hq
    exact ⟨⟨.suback, 0, 3, 2⟩, hdecode rfl, rfl, Nat.le_trans hle hsize, fun h => nomatch h⟩
  | publish topic payload =>
    rw [answer] at hq
    split at hq
    · cases List.mem_singleton.mp hq
      -- what is echoed are the bytes the client itself has sent, and they parse
      obtain ⟨header, view, hparse, htype, hlen, -, hview, -⟩ :=
        parse_publish_bytes [] hp.1 hp.2
      rw [List.append_nil] at hparse hview
      obtain ⟨-, hfive, -, hrem⟩ := parseHeader_bounds hparse
      refine ⟨header, hdecode hparse, ?_, hsize, fun _ => ⟨view, ?_⟩⟩
      · have hfull := hp.parseHeader_bytes []
        rw [List.append_nil, hparse, Except.ok.injEq] at hfull
        rw [hfull, hp.packetLen_bytes]
      · rw [decodePublish_eq (Nat.le_refl _) hfive hrem, List.take_length, hview]
    · cases hq
  | pingreq => cases hq

theorem answers_wellFormed {size : Nat} (kept : Option (List UInt8)) {packets : List Packet}
    (h : ∀ p ∈ packets, p.Regular ∧ p.bytes.length ≤ size) :
    ∀ q ∈ answers kept packets, WellFormed size q := by
  induction packets generalizing kept with
  | nil => exact fun q hq => nomatch hq
  | cons p packets ih =>
    intro q hq
    rcases List.mem_append.mp hq with hq | hq
    · obtain ⟨hp, hle⟩ := h p List.mem_cons_self
      exact answer_wellFormed kept hp hle q hq
    · exact ih (keep kept p) (fun p' hp' => h p' (List.mem_cons_of_mem p hp')) q hq

/-! ## What is on its way -/

/-- The bytes on their way, by where they are: staged in the client, stored by the pair, held by the
broker; stored by the pair and held by the client. -/
structure Transit where
  staged : List UInt8
  up : List UInt8
  broker : List UInt8
  down : List UInt8
  held : List UInt8

def transit (w : World (Net (Host τ))) : Transit where
  staged := w.client.staged
  up := w.env.pair.stored .aToB
  broker := w.env.rest.broker.held
  down := w.env.pair.stored .bToA
  held := w.client.held

/-- A byte counts the more, the more it has ahead of it. An answer counts less than its packet. -/
def Transit.rank (v : Transit) : Nat :=
  5 * v.staged.length + 4 * v.up.length + 3 * v.broker.length + 2 * v.down.length + v.held.length

inductive Beat where
  | poll
  | tick
  deriving DecidableEq, Repr

def Beat.turn : Beat → Turn τ
  | .poll => .client .poll
  | .tick => .tick

/-- When a turn finds nothing to do. -/
def Stuck : Beat → Transit → Prop
  | .poll, v => (v.staged = [] ∨ v.up ≠ []) ∧ v.down = [] ∧ v.held = []
  | .tick, v => v.up = [] ∧ (v.staged = [] → v.broker = [])

/-- If both find nothing to do, there is nothing. -/
theorem rank_of_stuck {v : Transit} (hpoll : Stuck .poll v) (htick : Stuck .tick v) :
    v.rank = 0 := by
  obtain ⟨hstaged, hdown, hheld⟩ := hpoll
  obtain ⟨hup, hbroker⟩ := htick
  have hnone : v.staged = [] := hstaged.resolve_right fun h => h hup
  rw [Transit.rank, hnone, hup, hbroker hnone, hdown, hheld]
  rfl

/-! ## Settling -/

/-- The client and the broker with nothing but deliveries to make: packets on their way up that the
broker has yet to handle, and packets on their way down that the client has yet to take. -/
structure Settling (s : Setup (Net (Host τ))) (now : UInt64) (past : List Event)
    (msgs : List (List UInt8 × List UInt8)) (w : World (Net (Host τ))) : Prop where
  sound : w.client.Sound
  setup : w.client.setup = s
  openA : (w.env.pair.loop.endpoint .a).connected = true
  openB : (w.env.pair.loop.endpoint .b).connected = true
  early : Early s now w.client.lastActivityMs
  room : 1 ≤ w.env.pair.capacity .aToB
  valid : w.env.rest.broker.Valid
  flow : ∃ todo due feed, feed = due ++ answers w.env.rest.broker.kept todo ∧
    (∀ p ∈ todo, p.Regular ∧ p.bytes.length ≤ bufSize) ∧
    w.env.rest.broker.held ++ (w.env.pair.stored .aToB ++ w.client.staged) =
      todo.flatMap Packet.bytes ∧
    w.client.held ++ w.env.pair.stored .bToA = due.flatten ∧
    (∀ p ∈ feed, WellFormed s.rxBufferSize p) ∧
    feed.flatten.length ≤ w.env.pair.capacity .bToA ∧ Greeted feed w.client ∧
    ∃ t, w.trace = t ++ past ∧ messages t ++ feed.filterMap messageOf = msgs

section

variable {s : Setup (Net (Host τ))} {now : UInt64} {past : List Event}
  {msgs : List (List UInt8 × List UInt8)} {w : World (Net (Host τ))}

/-- A poll lowers the rank or finds nothing to do. -/
theorem Flows.advances {w' : World (Net (Host τ))} {k m : Nat} {done left : List (List UInt8)}
    (h : Flows w k m done w') (hroom : 1 ≤ w.env.pair.capacity .aToB)
    (hk : k = min w.client.staged.length
      (w.env.pair.capacity .aToB - (w.env.pair.stored .aToB).length))
    (hm : s.rxBufferSize - w.client.held.length ≤ m)
    (hleft : w'.client.held ++ w'.env.pair.stored .bToA = left.flatten)
    (hfits : ∀ p ∈ left, p.length ≤ s.rxBufferSize)
    (hhead : ∀ p ∈ left.head?, w'.client.held.length < p.length) :
    Prog.Advances Transit.rank Stuck [.poll] (transit w) (transit w') := by
  have hstaged := congrArg List.length h.staged
  have hup := congrArg List.length h.up
  have hdown := congrArg List.length h.down
  have hheld := congrArg List.length h.held
  simp only [List.length_append, List.length_drop, List.length_take] at hstaged hup hdown hheld
  -- every byte that was moved counts less where it now is
  by_cases hmove : 0 < k + min m (w.env.pair.stored .bToA).length + done.flatten.length
  · refine Or.inl ?_
    show Transit.rank _ < Transit.rank _
    simp only [Transit.rank, transit, h.broker]
    omega
  · -- nothing was handed over, read or taken off
    have hk0 : k = 0 := by omega
    have htake : (w.env.pair.stored .bToA).take m = [] := by
      refine List.eq_nil_of_length_eq_zero ?_
      rw [List.length_take]
      omega
    have hdone : done.flatten = [] := List.eq_nil_of_length_eq_zero (by omega)
    have hsame : w'.client.held = w.client.held := by
      have hheld' := h.held
      rw [htake, hdone, List.append_nil, List.nil_append] at hheld'
      exact hheld'.symm
    have hrest : w'.env.pair.stored .bToA = w.env.pair.stored .bToA := by
      conv_rhs => rw [← List.take_append_drop m (w.env.pair.stored .bToA), htake]
      exact h.down
    -- a packet left over would have been complete, since nothing more is to be read
    have hnone : w'.client.held = [] ∧ w'.env.pair.stored .bToA = [] := by
      cases left with
      | nil => exact List.append_eq_nil_iff.mp hleft
      | cons p left =>
        have hlt := hhead p rfl
        have hle := hfits p List.mem_cons_self
        have hlen := congrArg List.length hleft
        rw [List.flatten_cons, List.length_append, List.length_append] at hlen
        omega
    refine Or.inr ⟨?_, fun b hb => ?_⟩
    · rw [transit, transit, h.broker, h.up, h.staged, hk0, hsame, hrest, List.drop_zero,
        List.take_zero, List.append_nil]
    · rw [List.mem_singleton.mp hb]
      refine ⟨?_, hrest.symm.trans hnone.2, hsame.symm.trans hnone.1⟩
      by_cases hempty : w.client.staged = []
      · exact Or.inl hempty
      · have hpos := List.length_pos_of_ne_nil hempty
        refine Or.inr (List.ne_nil_of_length_pos ?_)
        show 0 < (w.env.pair.stored .aToB).length
        omega

theorem poll_settles {f : MessageFn (Net (Host τ))} (hhosted : Hosted s) (hstill : Still s now)
    (hf : s.onMessage = some f) (hquiet : f.Quiet) (hw : Settling s now past msgs w) :
    poll.Returns w fun _ w' => Settling s now past msgs w' ∧
      Prog.Advances Transit.rank Stuck [.poll] (transit w) (transit w') := by
  obtain ⟨todo, due, feed, rfl, htodo, hup, hdown, hgood, hcap, hgreeted, t, ht, htold⟩ := hw.flow
  obtain ⟨w', m, done, rest, hrun, hflows, hm, hsplit, hhead, hgreeted', hearly'⟩ :=
    poll_flows hhosted hw.sound hw.setup hw.openA hstill hf hquiet hgood hgreeted hw.early
      (by rw [hdown, List.flatten_append]; exact List.prefix_append _ _) rfl
  -- what was taken off were the first of the packets that had come
  have hdown' := hflows.downward
  rw [hdown] at hdown'
  obtain ⟨left, rfl⟩ : done <+: due := by
    refine framed_prefixFree.prefix_of_flatten (fun p hp => ?_) (fun p hp => ?_)
      ⟨_, hdown'.symm⟩
    · exact WellFormed.framed (hgood p (hsplit ▸ List.mem_append_left rest hp))
    · exact WellFormed.framed (hgood p (List.mem_append_left _ hp))
  rw [List.append_assoc, List.append_cancel_left_eq] at hsplit
  subst hsplit
  have hleft : w'.client.held ++ w'.env.pair.stored .bToA = left.flatten := by
    rw [List.flatten_append] at hdown'
    exact (List.append_cancel_left hdown').symm
  have hfits : ∀ p ∈ left ++ answers w.env.rest.broker.kept todo, WellFormed s.rxBufferSize p :=
    fun p hp => hgood p (by rw [List.append_assoc]; exact List.mem_append_right done hp)
  refine ⟨_, w', hrun, ?_, ?_⟩
  · refine ⟨hflows.sound, hflows.setup.trans hw.setup, ?_, ?_, hearly', ?_, ?_, todo, left, _, ?_,
      htodo, ?_, hleft, hfits, ?_, hgreeted', ?_⟩
    · rw [hflows.like.endpoint]
      exact hw.openA
    · rw [hflows.like.endpoint]
      exact hw.openB
    · rw [hflows.like.capacity]
      exact hw.room
    · rw [hflows.broker]
      exact hw.valid
    · rw [hflows.broker]
    · rw [hflows.broker, hflows.upward]
      exact hup
    · rw [List.append_assoc, List.flatten_append, List.length_append] at hcap
      rw [hflows.like.capacity]
      omega
    · obtain ⟨t', ht', htold'⟩ := hflows.trace
      refine ⟨t' ++ t, ?_, ?_⟩
      · rw [ht', ht, List.append_assoc]
      · rw [messages_append, htold', List.append_assoc, ← List.filterMap_append,
          ← List.append_assoc]
        exact htold
  · -- the rank
    refine hflows.advances hw.room rfl hm hleft (fun p hp => ?_) (fun p hp => hhead p ?_)
    · obtain ⟨-, -, -, hle, -⟩ := hfits p (List.mem_append_left _ hp)
      exact hle
    · cases left with
      | nil => cases hp
      | cons q left => exact hp

/-- A tick lowers the rank or finds nothing to do. -/
theorem Handled.advances {n' : Net (Host τ)} {b : Broker} {todo done rest : List Packet} {j : Nat}
    (hreg : ∀ p ∈ todo, p.Regular ∧ p.bytes.length ≤ bufSize) (hvalid : w.env.rest.broker.Valid)
    (h : Handled (afterPeerRead w.env b) done n') (hj : j = bufSize - w.env.rest.broker.bufLen)
    (hb : b.held = w.env.rest.broker.held ++ (w.env.pair.stored .aToB).take j)
    (hsplit : todo = done ++ rest)
    (hup : w.env.rest.broker.held ++ (w.env.pair.stored .aToB ++ w.client.staged) =
      todo.flatMap Packet.bytes)
    (hhead : ∀ p ∈ rest.head?, n'.rest.broker.bufLen < p.bytes.length)
    (haToB : n'.pair.stored .aToB = (w.env.pair.stored .aToB).drop j)
    (hbToA : n'.pair.stored .bToA = w.env.pair.stored .bToA ++ (answers b.kept done).flatten) :
    Prog.Advances Transit.rank Stuck [.tick] (transit w)
      (transit ⟨w.client, n', w.trace⟩) := by
  have hans : (answers b.kept done).flatten.length ≤ (done.flatMap Packet.bytes).length :=
    length_answers_le _ fun p hp => (hreg p (hsplit ▸ List.mem_append_left rest hp)).1
  have hheld : w.env.rest.broker.held ++ (w.env.pair.stored .aToB).take j =
      done.flatMap Packet.bytes ++ n'.rest.broker.held := hb.symm.trans h.held
  have hlenHeld := congrArg List.length hheld
  have hlenUp := congrArg List.length haToB
  have hlenDown := congrArg List.length hbToA
  simp only [List.length_append, List.length_drop, List.length_take] at hlenHeld hlenUp hlenDown
  -- the answers count no more than the packets handled, and each byte less than before
  by_cases hmove : 0 < min j (w.env.pair.stored .aToB).length + (done.flatMap Packet.bytes).length
  · refine Or.inl ?_
    show Transit.rank _ < Transit.rank _
    simp only [Transit.rank, transit]
    omega
  · -- nothing was read or handled
    have hdone : done = [] := by
      cases done with
      | nil => rfl
      | cons p done =>
        have hpos := length_bytes_pos p
        rw [List.flatMap_cons, List.length_append] at hmove
        omega
    subst hdone
    have htake : (w.env.pair.stored .aToB).take j = [] := by
      refine List.eq_nil_of_length_eq_zero ?_
      rw [List.length_take]
      omega
    rw [htake, List.append_nil, List.flatMap_nil, List.nil_append] at hheld
    rw [answers, List.flatten_nil, List.append_nil] at hbToA
    have hsame : n'.pair.stored .aToB = w.env.pair.stored .aToB := by
      conv_rhs => rw [← List.take_append_drop j (w.env.pair.stored .aToB), htake]
      exact haToB
    have hlen : w.env.rest.broker.held.length = n'.rest.broker.bufLen := by
      rw [hheld, h.valid.length_held]
    have hown := hvalid.length_held
    refine Or.inr ⟨?_, fun b hb => ?_⟩
    · simp only [transit, hsame, hbToA, hheld]
    · rw [List.mem_singleton.mp hb]
      cases rest with
      | nil =>
        rw [hsplit, List.append_nil, List.flatMap_nil, List.append_eq_nil_iff,
          List.append_eq_nil_iff] at hup
        exact ⟨hup.2.1, fun _ => hup.1⟩
      | cons p rest =>
        -- the packet at the front is not complete and would fit, so all that is stored was read
        have hlt := hhead p rfl
        have hle := (hreg p (hsplit ▸ List.mem_cons_self)).2
        have hlenAll := congrArg List.length hup
        rw [hsplit, List.nil_append, List.flatMap_cons] at hlenAll
        simp only [List.length_append] at hlenAll
        have hsize : bufSize = 256 := rfl
        have hempty : w.env.pair.stored .aToB = [] := List.eq_nil_of_length_eq_zero (by omega)
        refine ⟨hempty, fun hstaged => ?_⟩
        have hstaged' : w.client.staged = [] := hstaged
        rw [hempty, hstaged', List.length_nil] at hlenAll
        omega

theorem tick_settles (hw : Settling s now past msgs w) :
    (move (Turn.tick : Turn τ).move).Returns w fun _ w' => Settling s now past msgs w' ∧
      Prog.Advances Transit.rank Stuck [.tick] (transit w) (transit w') := by
  obtain ⟨todo, due, feed, rfl, htodo, hup, hdown, hgood, hcap, hgreeted, t, ht, htold⟩ := hw.flow
  obtain ⟨b, hvb, hkept, hheld, htick⟩ := brokerTick_eq hw.valid
  obtain ⟨hres, hread⟩ := w.env.pair.read_open hw.openB (bufSize - w.env.rest.broker.bufLen)
  -- the endpoint is open, so the read does not fail and the loop follows
  have hnot : ¬ HardError (w.env.pair.read .b (bufSize - w.env.rest.broker.bufLen)).1.status := by
    rw [hres]
    exact (by decide : ¬ HardError statusOk)
  rw [if_neg hnot] at htick
  rw [hres] at hheld
  have hpre : b.held <+: todo.flatMap Packet.bytes := by
    rw [hheld, ← hup, List.prefix_append_right_inj]
    exact (List.take_prefix _ _).trans (List.prefix_append _ _)
  obtain ⟨n', done, rest, hloop, hsplit, hhandled, hhead⟩ := brokerTickLoop_handles
    (fun p hp => (htodo p hp).1) (n := afterPeerRead w.env b) hvb (Nat.lt_succ_self _) hpre
  have hopen₁ : ((afterPeerRead w.env b).pair.loop.endpoint .b).connected = true := by
    rw [show (afterPeerRead w.env b).pair.loop.endpoint .b = w.env.pair.loop.endpoint .b from
      Pair.endpoint_read _ _ _ _]
    exact hw.openB
  have hkeptAll : answers b.kept todo =
      answers b.kept done ++ answers n'.rest.broker.kept rest := by
    rw [hhandled.kept, hsplit, answers_append]
    rfl
  -- the answers to all that is on its way fit into the pair, and these are some of them
  have hroom : ((afterPeerRead w.env b).pair.stored .bToA).length +
      (answers b.kept done).flatten.length ≤ (afterPeerRead w.env b).pair.capacity .bToA := by
    rw [show (afterPeerRead w.env b).pair.capacity .bToA = w.env.pair.capacity .bToA from
      (hread .bToA).2, show (afterPeerRead w.env b).pair.stored .bToA = w.env.pair.stored .bToA from
      (hread .bToA).1]
    have hlen := congrArg List.length hdown
    rw [← hkept, hkeptAll] at hcap
    simp only [List.flatten_append, List.length_append] at hcap hlen
    omega
  have hstored := fun d => Pair.stored_writes hopen₁ hroom d
  rw [show (answers b.kept done) = answers (afterPeerRead w.env b).rest.broker.kept done from rfl,
    ← hhandled.pair] at hstored
  have haToB : n'.pair.stored .aToB =
      (w.env.pair.stored .aToB).drop (bufSize - w.env.rest.broker.bufLen) :=
    (hstored .aToB).1.trans (hread .aToB).1
  have hbToA : n'.pair.stored .bToA =
      w.env.pair.stored .bToA ++ (answers b.kept done).flatten :=
    (hstored .bToA).1.trans (congrArg (· ++ _) (hread .bToA).1)
  have hend : ∀ side, n'.pair.loop.endpoint side = w.env.pair.loop.endpoint side := by
    intro side
    rw [hhandled.pair, Pair.endpoint_writes]
    exact Pair.endpoint_read _ _ _ _
  have hcapacity : ∀ d, n'.pair.capacity d = w.env.pair.capacity d := fun d =>
    (hstored d).2.trans (hread d).2
  have hfeed : due ++ answers w.env.rest.broker.kept todo =
      (due ++ answers b.kept done) ++ answers n'.rest.broker.kept rest := by
    rw [← hkept, hkeptAll, List.append_assoc]
  refine ⟨_, ⟨w.client, n', w.trace⟩, onEnv_eq_ok.mpr ⟨n', htick.trans hloop, rfl⟩, ?_, ?_⟩
  · refine ⟨hw.sound, hw.setup, ?_, ?_, hw.early, ?_, hhandled.valid, rest,
      due ++ answers b.kept done, _, hfeed, ?_, ?_, ?_, hgood, ?_, hgreeted, t, ht, htold⟩
    · rw [hend]
      exact hw.openA
    · rw [hend]
      exact hw.openB
    · rw [hcapacity]
      exact hw.room
    · exact fun p hp => htodo p (hsplit ▸ List.mem_append_right done hp)
    · -- held and read are what was handled and what is held now
      have hall : b.held ++ ((w.env.pair.stored .aToB).drop
          (bufSize - w.env.rest.broker.bufLen) ++ w.client.staged) =
          todo.flatMap Packet.bytes := by
        rw [hheld, ← hup, List.append_assoc, ← List.append_assoc (List.take _ _)]
        exact congrArg (fun l => _ ++ (l ++ _)) (List.take_append_drop _ _)
      rw [show b.held = done.flatMap Packet.bytes ++ n'.rest.broker.held from hhandled.held, hsplit,
        List.flatMap_append, List.append_assoc, List.append_cancel_left_eq] at hall
      rw [haToB]
      exact hall
    · rw [hbToA, ← List.append_assoc, hdown, List.flatten_append]
    · rw [hcapacity]
      exact hcap
  · exact hhandled.advances htodo hw.valid rfl hheld hsplit hup hhead haToB hbToA

end

/-! ## The start -/

section

variable {cfg : Config (Net (Host τ))} {turns : List (Turn τ)} {w₀ w₁ w : World (Net (Host τ))}
  {f : MessageFn (Net (Host τ))} {now : UInt64}

/-- In the states behind a connect, the client's endpoint is open. -/
theorem FirstRun.openA (hrun : FirstRun cfg turns w₀ w₁ w)
    (hstate : w.client.state.isOpen = true) :
    (w.env.pair.loop.endpoint .a).connected = true := by
  have hmoves := isInit_of_turns hrun.noInit
  obtain ⟨hs, ha⟩ := init_attached hrun.hosted.keepsOpened hrun.init (init_setup hrun.init)
    (fun _ => ⟨(fun h => absurd h (by rw [hrun.closed]; decide)), (fun h => nomatch h)⟩)
  -- only the client opens and closes its endpoint: the broker has the other one
  have henv : ∀ p, .env p ∈ turns.map Turn.move → MoveKeeps Opened p := by
    rintro p hp n t r n' hn h hpaired
    obtain ⟨turn, -, heq⟩ := List.mem_map.mp hp
    cases turn with
    | client c => cases heq
    | listen =>
      cases heq
      cases h
      have hend : ((n.pair.connect .b).2.loop.endpoint .a) = n.pair.loop.endpoint .a :=
        Loopback.endpoint_setEndpoint n.pair.loop .b .a _
      show ((n.pair.connect .b).2.loop.endpoint .a).connected = true ↔ _
      rw [hend]
      exact hn hpaired
    | tick =>
      cases heq
      rw [brokerTick_endpoint h]
      exact hn hpaired
  obtain ⟨-, hopened⟩ := play_keeps hrun.hosted.keepsOpened hrun.hosted.keepsConnectOpened hs
    hmoves henv ha hrun.play
  -- the link is opened and closed in turns, and its count is 1 in these states
  obtain hbalanced := (play_refines hs hmoves hrun.play).invariant hrun.init
    (P := Link.Balanced) (fun _ _ _ => ⟨rfl, trivial⟩) balanced_step
  exact (hopened hbalanced.paired).mpr (hbalanced.count_one hstate)

/-- The client is connected, or waits for the CONNACK to the CONNECT that it has sent first. -/
def Greeting (w : World (Net (Host τ))) : Prop :=
  w.client.state = .mqttConnected ∨
    w.client.state = .mqttConnectSent ∧ w.client.connectSent = true ∧
      ∃ p, (sentPackets w.connection).head? = some p ∧ p.isConnect = true

theorem Ledger.settling {handled todo : List Packet} {taken due : List (List UInt8)}
    (h : Ledger w handled todo taken due) (hrun : FirstRun cfg turns w₀ w₁ w)
    (hgreeting : Greeting w) (hlistens : (w.env.pair.loop.endpoint .b).connected = true)
    (hearly : Early cfg.client.setup now w.client.lastActivityMs)
    (hfits : ∀ p ∈ sentPackets w.connection,
      p.bytes.length ≤ bufSize ∧ p.bytes.length ≤ cfg.rxBufferSize)
    (hroom : ((sentPackets w.connection).flatMap Packet.bytes).length ≤
      w.env.pair.capacity .bToA) :
    ∃ msgs, Settling cfg.client.setup now w.trace msgs w ∧
      messages (sinceOpen w.trace) ++ msgs = echoes none (sentPackets w.connection) := by
  have hmoves := isInit_of_turns hrun.noInit
  have href := play_refines (init_inits hrun.init).refines.1 hmoves hrun.play
  have hopen : w.client.state.isOpen = true := by
    rcases hgreeting with hstate | ⟨hstate, -⟩
    · rw [hstate]
      rfl
    · rw [hstate]
      rfl
  -- what was answered and what is yet to be answered are the answers to all that was sent
  have hall : taken ++ (due ++ answers w.env.rest.broker.kept todo) =
      answers none (sentPackets w.connection) := by
    rw [h.sent, answers_append, h.answered, ← h.kept, List.append_assoc]
  have hgood : ∀ q ∈ answers none (sentPackets w.connection), WellFormed cfg.rxBufferSize q :=
    answers_wellFormed none fun p hp => ⟨hrun.regular p hp, (hfits p hp).2⟩
  have hlen := length_answers_le none hrun.regular
  rw [← hall] at hgood hlen
  refine ⟨(due ++ answers w.env.rest.broker.kept todo).filterMap messageOf, ?_, ?_⟩
  · refine ⟨href.sound, href.setup.trans (init_setup hrun.init), hrun.openA hopen, hlistens, hearly,
      (w.env.pair.valid.channel .aToB).pos, h.valid, todo, due, _, rfl, ?_, h.upward, h.downward,
      ?_, ?_, ?_, [], rfl, rfl⟩
    · intro p hp
      have hp' : p ∈ sentPackets w.connection := h.sent ▸ List.mem_append_right handled hp
      exact ⟨hrun.regular p hp', (hfits p hp').1⟩
    · exact fun p hp => hgood p (List.mem_append_right taken hp)
    · rw [List.flatten_append, List.length_append] at hlen
      omega
    · rcases hgreeting with hstate | ⟨hstate, hsent, p, hp, hconnect⟩
      · exact Or.inl hstate
      · -- nothing was taken yet, so the answer to the CONNECT is the next to come
        rw [h.waiting hstate, List.nil_append] at hall
        refine Or.inr ⟨hstate, hsent, ?_⟩
        cases hpackets : sentPackets w.connection with
        | nil =>
          rw [hpackets] at hp
          cases hp
        | cons q packets =>
          rw [hpackets] at hp
          cases hp
          cases p with
          | connect clientId keepaliveSec =>
            rw [hall, hpackets]
            exact ⟨_, rfl⟩
          | _ => cases hconnect
  · rw [h.told, ← List.filterMap_append, hall, (answers_messages none hrun.regular).2]

/-- **The demo settles.** Take any state of a run of the demo on its first connection (`FirstRun`:
every send found nothing staged, `aemlib_connect` was not called on the connection, and the pair
took every answer whole). Let the client be connected or wait for its CONNACK, let the broker's
endpoint be open, and let every packet sent fit into the two receive buffers and all of them into
the pair's way back. Then the client polls and the broker ticks, in rounds in which each has a turn,
in any order and as often as it likes. While the clock stands still, nothing faults, and after five
rounds for each byte sent the client is connected, no byte is on its way and the callback has been
told every message that is to be echoed, in order and once each. -/
theorem demo_settles {rounds : List (List Beat)} (hrun : FirstRun cfg turns w₀ w₁ w)
    (hf : cfg.onMessage = some f) (hquiet : f.Quiet) (hgreeting : Greeting w)
    (hlistens : (w.env.pair.loop.endpoint .b).connected = true)
    (hstill : Still cfg.client.setup now)
    (hearly : Early cfg.client.setup now w.client.lastActivityMs)
    (hfits : ∀ p ∈ sentPackets w.connection,
      p.bytes.length ≤ bufSize ∧ p.bytes.length ≤ cfg.rxBufferSize)
    (hroom : ((sentPackets w.connection).flatMap Packet.bytes).length ≤
      w.env.pair.capacity .bToA)
    (hround : ∀ round ∈ rounds, .poll ∈ round ∧ .tick ∈ round)
    (hmany : 5 * ((sentPackets w.connection).flatMap Packet.bytes).length ≤ rounds.length) :
    (play ((rounds.flatten.map Beat.turn).map Turn.move)).Returns w fun _ w' =>
      w'.client.state = .mqttConnected ∧ Quiescent w' ∧
        ∃ t, w'.trace = t ++ w.trace ∧
          messages (sinceOpen w.trace) ++ messages t = echoes none (sentPackets w.connection) := by
  obtain ⟨handled, todo, taken, due, hw⟩ := hrun.ledger hf hquiet.gentle
  obtain ⟨msgs, hstart, hmsgs⟩ := hw.settling hrun hgreeting hlistens hearly hfits hroom
  -- each byte that is on its way comes from a byte sent, and counts at most 5
  have hrank : (transit w).rank ≤ rounds.length := by
    have hhandled := length_answers_le none fun p hp =>
      hrun.regular p (hw.sent ▸ List.mem_append_left todo hp)
    have hup := congrArg List.length hw.upward
    have hdown := congrArg List.length hw.downward
    rw [hw.answered, List.flatten_append] at hhandled
    rw [hw.sent, List.flatMap_append] at hmany
    simp only [List.length_append] at hhandled hup hdown hmany
    simp only [Transit.rank, transit]
    omega
  have hstep : ∀ b : Beat, ∀ v, Settling cfg.client.setup now w.trace msgs v →
      (move (b.turn : Turn τ).move).Returns v fun _ v' =>
        Settling cfg.client.setup now w.trace msgs v' ∧
          Prog.Advances Transit.rank Stuck [b] (transit v) (transit v') := by
    intro b v hv
    cases b with
    | poll => exact poll_settles hrun.hosted hstill hf hquiet hv
    | tick => exact tick_settles hv
  -- `Settling` is kept by every turn, and in each round the rank falls or nobody has anything to do
  have hsettled := Prog.forAll_settles transit Transit.rank Stuck hstart
    (fun b _ v hv => hstep b v hv)
    (fun round hmem v _ hstuck =>
      rank_of_stuck (hstuck _ (hround round hmem).1) (hstuck _ (hround round hmem).2)) hrank
  rw [play, Prog.forAll_map, Prog.forAll_map]
  refine hsettled.mono ?_
  rintro r w' ⟨hw', hzero⟩
  obtain ⟨todo', due', feed, rfl, -, hup, hdown, hgood, -, hgreeted, t, ht, htold⟩ := hw'.flow
  simp only [Transit.rank, transit] at hzero
  -- rank 0: no byte is anywhere, and so there is no packet of either kind
  have hstaged : w'.client.staged = [] := List.eq_nil_of_length_eq_zero (by omega)
  have hbroker : w'.env.rest.broker.held = [] := List.eq_nil_of_length_eq_zero (by omega)
  have hheld : w'.client.held = [] := List.eq_nil_of_length_eq_zero (by omega)
  have hstored : ∀ d, w'.env.pair.stored d = [] := by
    intro d
    refine List.eq_nil_of_length_eq_zero ?_
    cases d with
    | aToB => omega
    | bToA => omega
  rw [hbroker, hstored, hstaged] at hup
  rw [hheld, hstored] at hdown
  have htodo : todo' = [] := eq_nil_of_flatMap_bytes hup.symm
  have hdue : due' = [] := framed_prefixFree.eq_nil_of_flatten
    (fun p hp => WellFormed.framed (hgood p (List.mem_append_left _ hp))) hdown.symm
  subst htodo hdue
  refine ⟨?_, ⟨hstaged, hheld, hbroker, hstored⟩, t, ht, ?_⟩
  · rcases hgreeted with hstate | ⟨-, -, behind, hfeed⟩
    · exact hstate
    · cases hfeed
  · rw [← hmsgs, ← htold]
    exact congrArg _ (List.append_nil _).symm

end

/-- The client has connected, subscribed and published, and the message does not fit into the pair
behind the SUBSCRIBE. -/
def crowdedTurns : List (Demo.Turn Bool) :=
  [.listen, .client (.request .connect), .client .poll, .tick, .client .poll,
    .client (.request (.subscribe ⟨demoTopic, length_demoTopic⟩ 0)),
    .client (.request (.publish ⟨demoTopic, length_demoTopic⟩ [0x68, 0x69] 0))]

/-- Three bytes of the PUBLISH are still staged; they arrive. -/
theorem demo_settles_crowded :
    ∃ w : World (Net (Host Bool)), w.client.staged = [0x63, 0x68, 0x69] ∧
      (play (((List.replicate 235 [Beat.tick, .poll, .poll]).flatten.map Beat.turn).map
        Demo.Turn.move)).Returns w fun _ w' =>
        w'.client.state = .mqttConnected ∧ Quiescent w' ∧
          ∃ t, w'.trace = t ++ w.trace ∧
            messages (sinceOpen w.trace) ++ messages t = [(demoTopic, [0x68, 0x69])] := by
  obtain ⟨w₁, w, hrun, hstaged, hstate, hlistens, hearly, hlast, hfits, hroom, hmany, hsent⟩ :=
    exists_firstRun
    (P := fun w => w.client.staged = [0x63, 0x68, 0x69] ∧ w.client.state = .mqttConnected ∧
      (w.env.pair.loop.endpoint .b).connected = true ∧
      ¬ (0 : UInt64) - w.client.lastActivityMs ≥ connackTimeoutMs ∧
      ¬ (0 : UInt64) - w.client.lastActivityMs ≥ 60000 ∧
      (∀ p ∈ sentPackets w.connection, p.bytes.length ≤ bufSize ∧ p.bytes.length ≤ 32) ∧
      ((sentPackets w.connection).flatMap Packet.bytes).length ≤ w.env.pair.capacity .bToA ∧
      5 * ((sentPackets w.connection).flatMap Packet.bytes).length ≤ 235 ∧
      echoes none (sentPackets w.connection) = [(demoTopic, [0x68, 0x69])])
    32 32 60000 (.fresh (List.replicate 30 0) (List.replicate 48 0) (by decide) (by decide))
    crowdedTurns (Pair.stored_fresh _ _) rfl (by simp [crowdedTurns, Call.isInit])
    (by decide +kernel)
  refine ⟨w, hstaged, ?_⟩
  rw [← hsent]
  refine demo_settles hrun rfl (fun _ _ _ => rfl) (Or.inl hstate) hlistens ⟨_, rfl, fun _ => rfl⟩
    ⟨hearly, hlast⟩ hfits hroom ?_ ?_
  · intro round hround
    rw [List.eq_of_mem_replicate hround]
    decide
  · rw [List.length_replicate]
    exact hmany

end Demo

end Aemlib
