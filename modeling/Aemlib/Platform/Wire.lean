import Aemlib.Behaviour.Intake
import Aemlib.Behaviour.Outbound
import Aemlib.Platform.VirtualTransport

/-!
# A client on the virtual transport

`aemlib_virtual_transport_bind` gives a client one endpoint of a pair. Here the client has the
endpoint `a` and a peer, of whom nothing is assumed, makes calls on the endpoint `b` between the
calls of the library. The environment is the pair, the list of what the peer has done, and whatever
the clock and the message callback keep for themselves.

A valid pair never faults, so a `Pair` is one that carries its validity and its four operations are
total. The bytes that went through the pair are then accounted for end to end (`wire_accounted`):
what the peer has read, what the channel stores and what the client has staged are the packets the
client has sent.
-/

namespace Aemlib

open Machine Proto Prog

namespace Virtual

/-! ## Valid pairs -/

/-- A pair that is wired, with valid channels. -/
structure Pair where
  loop : Loopback
  valid : loop.Valid

theorem vtRead_total {s : Loopback} (hs : s.Valid) (side : Side) (len : Nat) :
    ∃ res t, s.vtRead side len = .ok (res, t) ∧ t.Valid := by
  cases hconn : (s.endpoint side).connected with
  | false => exact ⟨_, _, Loopback.vtRead_closed hconn len, hs⟩
  | true =>
    obtain ⟨ch, hrun, hvalid, -⟩ := Loopback.vtRead_open hs hconn len
    exact ⟨_, _, hrun, hs.setChannel side.reads hvalid⟩

theorem vtWrite_total {s : Loopback} (hs : s.Valid) (side : Side) (data : List UInt8) :
    ∃ res t, s.vtWrite side data = .ok (res, t) ∧ t.Valid := by
  cases hconn : (s.endpoint side).connected with
  | false => exact ⟨_, _, Loopback.vtWrite_closed hconn data, hs⟩
  | true =>
    obtain ⟨ch, hrun, hvalid, -⟩ := Loopback.vtWrite_open hs hconn data
    exact ⟨_, _, hrun, hs.setChannel side.writes hvalid⟩

/-- The result of an operation that is known to end in a valid pair. -/
def Pair.ofTotal {α : Type} (x : Except Fault (α × Loopback))
    (h : ∃ a t, x = .ok (a, t) ∧ t.Valid) : α × Pair :=
  match hx : x with
  | .ok (a, t) => (a, ⟨t, by
      obtain ⟨a', t', heq, hvalid⟩ := h
      cases hx.symm.trans (hx.trans heq)
      exact hvalid⟩)
  | .error _ => absurd h (by rintro ⟨a', t', heq, -⟩; cases heq)

theorem Pair.ofTotal_eq {α : Type} {x : Except Fault (α × Loopback)} {a : α} {t : Loopback}
    (h : ∃ a t, x = .ok (a, t) ∧ t.Valid) (hx : x = .ok (a, t)) :
    (Pair.ofTotal x h).1 = a ∧ (Pair.ofTotal x h).2.loop = t := by
  subst hx
  exact ⟨rfl, rfl⟩

namespace Pair

def stored (s : Pair) (d : Direction) : List UInt8 := (s.loop.channel d).contents

def connect (s : Pair) (side : Side) : Status × Pair :=
  ((s.loop.vtConnect side).1, ⟨(s.loop.vtConnect side).2, s.valid.setEndpoint side true⟩)

def disconnect (s : Pair) (side : Side) : Status × Pair :=
  ((s.loop.vtDisconnect side).1, ⟨(s.loop.vtDisconnect side).2, s.valid.setEndpoint side false⟩)

def read (s : Pair) (side : Side) (len : Nat) : ReadResult × Pair :=
  ofTotal (s.loop.vtRead side len) (vtRead_total s.valid side len)

def write (s : Pair) (side : Side) (data : List UInt8) : WriteResult × Pair :=
  ofTotal (s.loop.vtWrite side data) (vtWrite_total s.valid side data)

@[simp] theorem stored_connect (s : Pair) (side : Side) (d : Direction) :
    (s.connect side).2.stored d = s.stored d :=
  congrArg Channel.contents (Loopback.channel_setEndpoint s.loop side _ d)

@[simp] theorem stored_disconnect (s : Pair) (side : Side) (d : Direction) :
    (s.disconnect side).2.stored d = s.stored d :=
  congrArg Channel.contents (Loopback.channel_setEndpoint s.loop side _ d)

/-- Reading and writing neither open nor close an endpoint. -/
@[simp] theorem endpoint_read (s : Pair) (side side' : Side) (len : Nat) :
    (s.read side len).2.loop.endpoint side' = s.loop.endpoint side' := by
  cases hconn : (s.loop.endpoint side).connected with
  | false =>
    obtain ⟨-, hloop⟩ := ofTotal_eq (vtRead_total s.valid side len)
      (Loopback.vtRead_closed hconn len)
    rw [read, hloop]
  | true =>
    obtain ⟨ch, hrun, -⟩ := Loopback.vtRead_open s.valid hconn len
    obtain ⟨-, hloop⟩ := ofTotal_eq (vtRead_total s.valid side len) hrun
    rw [read, hloop, Loopback.endpoint_setChannel]

@[simp] theorem endpoint_write (s : Pair) (side side' : Side) (data : List UInt8) :
    (s.write side data).2.loop.endpoint side' = s.loop.endpoint side' := by
  cases hconn : (s.loop.endpoint side).connected with
  | false =>
    obtain ⟨-, hloop⟩ := ofTotal_eq (vtWrite_total s.valid side data)
      (Loopback.vtWrite_closed hconn data)
    rw [write, hloop]
  | true =>
    obtain ⟨ch, hrun, -⟩ := Loopback.vtWrite_open s.valid hconn data
    obtain ⟨-, hloop⟩ := ofTotal_eq (vtWrite_total s.valid side data) hrun
    rw [write, hloop, Loopback.endpoint_setChannel]

/-- A read takes the oldest bytes of the direction it reads from, at most as many as asked for. -/
theorem read_conserves (s : Pair) (side : Side) (len : Nat) :
    (s.read side len).1.data.length ≤ len ∧
    (s.read side len).1.taken = (s.read side len).1.data ∧ ∀ d,
      s.stored d = (if side.reads = d then (s.read side len).1.data else []) ++
        (s.read side len).2.stored d := by
  cases hconn : (s.loop.endpoint side).connected with
  | false =>
    obtain ⟨hres, hloop⟩ := ofTotal_eq (vtRead_total s.valid side len)
      (Loopback.vtRead_closed hconn len)
    rw [read, hres]
    refine ⟨Nat.zero_le _, rfl, fun d => ?_⟩
    rw [ite_self, List.nil_append, stored, stored, hloop]
  | true =>
    obtain ⟨ch, hrun, -, -, hcontents⟩ := Loopback.vtRead_open s.valid hconn len
    obtain ⟨hres, hloop⟩ := ofTotal_eq (vtRead_total s.valid side len) hrun
    rw [read, hres]
    refine ⟨List.length_take_le _ _, if_pos rfl, fun d => ?_⟩
    rw [stored, stored, hloop, Loopback.channel_setChannel]
    split
    · next hd =>
      rw [← hd, hcontents, List.take_append_drop]
    · rw [List.nil_append]

/-- A write puts a front part of its data behind the stored bytes. -/
theorem write_conserves (s : Pair) (side : Side) (data : List UInt8) :
    (s.write side data).1.outLen ≤ data.length ∧
    (s.write side data).1.taken data = data.take (s.write side data).1.outLen ∧ ∀ d,
      (s.write side data).2.stored d = s.stored d ++
        (if side.writes = d then data.take (s.write side data).1.outLen else []) := by
  cases hconn : (s.loop.endpoint side).connected with
  | false =>
    obtain ⟨hres, hloop⟩ := ofTotal_eq (vtWrite_total s.valid side data)
      (Loopback.vtWrite_closed hconn data)
    rw [write, hres]
    refine ⟨Nat.zero_le _, rfl, fun d => ?_⟩
    rw [List.take_zero, ite_self, List.append_nil, stored, stored, hloop]
  | true =>
    obtain ⟨ch, hrun, -, -, hcontents⟩ := Loopback.vtWrite_open s.valid hconn data
    obtain ⟨hres, hloop⟩ := ofTotal_eq (vtWrite_total s.valid side data) hrun
    rw [write, hres]
    refine ⟨Nat.min_le_left _ _, ?_, fun d => ?_⟩
    · by_cases hfull : (s.loop.channel side.writes).space = 0 ∧ 0 < data.length
      · -- a full channel takes nothing
        rw [if_pos hfull, hfull.1, Nat.min_zero, List.take_zero]
        rfl
      · rw [if_neg hfull]
        exact if_pos rfl
    · rw [stored, stored, hloop, Loopback.channel_setChannel]
      split
      · next hd => rw [← hd, hcontents]
      · rw [List.append_nil]

/-! ### Open endpoints -/

def capacity (s : Pair) (d : Direction) : Nat := (s.loop.channel d).bufSize

theorem space_eq (s : Pair) (d : Direction) :
    (s.loop.channel d).space = s.capacity d - (s.stored d).length := by
  rw [stored, (s.valid.channel d).length_contents]
  rfl

/-- A read on an open endpoint. -/
theorem read_open (s : Pair) {side : Side} (h : (s.loop.endpoint side).connected = true)
    (len : Nat) :
    (s.read side len).1 = ⟨statusOk, (s.stored side.reads).take len⟩ ∧ ∀ d,
      (s.read side len).2.stored d = (if side.reads = d then (s.stored d).drop len
        else s.stored d) ∧
      (s.read side len).2.capacity d = s.capacity d := by
  obtain ⟨ch, hrun, -, hsize, hcontents⟩ := Loopback.vtRead_open s.valid h len
  obtain ⟨hres, hloop⟩ := ofTotal_eq (vtRead_total s.valid side len) hrun
  refine ⟨hres, fun d => ?_⟩
  rw [read, stored, capacity, hloop, Loopback.channel_setChannel]
  split
  · next hd =>
    subst hd
    exact ⟨hcontents, hsize⟩
  · exact ⟨rfl, rfl⟩

/-- A write on an open endpoint. -/
theorem write_open (s : Pair) {side : Side} (h : (s.loop.endpoint side).connected = true)
    (data : List UInt8) {n : Nat}
    (hn : n = min data.length (s.capacity side.writes - (s.stored side.writes).length)) :
    (s.write side data).1 = ⟨if n = 0 ∧ 0 < data.length then ioWouldBlock else statusOk, n⟩ ∧
      ∀ d, (s.write side data).2.stored d = (if side.writes = d then s.stored d ++ data.take n
        else s.stored d) ∧
      (s.write side data).2.capacity d = s.capacity d := by
  obtain ⟨ch, hrun, -, hsize, hcontents⟩ := Loopback.vtWrite_open s.valid h data
  obtain ⟨hres, hloop⟩ := ofTotal_eq (vtWrite_total s.valid side data) hrun
  rw [s.space_eq, ← hn] at hres hcontents
  refine ⟨?_, fun d => ?_⟩
  · have hnone : (s.capacity side.writes - (s.stored side.writes).length = 0 ∧ 0 < data.length) ↔
        (n = 0 ∧ 0 < data.length) := by omega
    rw [write, hres]
    simp only [hnone]
  · rw [write, stored, capacity, hloop, Loopback.channel_setChannel]
    split
    · next hd =>
      subst hd
      exact ⟨hcontents, hsize⟩
    · exact ⟨rfl, rfl⟩

def writes (s : Pair) (side : Side) (datas : List (List UInt8)) : Pair :=
  datas.foldl (fun s data => (s.write side data).2) s

theorem writes_cons (s : Pair) (side : Side) (data : List UInt8) (datas : List (List UInt8)) :
    s.writes side (data :: datas) = (s.write side data).2.writes side datas := rfl

/-- Writes for which there is room. -/
theorem stored_writes {s : Pair} {side : Side} (h : (s.loop.endpoint side).connected = true)
    {datas : List (List UInt8)}
    (hroom : (s.stored side.writes).length + datas.flatten.length ≤ s.capacity side.writes)
    (d : Direction) :
    (s.writes side datas).stored d =
      (if side.writes = d then s.stored d ++ datas.flatten else s.stored d) ∧
    (s.writes side datas).capacity d = s.capacity d := by
  induction datas generalizing s with
  | nil =>
    refine ⟨?_, rfl⟩
    rw [List.flatten_nil, List.append_nil, ite_self]
    rfl
  | cons data datas ih =>
    rw [List.flatten_cons, List.length_append] at hroom
    obtain ⟨-, hwrite⟩ := s.write_open (n := data.length) h data (by omega)
    -- the first write finds room for all of it, and leaves room for the others
    have hstored := (hwrite side.writes).1
    rw [if_pos rfl, List.take_length] at hstored
    obtain ⟨hrest, hcap⟩ := ih (s := (s.write side data).2) (by rw [endpoint_write]; exact h) (by
      rw [hstored, (hwrite side.writes).2, List.length_append]
      omega)
    rw [writes_cons, hrest, hcap, (hwrite d).2, (hwrite d).1, List.flatten_cons]
    refine ⟨?_, rfl⟩
    split
    · rw [List.take_length, List.append_assoc]
    · rfl

theorem endpoint_writes (s : Pair) (side side' : Side) (datas : List (List UInt8)) :
    (s.writes side datas).loop.endpoint side' =
      s.loop.endpoint side' := by
  induction datas generalizing s with
  | nil => rfl
  | cons data datas ih => rw [writes_cons, ih, endpoint_write]

end Pair

/-! ## The environment of the client -/

/-- A pair, what was done on the endpoint `b` (oldest first), and the rest of the environment. -/
structure Net (ρ : Type) where
  pair : Pair
  log : List Exchange
  rest : ρ

variable {ρ : Type}

/-- `aemlib_virtual_transport_bind` of the endpoint `a`. -/
def transportBind : Transport (Net ρ) where
  connect := some fun n => ((n.pair.connect .a).1, { n with pair := (n.pair.connect .a).2 })
  disconnect :=
    some fun n => ((n.pair.disconnect .a).1, { n with pair := (n.pair.disconnect .a).2 })
  read := some fun n len => ((n.pair.read .a len).1, { n with pair := (n.pair.read .a len).2 })
  write := some fun n data =>
    ((n.pair.write .a data).1, { n with pair := (n.pair.write .a data).2 })

theorem transportBind_honest : (transportBind : Transport (Net ρ)).Honest where
  read f hf env len := by
    cases hf
    exact (env.pair.read_conserves .a len).1
  write f hf env data := by
    cases hf
    exact (env.pair.write_conserves .a data).1

/-- A client on the endpoint `a` whose clock and callback have nothing to do with the pair. -/
structure Wired (s : Setup (Net ρ)) : Prop where
  transport : s.transport = transportBind
  nowMs : ∀ f, s.nowMs = some f → ∀ n, (f n).2.pair = n.pair ∧ (f n).2.log = n.log
  onMessage : ∀ f, s.onMessage = some f → ∀ n topic payload,
    (f n topic payload).2.pair = n.pair ∧ (f n topic payload).2.log = n.log

/-! ## The peer -/

def peerRead (len : Nat) : Prog Fault Status (Net ρ) ReadResult := do
  let n ← get
  let (result, pair) := n.pair.read .b len
  set { n with pair := pair, log := n.log ++ [Exchange.read len result] }
  return result

def peerWrite (data : List UInt8) : Prog Fault Status (Net ρ) WriteResult := do
  let n ← get
  let (result, pair) := n.pair.write .b data
  set { n with pair := pair, log := n.log ++ [Exchange.write data result] }
  return result

theorem peerRead_eq (n : Net ρ) (len : Nat) :
    peerRead len n = .ok (.ok (n.pair.read .b len).1,
      ⟨(n.pair.read .b len).2, n.log ++ [.read len (n.pair.read .b len).1], n.rest⟩) := rfl

theorem peerWrite_eq (n : Net ρ) (data : List UInt8) :
    peerWrite data n = .ok (.ok (n.pair.write .b data).1,
      ⟨(n.pair.write .b data).2, n.log ++ [.write data (n.pair.write .b data).1], n.rest⟩) := rfl

def peerCall : Call → Prog Fault Status (Net ρ) Unit
  | .connect => modify fun n =>
      { n with
        pair := (n.pair.connect .b).2
        log := n.log ++ [.connect (n.pair.connect .b).1] }
  | .disconnect => modify fun n =>
      { n with
        pair := (n.pair.disconnect .b).2
        log := n.log ++ [.disconnect (n.pair.disconnect .b).1] }
  | .read len => do
    let _ ← peerRead len
  | .write data => do
    let _ ← peerWrite data

def received (log : List Exchange) : List UInt8 :=
  log.flatMap fun x => Exchange.returned .aToB (.b, x)

def answered (log : List Exchange) : List UInt8 :=
  log.flatMap fun x => Exchange.accepted .bToA (.b, x)

@[simp] theorem received_append (log log' : List Exchange) :
    received (log ++ log') = received log ++ received log' := List.flatMap_append

@[simp] theorem answered_append (log log' : List Exchange) :
    answered (log ++ log') = answered log ++ answered log' := List.flatMap_append

/-! ## The account of the pair -/

/-- What the client's transport has taken is what the peer has read and what is stored, and what
the peer has written is what the client has read and what is stored. -/
def Balanced (n : Net ρ) (t : List Event) : Prop :=
  accepted (sinceInit t) = received n.log ++ n.pair.stored .aToB ∧
    answered n.log = inbound (sinceInit t) ++ n.pair.stored .bToA

theorem balanced_of_eq {n n' : Net ρ} {t t' : List Event} (h : Balanced n t)
    (hstored : ∀ d, n'.pair.stored d = n.pair.stored d) (hlog : n'.log = n.log)
    (hout : accepted (sinceInit t') = accepted (sinceInit t))
    (hin : inbound (sinceInit t') = inbound (sinceInit t)) : Balanced n' t' := by
  unfold Balanced
  rw [hstored, hstored, hlog, hout, hin]
  exact h

/-- The client's side: every callback keeps the account. -/
theorem Wired.keeps {s : Setup (Net ρ)} (hs : Wired s) : s.Keeps Balanced where
  mark e he env t h := by
    cases e with
    | connectCall | encode | refused | sent => exact balanced_of_eq h (fun _ => rfl) rfl rfl rfl
    | _ => cases he
  disconnect f hf env t h := by
    rw [hs.transport] at hf
    cases hf
    exact balanced_of_eq h (fun d => Pair.stored_disconnect _ _ d) rfl rfl rfl
  read f hf env t len h := by
    rw [hs.transport] at hf
    cases hf
    -- a read takes from the way down and leaves the way up alone
    obtain ⟨-, htaken, hstored⟩ := env.pair.read_conserves .a len
    have hA := hstored .aToB
    have hB := hstored .bToA
    rw [if_neg (by decide), List.nil_append] at hA
    rw [if_pos (by decide)] at hB
    refine ⟨?_, ?_⟩
    · exact h.1.trans (by rw [hA])
    · show answered env.log = (inbound (sinceInit t) ++ (env.pair.read .a len).1.taken) ++
        (env.pair.read .a len).2.stored .bToA
      rw [htaken, List.append_assoc, ← hB]
      exact h.2
  write f hf env t data h := by
    rw [hs.transport] at hf
    cases hf
    -- a write goes behind what is stored on the way up
    obtain ⟨-, htaken, hstored⟩ := env.pair.write_conserves .a data
    have hA := hstored .aToB
    have hB := hstored .bToA
    rw [if_pos (by decide)] at hA
    rw [if_neg (by decide), List.append_nil] at hB
    refine ⟨?_, ?_⟩
    · show accepted (sinceInit t) ++ (env.pair.write .a data).1.taken data =
        received env.log ++ (env.pair.write .a data).2.stored .aToB
      rw [htaken, hA, ← List.append_assoc, ← h.1]
    · exact h.2.trans (by rw [hB]; rfl)
  now f hf env t h := by
    obtain ⟨hpair, hlog⟩ := hs.nowMs f hf env
    exact balanced_of_eq h (fun d => by rw [hpair]) hlog rfl rfl
  message f hf env t topic payload h := by
    obtain ⟨hpair, hlog⟩ := hs.onMessage f hf env topic payload
    exact balanced_of_eq h (fun d => by rw [hpair]) hlog rfl rfl

theorem Wired.keepsConnect {s : Setup (Net ρ)} (hs : Wired s) : s.KeepsConnect Balanced := by
  intro f hf env t h
  rw [hs.transport] at hf
  cases hf
  exact balanced_of_eq h (fun d => Pair.stored_connect _ _ d) rfl rfl rfl

/-- The peer's side: so does every call on the other endpoint. -/
theorem peerRead_balanced (t : List Event) (len : Nat) :
    Keeps (fun n : Net ρ => Balanced n t) (peerRead len) := by
  intro n hn r n' h
  rw [peerRead_eq, Except.ok.injEq, Prod.mk.injEq] at h
  obtain ⟨-, rfl⟩ := h
  obtain ⟨-, -, hstored⟩ := n.pair.read_conserves .b len
  have hA := hstored .aToB
  have hB := hstored .bToA
  rw [if_pos (by decide)] at hA
  rw [if_neg (by decide), List.nil_append] at hB
  have hgot : received [.read len (n.pair.read .b len).1] = (n.pair.read .b len).1.data :=
    List.append_nil _
  refine ⟨?_, ?_⟩
  · rw [received_append, hgot, List.append_assoc, ← hA]
    exact hn.1
  · rw [answered_append, show answered [.read len (n.pair.read .b len).1] = [] from rfl,
      List.append_nil, ← hB]
    exact hn.2

theorem peerWrite_balanced (t : List Event) (data : List UInt8) :
    Keeps (fun n : Net ρ => Balanced n t) (peerWrite data) := by
  intro n hn r n' h
  rw [peerWrite_eq, Except.ok.injEq, Prod.mk.injEq] at h
  obtain ⟨-, rfl⟩ := h
  obtain ⟨-, -, hstored⟩ := n.pair.write_conserves .b data
  have hA := hstored .aToB
  have hB := hstored .bToA
  rw [if_neg (by decide), List.append_nil] at hA
  rw [if_pos (by decide)] at hB
  have hput : answered [.write data (n.pair.write .b data).1] =
      data.take (n.pair.write .b data).1.outLen := List.append_nil _
  refine ⟨?_, ?_⟩
  · rw [received_append, show received [.write data (n.pair.write .b data).1] = [] from rfl,
      List.append_nil, hA]
    exact hn.1
  · rw [answered_append, hput, hB, hn.2, List.append_assoc]

theorem peerCall_balanced (t : List Event) (c : Call) :
    Keeps (fun n : Net ρ => Balanced n t) (peerCall c) := by
  cases c with
  | connect =>
    intro n hn r n' h
    cases h
    refine ⟨?_, ?_⟩
    · rw [received_append, Pair.stored_connect]
      exact hn.1.trans (by rw [show received [.connect _] = [] from rfl, List.append_nil])
    · rw [answered_append, Pair.stored_connect]
      exact (List.append_nil _).trans hn.2
  | disconnect =>
    intro n hn r n' h
    cases h
    refine ⟨?_, ?_⟩
    · rw [received_append, Pair.stored_disconnect]
      exact hn.1.trans (by rw [show received [.disconnect _] = [] from rfl, List.append_nil])
    · rw [answered_append, Pair.stored_disconnect]
      exact (List.append_nil _).trans hn.2
  | read len => exact (peerRead_balanced t len).bind fun _ => keeps_pure _
  | write data => exact (peerWrite_balanced t data).bind fun _ => keeps_pure _

/-! ## The first connection -/

/-- How often the transport has connected since `aemlib_init`. -/
def openings (t : List Event) : Nat := (sinceInit t).countP Event.opens

/-- Nothing goes through the endpoint `a` before it is connected, so on the first connection the
bytes since it was are all there are. -/
structure FirstOpening (n : Net ρ) (t : List Event) : Prop where
  before : openings t = 0 → (n.pair.loop.endpoint .a).connected = false ∧
    accepted (sinceInit t) = [] ∧ inbound (sinceInit t) = []
  during : openings t = 1 → accepted (sinceInit t) = accepted (sinceOpen t) ∧
    inbound (sinceInit t) = inbound (sinceOpen t)

/-- An event that opens nothing, and for which nothing goes through a closed endpoint. -/
theorem FirstOpening.cons {n n' : Net ρ} {t : List Event} {e : Event} (h : FirstOpening n t)
    (he : e.opens = false)
    (hclosed : (n.pair.loop.endpoint .a).connected = false →
      (n'.pair.loop.endpoint .a).connected = false ∧ accepted [e] = [] ∧ inbound [e] = []) :
    FirstOpening n' (e :: t) := by
  have hinit : sinceInit (e :: t) = [e] ++ sinceInit t := by
    cases e with
    | init => cases he
    | _ => rfl
  have hopen : sinceOpen (e :: t) = [e] ++ sinceOpen t :=
    sinceOpen_append (t := [e]) fun e' he' => List.mem_singleton.mp he' ▸ he
  have hcount : openings (e :: t) = openings t := by
    rw [openings, hinit, List.countP_append, List.countP_singleton, he]
    exact Nat.zero_add _
  constructor
  · intro hzero
    -- still closed: nothing has gone through, and nothing does now
    obtain ⟨hconn, hout, hin⟩ := h.before (hcount ▸ hzero)
    obtain ⟨hconn', hout', hin'⟩ := hclosed hconn
    refine ⟨hconn', ?_, ?_⟩
    · rw [hinit, accepted_append, hout, hout', List.append_nil]
    · rw [hinit, inbound_append, hin, hin', List.append_nil]
  · intro hone
    obtain ⟨hout, hin⟩ := h.during (hcount ▸ hone)
    rw [hinit, hopen]
    refine ⟨?_, ?_⟩
    · rw [accepted_append, accepted_append, hout]
    · rw [inbound_append, inbound_append, hin]

theorem Wired.keepsFirst {s : Setup (Net ρ)} (hs : Wired s) : s.Keeps FirstOpening where
  mark e he env t h := by
    refine h.cons ?_ fun hconn => ⟨hconn, ?_⟩
    · cases e with
      | init => cases he
      | connect status => cases he
      | _ => rfl
    · cases e with
      | connectCall | encode | refused | sent => exact ⟨rfl, rfl⟩
      | _ => cases he
  disconnect f hf env t h := by
    rw [hs.transport] at hf
    cases hf
    exact h.cons rfl fun _ => ⟨rfl, rfl, rfl⟩
  read f hf env t len h := by
    rw [hs.transport] at hf
    cases hf
    refine h.cons rfl fun hconn => ?_
    -- a closed endpoint brings nothing
    obtain ⟨hres, hloop⟩ := Pair.ofTotal_eq (vtRead_total env.pair.valid .a len)
      (Loopback.vtRead_closed hconn len)
    refine ⟨?_, rfl, ?_⟩
    · exact (congrArg (fun l => (Loopback.endpoint l .a).connected) hloop).trans hconn
    · show [] ++ (env.pair.read .a len).1.taken = []
      rw [Pair.read, hres]
      rfl
  write f hf env t data h := by
    rw [hs.transport] at hf
    cases hf
    refine h.cons rfl fun hconn => ?_
    -- a closed endpoint takes nothing
    obtain ⟨hres, hloop⟩ := Pair.ofTotal_eq (vtWrite_total env.pair.valid .a data)
      (Loopback.vtWrite_closed hconn data)
    refine ⟨?_, ?_, rfl⟩
    · exact (congrArg (fun l => (Loopback.endpoint l .a).connected) hloop).trans hconn
    · show [] ++ (env.pair.write .a data).1.taken data = []
      rw [Pair.write, hres]
      rfl
  now f hf env t h := by
    refine h.cons rfl fun hconn => ⟨?_, rfl, rfl⟩
    rw [(hs.nowMs f hf env).1]
    exact hconn
  message f hf env t topic payload h := by
    refine h.cons rfl fun hconn => ⟨?_, rfl, rfl⟩
    rw [(hs.onMessage f hf env topic payload).1]
    exact hconn

theorem Wired.keepsConnectFirst {s : Setup (Net ρ)} (hs : Wired s) :
    s.KeepsConnect FirstOpening := by
  intro f hf env t h
  rw [hs.transport] at hf
  cases hf
  have hcount : openings (.connect statusOk :: t) = openings t + 1 :=
    List.countP_cons_of_pos rfl
  refine ⟨fun hzero => ?_, fun hone => ?_⟩
  · rw [show openings (.connect (env.pair.connect .a).1 :: t) = openings t + 1 from hcount] at hzero
    cases hzero
  · obtain ⟨-, hout, hin⟩ := h.before (Nat.succ.inj (hcount.symm.trans hone))
    exact ⟨hout, hin⟩

/-- The other endpoint has nothing to do with it. -/
theorem FirstOpening.of_endpoint {n n' : Net ρ} {t : List Event} (h : FirstOpening n t)
    (hend : n'.pair.loop.endpoint .a = n.pair.loop.endpoint .a) : FirstOpening n' t where
  before hzero := hend ▸ h.before hzero
  during := h.during

/-- The events since `aemlib_init` are those of the current connection and those before it. -/
theorem sinceInit_sinceConnect (t : List Event) : ∃ past, sinceInit t = sinceConnect t ++ past := by
  induction t with
  | nil => exact ⟨[], rfl⟩
  | cons e t ih =>
    obtain ⟨past, hpast⟩ := ih
    have hcons : e :: sinceInit t = e :: sinceConnect t ++ past := congrArg (List.cons e) hpast
    cases e with
    | init => exact ⟨[], rfl⟩
    | connectCall s pending =>
      cases s with
      | disconnected => exact ⟨_, rfl⟩
      | _ => exact ⟨past, hcons⟩
    | _ => exact ⟨past, hcons⟩

/-- A connection that was not disturbed has begun before the transport connected. -/
theorem sinceConnect_sinceOpen {t : List Event} (h : Undisturbed t) :
    ∃ mid, sinceConnect t = sinceOpen t ++ mid := by
  induction t with
  | nil => exact ⟨[], rfl⟩
  | cons e t ih =>
    cases e with
    | init => exact ⟨[], rfl⟩
    | connectCall s pending =>
      have hcall := h (.connectCall s pending) List.mem_cons_self
      cases hcall
    | connect status =>
      by_cases hok : status = statusOk
      · exact ⟨_, by rw [sinceOpen, if_pos hok]; rfl⟩
      · obtain ⟨mid, hmid⟩ := ih (h.of_cons (e := .connect status) (decide_eq_false hok))
        refine ⟨mid, ?_⟩
        rw [sinceOpen_connect hok]
        exact congrArg (List.cons _) hmid
    | _ =>
      obtain ⟨mid, hmid⟩ := ih (h.of_cons rfl)
      exact ⟨mid, congrArg (List.cons _) hmid⟩

/-- On the first connection, the bytes taken since `aemlib_connect` are all that were taken. -/
theorem FirstOpening.connection {n : Net ρ} {t : List Event} (h : FirstOpening n t)
    (hone : openings t = 1) (hund : Undisturbed t) :
    accepted (sinceConnect t) = accepted (sinceInit t) := by
  obtain ⟨past, hpast⟩ := sinceInit_sinceConnect t
  obtain ⟨mid, hmid⟩ := sinceConnect_sinceOpen hund
  have hout := (h.during hone).1
  rw [hpast, hmid, accepted_append, accepted_append, ← List.append_assoc, List.append_left_eq_self,
    List.append_eq_nil_iff] at hout
  rw [hpast, accepted_append, hout.1, List.nil_append]

/-! ## End to end -/

inductive Turn (ρ : Type) where
  | client (c : Aemlib.Call (Net ρ))
  | peer (c : Call)

def Turn.move : Turn ρ → Move (Net ρ)
  | .client c => .call c
  | .peer c => .env (peerCall c)

/-- **Every byte is accounted for, end to end.** A client on a fresh pair, whose callback does not
call `aemlib_connect`, and any peer take turns in any order. No turn faults. The bytes the peer has
read and the stored ones are all that the client's transport has taken; and while a connection lasts
on which every send found nothing staged, the bytes the peer has read, the stored ones and the
staged ones are those of earlier connections followed by the packets sent on this one. In the other
direction, what the pair took from the peer is what the client has read and what is stored. -/
theorem wire_accounted {cfg : Config (Net ρ)} {w₀ w₁ : World (Net ρ)} {turns : List (Turn ρ)}
    (hwired : Wired cfg.client.setup) (htame : ∀ f, cfg.onMessage = some f → f.Tame)
    (hlog : w₀.env.log = []) (hempty : ∀ d, w₀.env.pair.stored d = [])
    (hinit : init (some cfg) w₀ = .ok (.ok (), w₁))
    (hturns : ∀ c, .client c ∈ turns → c.Contract ∧ c.isInit = false) :
    (play (turns.map Turn.move)).Returns w₁ fun _ w =>
      received w.env.log ++ w.env.pair.stored .aToB = accepted (sinceInit w.trace) ∧
      (∃ earlier, accepted (sinceInit w.trace) = earlier ++ accepted w.connection ∧
        (w.client.state ≠ .disconnected → SendsClear w.connection →
          received w.env.log ++ w.env.pair.stored .aToB ++ w.client.staged =
            earlier ++ (sentPackets w.connection).flatMap Packet.bytes)) ∧
      answered w.env.log = inbound (sinceInit w.trace) ++ w.env.pair.stored .bToA := by
  have hcontract : cfg.client.setup.Contract :=
    ⟨by rw [hwired.transport]; exact transportBind_honest, htame⟩
  have hsetup : w₁.client.setup = cfg.client.setup := init_setup hinit
  obtain ⟨hs, ha⟩ := init_attached hwired.keeps hinit hsetup
    (show Balanced w₀.env (.init :: w₀.trace) from
      ⟨by rw [hlog, hempty]; rfl, by rw [hlog, hempty]; rfl⟩)
  have hsafe : w₁.Safe := ⟨hs, hsetup ▸ hcontract⟩
  -- no turn is an `aemlib_init`, and a move of the environment is a call of the peer
  have hmove : ∀ m ∈ turns.map Turn.move, m.isInit = false ∧
      (∀ c, m = .call c → c.Contract) ∧ ∀ p, m = .env p → ∃ c, p = peerCall c := by
    intro m hm
    obtain ⟨turn, hturn, rfl⟩ := List.mem_map.mp hm
    cases turn with
    | client c =>
      obtain ⟨hc, hno⟩ := hturns c hturn
      refine ⟨hno, fun c' hc' => ?_, fun p hp => nomatch hp⟩
      cases hc'
      exact hc
    | peer c => exact ⟨rfl, fun c' hc' => (nomatch hc'), fun p hp => ⟨c, by cases hp; rfl⟩⟩
  refine (play_returns hwired.keeps hwired.keepsConnect hsafe (fun m hm => (hmove m hm).1)
    (fun c hc => (hmove _ hc).2.1 c rfl) (fun p hp env t hbal => ?_) ha).mono
    fun r w ⟨href, hattached⟩ => ?_
  · obtain ⟨c, rfl⟩ := (hmove _ hp).2.2 p rfl
    obtain ⟨r, env', hrun⟩ : ∃ r env', peerCall c env = .ok (r, env') := by
      cases c <;> exact ⟨_, _, rfl⟩
    exact ⟨r, env', hrun, peerCall_balanced t c env hbal r env' hrun⟩
  · -- the account of the pair and that of the link, put together
    obtain ⟨hout, hin⟩ := hattached.2
    obtain ⟨past, hpast⟩ := sinceInit_sinceConnect w.trace
    have hsplit : accepted (sinceInit w.trace) = accepted past ++ accepted w.connection := by
      rw [hpast, accepted_append]
      rfl
    refine ⟨hout.symm, ⟨accepted past, hsplit, fun hstate hclear => ?_⟩, hin⟩
    have haccount := href.invariant hinit
      (P := fun l => l.state ≠ .disconnected → SendsClear (sinceConnect l.trace) → l.Accounted)
      (fun _ _ _ hs => absurd rfl hs) accounted_step hstate hclear
    rw [← hout, hsplit, List.append_assoc]
    exact congrArg _ haccount

/-- A pair that was just set up over the given storage. -/
def Pair.fresh (storageAB storageBA : List UInt8)
    (hAB : 1 ≤ storageAB.length ∧ storageAB.length ≤ sizeMax / 2)
    (hBA : 1 ≤ storageBA.length ∧ storageBA.length ≤ sizeMax / 2) : Pair :=
  ⟨Loopback.zero.setUp storageAB storageBA, Loopback.zero.setUp_valid hAB hBA⟩

theorem Pair.stored_fresh {storageAB storageBA : List UInt8}
    (hAB : 1 ≤ storageAB.length ∧ storageAB.length ≤ sizeMax / 2)
    (hBA : 1 ≤ storageBA.length ∧ storageBA.length ≤ sizeMax / 2) (d : Direction) :
    (Pair.fresh storageAB storageBA hAB hBA).stored d = [] := by
  cases d <;> rfl

/-- A client on the endpoint `a`, with buffers of the given sizes and a clock that stands still. -/
def Net.config (txSize rxSize : Fin (2 ^ 64)) (keepaliveMs : UInt64)
    (onMessage : Option (MessageFn (Net ρ))) : Config (Net ρ) :=
  .zeroed transportBind (fun n => (0, n)) keepaliveMs onMessage txSize rxSize

theorem Net.config_wired (txSize rxSize : Fin (2 ^ 64)) (keepaliveMs : UInt64)
    (onMessage : Option (MessageFn (Net ρ)))
    (h : ∀ f, onMessage = some f → ∀ n topic payload,
      (f n topic payload).2.pair = n.pair ∧ (f n topic payload).2.log = n.log) :
    Wired (Net.config txSize rxSize keepaliveMs onMessage).client.setup where
  transport := rfl
  nowMs f hf n := by
    cases hf
    exact ⟨rfl, rfl⟩
  onMessage := h

/-- A CONNECT of fourteen bytes through a channel of ten, and a CONNACK back. -/
def slowHandshake : List (Turn Unit) :=
  [.peer .connect, .client (.request .connect), .client .poll, .peer (.read 6), .client .poll,
    .peer (.write [0x20, 2, 0]), .client .poll, .peer (.write [0]), .client .poll]

/-- The peer has read six of the fourteen bytes, and the rest is stored. -/
theorem wire_accounted_slow :
    ∃ w : World (Net Unit), w.client.state = .mqttConnected ∧
      received w.env.log = [0x10, 12, 0, 4, 0x4D, 0x51] ∧
      ∃ earlier, received w.env.log ++ w.env.pair.stored .aToB ++ w.client.staged =
        earlier ++ (sentPackets w.connection).flatMap Packet.bytes := by
  obtain ⟨w₁, w, hinit, hsetup, hplay, hstate, hclear, hread⟩ := exists_played
    (P := fun w : World (Net Unit) => w.client.state = .mqttConnected ∧ SendsClear w.connection ∧
      received w.env.log = [0x10, 12, 0, 4, 0x4D, 0x51])
    (Net.config 32 16 60000 none)
    ⟨Pair.fresh (List.replicate 10 0) [0, 0, 0] (by decide) (by decide), [], ()⟩
    (slowHandshake.map Turn.move) (by decide +kernel)
  obtain ⟨r, w', hplay', -, ⟨earlier, -, haccount⟩, -⟩ := wire_accounted
    (Net.config_wired 32 16 60000 none fun f hf => nomatch hf) (fun f hf => nomatch hf) rfl
    (Pair.stored_fresh (by decide) (by decide)) hinit
    (show ∀ c, .client c ∈ slowHandshake → c.Contract ∧ c.isInit = false by
      simp [slowHandshake, Aemlib.Call.Contract, Call.isInit, Request.Fits])
  rw [hplay] at hplay'
  cases hplay'
  exact ⟨w, hstate, hread, earlier, haccount (by rw [hstate]; decide) hclear⟩

end Virtual

end Aemlib
