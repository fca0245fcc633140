import Aemlib.World
import Aemlib.Machine.Ring

/-!
# The virtual transport (`platform/virtual_transport.c`)

Two endpoints in one process, joined by two channels, one for each direction. A channel is a ring
buffer over the caller's storage. An endpoint names its channels; here a channel pointer is the
`Direction` it was wired to.

The functions are the source's, with the arithmetic of `size_t`, and fault where C has no defined
result: at an index outside of the storage and at a remainder by zero.

What the pair is for is said without rings: in each direction, the bytes that were read followed
by those still stored are the bytes that were accepted (`loopback_fifo`).
-/

namespace Aemlib

open Machine

namespace Virtual

/-! ## Channels -/

/-- `aemlib_virtual_channel_t`. `buf` is the storage behind the pointer. -/
structure Channel where
  buf : List UInt8
  bufSize : Nat
  head : Nat
  len : Nat
  deriving DecidableEq, Repr

def channelInit (buf : List UInt8) (bufSize : Nat) : Channel where
  buf := buf
  bufSize := bufSize
  head := 0
  len := 0

/-- The loop of `channel_write`: `left` bytes to go, the next one from `data[i]`. -/
def channelWriteLoop (data : List UInt8) (bufSize tail : Nat) :
    (left i : Nat) → (buf : List UInt8) → Except Fault (List UInt8)
  | 0, _, buf => .ok buf
  | left + 1, i, buf => do
    let b ← fetch data i
    let j ← checkedMod (sizeAdd tail i) bufSize
    let buf ← store buf j [b]
    channelWriteLoop data bufSize tail left (i + 1) buf

def channelWrite (ch : Channel) (data : List UInt8) : Except Fault (WriteResult × Channel) := do
  let len := data.length
  let space ← checkedSub ch.bufSize ch.len
  let n := if len < space then len else space
  let tail ← checkedMod (sizeAdd ch.head ch.len) ch.bufSize
  let buf ← channelWriteLoop data ch.bufSize tail n 0 ch.buf
  let ch := { ch with buf := buf, len := sizeAdd ch.len n }
  -- nothing taken of something offered: the channel is full
  if n = 0 ∧ len > 0 then
    return ({ status := ioWouldBlock, outLen := n }, ch)
  return ({ status := statusOk, outLen := n }, ch)

/-- The loop of `channel_read`: `left` bytes to go, the next one to `buf[i]`. The caller's buffer
is as long as what has been copied to it. -/
def channelReadLoop (ch : Channel) :
    (left i : Nat) → (buf : List UInt8) → Except Fault (List UInt8)
  | 0, _, buf => .ok buf
  | left + 1, i, buf => do
    let j ← checkedMod (sizeAdd ch.head i) ch.bufSize
    let b ← fetch ch.buf j
    channelReadLoop ch left (i + 1) (buf ++ [b])

def channelRead (ch : Channel) (len : Nat) : Except Fault (ReadResult × Channel) := do
  let n := if len < ch.len then len else ch.len
  let buf ← channelReadLoop ch n 0 []
  let head ← checkedMod (sizeAdd ch.head n) ch.bufSize
  let left ← checkedSub ch.len n
  return ({ status := statusOk, data := buf }, { ch with head := head, len := left })

/-! ## Endpoints -/

inductive Direction where
  | aToB
  | bToA
  deriving DecidableEq, Repr

inductive Side where
  | a
  | b
  deriving DecidableEq, Repr

structure Endpoint where
  tx : Direction
  rx : Direction
  connected : Bool
  deriving DecidableEq, Repr

/-- The memory of a pair: two endpoints and two channels on disjoint storage. -/
structure Loopback where
  a : Endpoint
  b : Endpoint
  aToB : Channel
  bToA : Channel
  deriving DecidableEq, Repr

namespace Loopback

def endpoint (s : Loopback) : Side → Endpoint
  | .a => s.a
  | .b => s.b

def setEndpoint (s : Loopback) (side : Side) (e : Endpoint) : Loopback :=
  match side with
  | .a => { s with a := e }
  | .b => { s with b := e }

def channel (s : Loopback) : Direction → Channel
  | .aToB => s.aToB
  | .bToA => s.bToA

def setChannel (s : Loopback) (d : Direction) (ch : Channel) : Loopback :=
  match d with
  | .aToB => { s with aToB := ch }
  | .bToA => { s with bToA := ch }

def pairInit (s : Loopback) : Loopback :=
  { s with
    a := { tx := .aToB, rx := .bToA, connected := false }
    b := { tx := .bToA, rx := .aToB, connected := false } }

def vtConnect (s : Loopback) (side : Side) : Status × Loopback :=
  (statusOk, s.setEndpoint side { s.endpoint side with connected := true })

def vtDisconnect (s : Loopback) (side : Side) : Status × Loopback :=
  (statusOk, s.setEndpoint side { s.endpoint side with connected := false })

/-- `vt_read`. A closed endpoint leaves `out_len` alone. -/
def vtRead (s : Loopback) (side : Side) (len : Nat) : Except Fault (ReadResult × Loopback) := do
  let vt := s.endpoint side
  if ¬ vt.connected then
    return ({ status := mkStatus .io .closed, data := [] }, s)
  let (result, ch) ← channelRead (s.channel vt.rx) len
  return (result, s.setChannel vt.rx ch)

/-- `vt_write`. A closed endpoint leaves `out_len` alone. -/
def vtWrite (s : Loopback) (side : Side) (data : List UInt8) :
    Except Fault (WriteResult × Loopback) := do
  let vt := s.endpoint side
  if ¬ vt.connected then
    return ({ status := mkStatus .io .closed, outLen := 0 }, s)
  let (result, ch) ← channelWrite (s.channel vt.tx) data
  return (result, s.setChannel vt.tx ch)

/-- Both channels set up over the given storage, and the endpoints wired to them. What was in the
memory before does not matter. -/
def setUp (s : Loopback) (storageAB storageBA : List UInt8) : Loopback :=
  { s with
    aToB := channelInit storageAB storageAB.length
    bToA := channelInit storageBA storageBA.length }.pairInit

end Loopback

/-! ## Runs -/

inductive Call where
  | connect
  | disconnect
  | read (len : Nat)
  | write (data : List UInt8)
  deriving DecidableEq, Repr

/-- A call with what it answered. -/
inductive Exchange where
  | connect (status : Status)
  | disconnect (status : Status)
  | read (len : Nat) (result : ReadResult)
  | write (data : List UInt8) (result : WriteResult)
  deriving DecidableEq, Repr

def Exchange.call : Exchange → Call
  | .connect _ => .connect
  | .disconnect _ => .disconnect
  | .read len _ => .read len
  | .write data _ => .write data

def Loopback.call (s : Loopback) (side : Side) : Call → Except Fault (Exchange × Loopback)
  | .connect => .ok (.connect (s.vtConnect side).1, (s.vtConnect side).2)
  | .disconnect => .ok (.disconnect (s.vtDisconnect side).1, (s.vtDisconnect side).2)
  | .read len => do
    let (result, s) ← s.vtRead side len
    return (.read len result, s)
  | .write data => do
    let (result, s) ← s.vtWrite side data
    return (.write data result, s)

/-- Make calls in any order on the two sides, and note what they answer. -/
def Loopback.run (s : Loopback) :
    List (Side × Call) → Except Fault (List (Side × Exchange) × Loopback)
  | [] => .ok ([], s)
  | (side, c) :: calls => do
    let (x, s) ← s.call side c
    let (xs, s) ← s.run calls
    return ((side, x) :: xs, s)

/-! ## A channel is a bounded queue -/

abbrev sizeMax : Nat := 2 ^ 64 - 1

/-- A channel whose head and length are within its storage. Storage of at most half of the address
space keeps the index arithmetic below the size of `size_t`. -/
structure Channel.Valid (ch : Channel) : Prop where
  owned : ch.buf.length = ch.bufSize
  pos : 1 ≤ ch.bufSize
  small : ch.bufSize ≤ sizeMax / 2
  headLt : ch.head < ch.bufSize
  lenLe : ch.len ≤ ch.bufSize

/-- The stored bytes, oldest first. -/
def Channel.contents (ch : Channel) : List UInt8 := Ring.window ch.buf ch.head ch.len

def Channel.space (ch : Channel) : Nat := ch.bufSize - ch.len

/-- The sum of two indices of a channel is a `size_t`. -/
theorem Channel.Valid.twice_lt {ch : Channel} (h : ch.Valid) :
    ch.bufSize + ch.bufSize < 2 ^ 64 := by
  have hsmall : ch.bufSize ≤ (2 ^ 64 - 1) / 2 := h.small
  omega

theorem Channel.Valid.length_contents {ch : Channel} (h : ch.Valid) :
    ch.contents.length = ch.len := by
  apply Ring.length_window
  rw [h.owned]
  exact h.pos

theorem channelInit_valid {storage : List UInt8} (hpos : 1 ≤ storage.length)
    (hsmall : storage.length ≤ sizeMax / 2) : (channelInit storage storage.length).Valid where
  owned := rfl
  pos := hpos
  small := hsmall
  headLt := hpos
  lenLe := Nat.zero_le _

/-- The writing loop goes round the ring. -/
theorem channelWriteLoop_eq {data buf : List UInt8} {bufSize tail left i : Nat}
    (howned : buf.length = bufSize) (hpos : 0 < bufSize) (hsize : tail + i + left < 2 ^ 64)
    (hdata : i + left ≤ data.length) :
    channelWriteLoop data bufSize tail left i buf =
      .ok (Ring.fill buf (tail + i) ((data.drop i).take left)) := by
  -- one turn writes one cell; the induction is on the bytes still to go
  induction left generalizing i buf with
  | zero => rfl
  | succ left ih =>
    have hi : i < data.length := by omega
    have hfetch : fetch data i = .ok data[i] := fetch_of_lt hi
    have hmod : checkedMod (sizeAdd tail i) bufSize = .ok ((tail + i) % bufSize) := by
      rw [sizeAdd_of_lt (by omega), checkedMod_of_pos _ hpos]
    have hstore : store buf ((tail + i) % bufSize) [data[i]] =
        .ok (buf.set ((tail + i) % bufSize) data[i]) := by
      apply store_singleton
      rw [howned]
      exact Nat.mod_lt _ hpos
    have hlen : (buf.set ((tail + i) % bufSize) data[i]).length = bufSize := by
      rw [List.length_set, howned]
    have hrest := ih hlen (show tail + (i + 1) + left < 2 ^ 64 by omega) (by omega)
    rw [channelWriteLoop, hfetch, List.drop_eq_getElem_cons hi, List.take_succ_cons, Ring.fill,
      howned]
    simp only [bind, Except.bind, hmod, hstore]
    exact hrest

/-- The reading loop goes round the ring. -/
theorem channelReadLoop_eq {ch : Channel} (h : ch.Valid) {left i : Nat} (buf : List UInt8)
    (hsize : ch.head + i + left < 2 ^ 64) :
    channelReadLoop ch left i buf = .ok (buf ++ Ring.window ch.buf (ch.head + i) left) := by
  induction left generalizing i buf with
  | zero => simp [channelReadLoop]
  | succ left ih =>
    have hpos : 0 < ch.buf.length := by
      rw [h.owned]
      exact h.pos
    have hmod : checkedMod (sizeAdd ch.head i) ch.bufSize =
        .ok ((ch.head + i) % ch.buf.length) := by
      rw [sizeAdd_of_lt (by omega), checkedMod_of_pos _ h.pos, h.owned]
    have hcell := Ring.getElem?_position hpos (ch.head + i)
    have hfetch := fetch_eq_ok.mpr hcell
    have hrest := ih (buf ++ [ch.buf.get ⟨(ch.head + i) % ch.buf.length, Nat.mod_lt _ hpos⟩])
      (show ch.head + (i + 1) + left < 2 ^ 64 by omega)
    rw [channelReadLoop, hmod, Ring.window, hcell, ← List.append_assoc]
    simp only [bind, Except.bind, hfetch]
    exact hrest

/-- A write takes what there is room for, and appends it. -/
theorem channelWrite_eq {ch : Channel} (h : ch.Valid) (data : List UInt8) :
    ∃ ch', channelWrite ch data =
        .ok (⟨if ch.space = 0 ∧ 0 < data.length then ioWouldBlock else statusOk,
          min data.length ch.space⟩, ch') ∧
      ch'.Valid ∧ ch'.bufSize = ch.bufSize ∧
      ch'.contents = ch.contents ++ data.take (min data.length ch.space) := by
  have htwice := h.twice_lt
  obtain ⟨howned, hpos, hsmall, hhead, hlen⟩ := h
  have hsub : checkedSub ch.bufSize ch.len = .ok ch.space := checkedSub_eq_ok.mpr ⟨hlen, rfl⟩
  have hn : (if data.length < ch.space then data.length else ch.space) =
      min data.length ch.space := by
    split <;> omega
  have htail : checkedMod (sizeAdd ch.head ch.len) ch.bufSize =
      .ok ((ch.head + ch.len) % ch.bufSize) := by
    rw [sizeAdd_of_lt (by omega), checkedMod_of_pos _ hpos]
  have htailLt : (ch.head + ch.len) % ch.bufSize < ch.bufSize := Nat.mod_lt _ hpos
  have hspace : ch.len + min data.length ch.space ≤ ch.bufSize := by
    unfold Channel.space
    omega
  -- head and tail are below the size and the size is at most half of a size_t, so no sum wraps
  have hloop := channelWriteLoop_eq howned hpos
    (show (ch.head + ch.len) % ch.bufSize + 0 + min data.length ch.space < 2 ^ 64 by omega)
    (show 0 + min data.length ch.space ≤ data.length by omega)
  rw [List.drop_zero, Nat.add_zero] at hloop
  refine ⟨{ ch with
      buf := Ring.fill ch.buf ((ch.head + ch.len) % ch.bufSize)
        (data.take (min data.length ch.space))
      len := ch.len + min data.length ch.space }, ?_, ?_, rfl, ?_⟩
  · have hadd : sizeAdd ch.len (min data.length ch.space) =
        ch.len + min data.length ch.space := sizeAdd_of_lt (by omega)
    have hnone : (min data.length ch.space = 0 ∧ 0 < data.length) ↔
        (ch.space = 0 ∧ 0 < data.length) := by omega
    unfold channelWrite
    simp only [bind, Except.bind, hsub, hn, htail, hloop, hadd, gt_iff_lt, hnone]
    split <;> rfl
  · exact ⟨by rw [Ring.length_fill, howned], hpos, hsmall, hhead, hspace⟩
  · have hlenData : (data.take (min data.length ch.space)).length = min data.length ch.space := by
      rw [List.length_take]
      omega
    have hroom : ch.len + (data.take (min data.length ch.space)).length ≤ ch.buf.length := by omega
    -- the new bytes go where the stored ones end, around the end of the storage or not
    have hwindow := Ring.window_fill ch.head hroom
    rw [hlenData] at hwindow
    have hmod : (ch.head + ch.len) % ch.bufSize % ch.buf.length =
        (ch.head + ch.len) % ch.buf.length := by
      rw [howned, Nat.mod_mod]
    show Ring.window (Ring.fill ch.buf ((ch.head + ch.len) % ch.bufSize) _) ch.head _ = _
    rw [Ring.fill_congr hmod]
    exact hwindow

/-- A read takes the oldest bytes. -/
theorem channelRead_eq {ch : Channel} (h : ch.Valid) (len : Nat) :
    ∃ ch', channelRead ch len = .ok (⟨statusOk, ch.contents.take len⟩, ch') ∧
      ch'.Valid ∧ ch'.bufSize = ch.bufSize ∧ ch'.contents = ch.contents.drop len := by
  have htwice := h.twice_lt
  obtain ⟨howned, hpos, hsmall, hhead, hlen⟩ := id h
  have hn : (if len < ch.len then len else ch.len) = min len ch.len := by
    split <;> omega
  have hloop := channelReadLoop_eq h [] (show ch.head + 0 + min len ch.len < 2 ^ 64 by omega)
  rw [List.nil_append, Nat.add_zero] at hloop
  have hmod : checkedMod (sizeAdd ch.head (min len ch.len)) ch.bufSize =
      .ok ((ch.head + min len ch.len) % ch.bufSize) := by
    rw [sizeAdd_of_lt (by omega), checkedMod_of_pos _ hpos]
  have hsub : checkedSub ch.len (min len ch.len) = .ok (ch.len - min len ch.len) :=
    checkedSub_eq_ok.mpr ⟨by omega, rfl⟩
  -- the stored bytes fall apart where the read stops
  have hsplit : ch.contents = Ring.window ch.buf ch.head (min len ch.len) ++
      Ring.window ch.buf (ch.head + min len ch.len) (ch.len - min len ch.len) := by
    rw [← Ring.window_add, Nat.add_sub_cancel' (Nat.min_le_right _ _)]
    rfl
  have hfront : (Ring.window ch.buf ch.head (min len ch.len)).length = min len ch.len := by
    apply Ring.length_window
    omega
  have hmin : ch.contents.take len = ch.contents.take (min len ch.len) ∧
      ch.contents.drop len = ch.contents.drop (min len ch.len) := by
    have hlength := h.length_contents
    rcases Nat.le_total len ch.len with hle | hle
    · rw [Nat.min_eq_left hle]
      exact ⟨rfl, rfl⟩
    · rw [Nat.min_eq_right hle, List.take_of_length_le (by omega),
        List.take_of_length_le (by omega), List.drop_eq_nil_of_le (by omega),
        List.drop_eq_nil_of_le (by omega)]
      exact ⟨rfl, rfl⟩
  refine ⟨{ ch with
      head := (ch.head + min len ch.len) % ch.bufSize
      len := ch.len - min len ch.len }, ?_, ?_, rfl, ?_⟩
  · unfold channelRead
    simp only [bind, Except.bind, hn, hloop, hmod, hsub]
    rw [hmin.1, hsplit, List.take_left' hfront]
    rfl
  · exact ⟨howned, hpos, hsmall, Nat.mod_lt _ hpos, by
      show ch.len - min len ch.len ≤ ch.bufSize
      omega⟩
  · rw [hmin.2, hsplit, List.drop_left' hfront]
    apply Ring.window_congr
    rw [howned, Nat.mod_mod]

/-! ## The pair is two queues -/

def Side.writes : Side → Direction
  | .a => .aToB
  | .b => .bToA

/-- The direction a side reads from: what the other side writes. -/
def Side.reads : Side → Direction
  | .a => .bToA
  | .b => .aToB

/-- The bytes that a call put into a direction. -/
def Exchange.accepted (d : Direction) : Side × Exchange → List UInt8
  | (side, .write data res) => if side.writes = d then data.take res.outLen else []
  | _ => []

/-- The bytes that a call got out of a direction. -/
def Exchange.returned (d : Direction) : Side × Exchange → List UInt8
  | (side, .read _ res) => if side.reads = d then res.data else []
  | _ => []

/-- Of the connects and disconnects on a side, the last is a connect. -/
def StandsOpen (side : Side) (calls : List (Side × Call)) : Prop :=
  ∃ before after, calls = before ++ (side, .connect) :: after ∧ (side, .disconnect) ∉ after

/-- A pair whose endpoints are cross-wired and whose channels are valid. -/
structure Loopback.Valid (s : Loopback) : Prop where
  tx : ∀ side, (s.endpoint side).tx = side.writes
  rx : ∀ side, (s.endpoint side).rx = side.reads
  channel : ∀ d, (s.channel d).Valid

namespace Loopback

@[simp] theorem channel_setEndpoint (s : Loopback) (side : Side) (e : Endpoint) (d : Direction) :
    (s.setEndpoint side e).channel d = s.channel d := by
  cases side <;> cases d <;> rfl

@[simp] theorem endpoint_setChannel (s : Loopback) (d : Direction) (ch : Channel) (side : Side) :
    (s.setChannel d ch).endpoint side = s.endpoint side := by
  cases side <;> cases d <;> rfl

theorem endpoint_setEndpoint (s : Loopback) (side side' : Side) (e : Endpoint) :
    (s.setEndpoint side e).endpoint side' = if side = side' then e else s.endpoint side' := by
  cases side <;> cases side' <;> rfl

theorem channel_setChannel (s : Loopback) (d d' : Direction) (ch : Channel) :
    (s.setChannel d ch).channel d' = if d = d' then ch else s.channel d' := by
  cases d <;> cases d' <;> rfl

/-- Opening or closing an endpoint leaves the wiring and both channels. -/
theorem Valid.setEndpoint {s : Loopback} (h : s.Valid) (side : Side) (connected : Bool) :
    (s.setEndpoint side { s.endpoint side with connected := connected }).Valid where
  tx side' := by
    rw [endpoint_setEndpoint]
    split
    · next heq =>
      subst heq
      exact h.tx side
    · exact h.tx side'
  rx side' := by
    rw [endpoint_setEndpoint]
    split
    · next heq =>
      subst heq
      exact h.rx side
    · exact h.rx side'
  channel d := by
    rw [channel_setEndpoint]
    exact h.channel d

theorem Valid.setChannel {s : Loopback} (h : s.Valid) (d : Direction) {ch : Channel}
    (hch : ch.Valid) : (s.setChannel d ch).Valid where
  tx side := by
    rw [endpoint_setChannel]
    exact h.tx side
  rx side := by
    rw [endpoint_setChannel]
    exact h.rx side
  channel d' := by
    rw [channel_setChannel]
    split
    · exact hch
    · exact h.channel d'

theorem setUp_valid (s : Loopback) {storageAB storageBA : List UInt8}
    (hAB : 1 ≤ storageAB.length ∧ storageAB.length ≤ sizeMax / 2)
    (hBA : 1 ≤ storageBA.length ∧ storageBA.length ≤ sizeMax / 2) :
    (s.setUp storageAB storageBA).Valid where
  tx side := by cases side <;> rfl
  rx side := by cases side <;> rfl
  channel d := by
    cases d with
    | aToB => exact channelInit_valid hAB.1 hAB.2
    | bToA => exact channelInit_valid hBA.1 hBA.2

/-! ### One call -/

/-- What a closed endpoint does. -/
theorem vtRead_closed {s : Loopback} {side : Side} (h : (s.endpoint side).connected = false)
    (len : Nat) : s.vtRead side len = .ok (⟨mkStatus .io .closed, []⟩, s) := by
  unfold vtRead
  simp only [h, Bool.false_eq_true, not_false_eq_true, if_true]
  rfl

theorem vtWrite_closed {s : Loopback} {side : Side} (h : (s.endpoint side).connected = false)
    (data : List UInt8) : s.vtWrite side data = .ok (⟨mkStatus .io .closed, 0⟩, s) := by
  unfold vtWrite
  simp only [h, Bool.false_eq_true, not_false_eq_true, if_true]
  rfl

/-- An open endpoint reads the oldest bytes of the direction it reads from. -/
theorem vtRead_open {s : Loopback} {side : Side} (hs : s.Valid)
    (h : (s.endpoint side).connected = true) (len : Nat) :
    ∃ ch, s.vtRead side len =
        .ok (⟨statusOk, (s.channel side.reads).contents.take len⟩, s.setChannel side.reads ch) ∧
      ch.Valid ∧ ch.bufSize = (s.channel side.reads).bufSize ∧
      ch.contents = (s.channel side.reads).contents.drop len := by
  obtain ⟨ch, hrun, hvalid, hsize, hcontents⟩ := channelRead_eq (hs.channel side.reads) len
  refine ⟨ch, ?_, hvalid, hsize, hcontents⟩
  unfold vtRead
  simp only [hs.rx side, h, not_true_eq_false, if_false, bind, Except.bind, hrun]
  rfl

/-- An open endpoint writes what there is room for in the direction it writes in. -/
theorem vtWrite_open {s : Loopback} {side : Side} (hs : s.Valid)
    (h : (s.endpoint side).connected = true) (data : List UInt8) :
    ∃ ch, s.vtWrite side data =
        .ok (⟨if (s.channel side.writes).space = 0 ∧ 0 < data.length then ioWouldBlock
            else statusOk, min data.length (s.channel side.writes).space⟩,
          s.setChannel side.writes ch) ∧
      ch.Valid ∧ ch.bufSize = (s.channel side.writes).bufSize ∧
      ch.contents = (s.channel side.writes).contents ++
        data.take (min data.length (s.channel side.writes).space) := by
  obtain ⟨ch, hrun, hvalid, hsize, hcontents⟩ := channelWrite_eq (hs.channel side.writes) data
  refine ⟨ch, ?_, hvalid, hsize, hcontents⟩
  unfold vtWrite
  simp only [hs.tx side, h, not_true_eq_false, if_false, bind, Except.bind, hrun]
  rfl

theorem call_read {s s' : Loopback} {side : Side} {len : Nat} {res : ReadResult}
    (h : s.vtRead side len = .ok (res, s')) :
    s.call side (.read len) = .ok (.read len res, s') := by
  rw [call, h]
  rfl

theorem call_write {s s' : Loopback} {side : Side} {data : List UInt8} {res : WriteResult}
    (h : s.vtWrite side data = .ok (res, s')) :
    s.call side (.write data) = .ok (.write data res, s') := by
  rw [call, h]
  rfl

/-- **One call.** It ends, keeps the pair valid, and in each direction what was stored and what
was accepted now make up what was returned now and what is stored. -/
theorem call_conserves {s : Loopback} (hs : s.Valid) (side : Side) (c : Call) :
    ∃ x s', s.call side c = .ok (x, s') ∧ s'.Valid ∧ ∀ d,
      (s'.channel d).bufSize = (s.channel d).bufSize ∧
      (s.channel d).contents ++ Exchange.accepted d (side, x) =
        Exchange.returned d (side, x) ++ (s'.channel d).contents := by
  cases c with
  | connect =>
    refine ⟨_, _, rfl, hs.setEndpoint side true, ?_⟩
    intro d
    simp [vtConnect, Exchange.accepted, Exchange.returned]
  | disconnect =>
    refine ⟨_, _, rfl, hs.setEndpoint side false, ?_⟩
    intro d
    simp [vtDisconnect, Exchange.accepted, Exchange.returned]
  | read len =>
    cases hconn : (s.endpoint side).connected with
    | false =>
      refine ⟨_, _, call_read (vtRead_closed hconn len), hs, ?_⟩
      intro d
      simp [Exchange.accepted, Exchange.returned]
    | true =>
      -- what is returned are the oldest bytes, and the others stay
      obtain ⟨ch, hrun, hvalid, hsize, hcontents⟩ := vtRead_open hs hconn len
      refine ⟨_, _, call_read hrun, hs.setChannel side.reads hvalid, ?_⟩
      intro d
      rw [channel_setChannel]
      simp only [Exchange.accepted, Exchange.returned, List.append_nil]
      split
      · next hd =>
        subst hd
        rw [hcontents, List.take_append_drop]
        exact ⟨hsize, rfl⟩
      · exact ⟨rfl, rfl⟩
  | write data =>
    cases hconn : (s.endpoint side).connected with
    | false =>
      refine ⟨_, _, call_write (vtWrite_closed hconn data), hs, ?_⟩
      intro d
      simp [Exchange.accepted, Exchange.returned]
    | true =>
      -- what is accepted goes behind what is stored
      obtain ⟨ch, hrun, hvalid, hsize, hcontents⟩ := vtWrite_open hs hconn data
      refine ⟨_, _, call_write hrun, hs.setChannel side.writes hvalid, ?_⟩
      intro d
      rw [channel_setChannel]
      simp only [Exchange.accepted, Exchange.returned, List.nil_append]
      split
      · next hd =>
        subst hd
        exact ⟨hsize, hcontents.symm⟩
      · exact ⟨rfl, List.append_nil _⟩

/-- A connect opens its side, a disconnect closes it, and nothing else opens or closes anything. -/
theorem call_connected {s s' : Loopback} (hs : s.Valid) {side side' : Side} {c : Call}
    {x : Exchange} (h : s.call side c = .ok (x, s')) :
    (s'.endpoint side').connected = true ↔
      (side, c) = (side', .connect) ∨
        (side, c) ≠ (side', .disconnect) ∧ (s.endpoint side').connected = true := by
  cases c with
  | connect =>
    cases h
    rw [vtConnect, endpoint_setEndpoint]
    by_cases hside : side = side'
    · simp [hside]
    · simp [hside]
  | disconnect =>
    cases h
    rw [vtDisconnect, endpoint_setEndpoint]
    by_cases hside : side = side'
    · simp [hside]
    · simp [hside]
  | read len =>
    -- a read reaches a channel at most, and a closed endpoint not even that
    have hend : s'.endpoint side' = s.endpoint side' := by
      cases hconn : (s.endpoint side).connected with
      | false =>
        rw [call_read (vtRead_closed hconn len)] at h
        cases h
        rfl
      | true =>
        obtain ⟨ch, hrun, -⟩ := vtRead_open hs hconn len
        rw [call_read hrun] at h
        cases h
        exact endpoint_setChannel s side.reads ch side'
    simp [hend]
  | write data =>
    have hend : s'.endpoint side' = s.endpoint side' := by
      cases hconn : (s.endpoint side).connected with
      | false =>
        rw [call_write (vtWrite_closed hconn data)] at h
        cases h
        rfl
      | true =>
        obtain ⟨ch, hrun, -⟩ := vtWrite_open hs hconn data
        rw [call_write hrun] at h
        cases h
        exact endpoint_setChannel s side.writes ch side'
    simp [hend]

/-- The answer is to the call that was made. -/
theorem call_answers {s s' : Loopback} {side : Side} {c : Call} {x : Exchange}
    (h : s.call side c = .ok (x, s')) : x.call = c := by
  cases c with
  | connect | disconnect =>
    cases h
    rfl
  | read len =>
    rw [call] at h
    cases hrun : s.vtRead side len with
    | error fault =>
      rw [hrun] at h
      cases h
    | ok q =>
      rw [hrun] at h
      cases h
      rfl
  | write data =>
    rw [call] at h
    cases hrun : s.vtWrite side data with
    | error fault =>
      rw [hrun] at h
      cases h
    | ok q =>
      rw [hrun] at h
      cases h
      rfl

/-! ### Runs -/

theorem standsOpen_nil (side : Side) : ¬ StandsOpen side [] := by
  rintro ⟨before, after, h, -⟩
  exact absurd h (by simp)

theorem standsOpen_cons (side : Side) (first : Side × Call) (calls : List (Side × Call)) :
    StandsOpen side (first :: calls) ↔
      StandsOpen side calls ∨ first = (side, .connect) ∧ (side, .disconnect) ∉ calls := by
  constructor
  · rintro ⟨before, after, h, hafter⟩
    -- is the connect that counts the first call, or is it behind it?
    cases before with
    | nil =>
      obtain ⟨rfl, rfl⟩ := List.cons_eq_cons.mp h
      exact Or.inr ⟨rfl, hafter⟩
    | cons b before =>
      obtain ⟨-, rfl⟩ := List.cons_eq_cons.mp h
      exact Or.inl ⟨before, after, rfl, hafter⟩
  · rintro (⟨before, after, rfl, hafter⟩ | ⟨rfl, hafter⟩)
    · exact ⟨first :: before, after, rfl, hafter⟩
    · exact ⟨[], calls, rfl, hafter⟩

/-- **Any calls, in any order.** They are all answered. An endpoint is open at the end if it was
connected and not disconnected since, or open from the beginning and never disconnected. -/
theorem run_conserves {s : Loopback} (hs : s.Valid) (calls : List (Side × Call)) :
    ∃ xs s', s.run calls = .ok (xs, s') ∧ s'.Valid ∧
      xs.map (fun x => (x.1, x.2.call)) = calls ∧
      (∀ side, (s'.endpoint side).connected = true ↔ StandsOpen side calls ∨
        (side, .disconnect) ∉ calls ∧ (s.endpoint side).connected = true) ∧
      ∀ d, (s'.channel d).bufSize = (s.channel d).bufSize ∧
        (s.channel d).contents ++ xs.flatMap (Exchange.accepted d) =
          xs.flatMap (Exchange.returned d) ++ (s'.channel d).contents := by
  -- by induction on the calls; the account of the rest is one of the memory behind the first
  induction calls generalizing s with
  | nil =>
    refine ⟨[], s, rfl, hs, rfl, fun side => ?_, fun d => by simp⟩
    simp [standsOpen_nil]
  | cons first calls ih =>
    obtain ⟨side, c⟩ := first
    obtain ⟨x, s₁, hcall, hs₁, hone⟩ := call_conserves hs side c
    obtain ⟨xs, s', hrun, hs', hcalls, hconn, hrest⟩ := ih hs₁
    refine ⟨(side, x) :: xs, s', ?_, hs', ?_, fun side' => ?_, fun d => ?_⟩
    · rw [run, hcall]
      simp only [bind, Except.bind, hrun]
      rfl
    · rw [List.map_cons, hcalls, call_answers hcall]
    · -- of two connects the later counts, and the first call is the earliest
      rw [hconn side', call_connected hs hcall, standsOpen_cons, List.mem_cons, not_or]
      have hne : (side, c) ≠ (side', Call.disconnect) ↔ ¬ (side', Call.disconnect) = (side, c) :=
        ne_comm
      rw [hne]
      grind
    · refine ⟨(hrest d).1.trans (hone d).1, ?_⟩
      rw [List.flatMap_cons, List.flatMap_cons, ← List.append_assoc, (hone d).2,
        List.append_assoc, (hrest d).2, List.append_assoc]

end Loopback

/-- **The pair is a FIFO in each direction.** After any calls on the two endpoints, all of them
answered, the bytes returned so far and the stored ones are the bytes accepted so far, and head and
length are in range. An endpoint is open exactly if it was connected and not disconnected since. The
next read or write on an open side answers as a bounded queue does, and on a closed side it reports
`CLOSED` and does nothing. -/
theorem loopback_fifo (s : Loopback) (storageAB storageBA : List UInt8)
    (hAB : 1 ≤ storageAB.length ∧ storageAB.length ≤ sizeMax / 2)
    (hBA : 1 ≤ storageBA.length ∧ storageBA.length ≤ sizeMax / 2) (calls : List (Side × Call)) :
    ∃ xs t, (s.setUp storageAB storageBA).run calls = .ok (xs, t) ∧
      xs.map (fun x => (x.1, x.2.call)) = calls ∧
      (∀ side, (t.endpoint side).connected = true ↔ StandsOpen side calls) ∧
      (∀ d, xs.flatMap (Exchange.returned d) ++ (t.channel d).contents =
          xs.flatMap (Exchange.accepted d) ∧
        (t.channel d).head < (t.channel d).bufSize ∧
        (t.channel d).len ≤ (t.channel d).bufSize ∧
        (t.channel d).bufSize = ((s.setUp storageAB storageBA).channel d).bufSize) ∧
      (∀ side, (t.endpoint side).connected = true →
        (∀ data, ∃ status outLen t', t.vtWrite side data = .ok (⟨status, outLen⟩, t') ∧
          outLen = min data.length ((t.channel side.writes).bufSize -
            (t.channel side.writes).len) ∧
          status = if 0 < data.length ∧ (t.channel side.writes).len =
            (t.channel side.writes).bufSize then ioWouldBlock else statusOk) ∧
        (∀ len, ∃ data t', t.vtRead side len = .ok (⟨statusOk, data⟩, t') ∧
          data.length = min len (t.channel side.reads).len)) ∧
      (∀ side, (t.endpoint side).connected = false →
        (∀ data, t.vtWrite side data = .ok (⟨mkStatus .io .closed, 0⟩, t)) ∧
        (∀ len, t.vtRead side len = .ok (⟨mkStatus .io .closed, []⟩, t))) := by
  obtain ⟨xs, t, hrun, ht, hcalls, hopened, hd⟩ :=
    Loopback.run_conserves (s.setUp_valid hAB hBA) calls
  refine ⟨xs, t, hrun, hcalls, ?_, ?_, ?_, ?_⟩
  · intro side
    -- `virtual_transport_init_loopback` leaves both sides closed
    have hclosed : ((s.setUp storageAB storageBA).endpoint side).connected = false := by
      cases side <;> rfl
    rw [hopened side, hclosed]
    simp
  · intro d
    -- both rings start empty, so what was accepted is what was returned and what is stored
    have hempty : ((s.setUp storageAB storageBA).channel d).contents = [] := by
      cases d <;> rfl
    have hstored := (hd d).2
    rw [hempty, List.nil_append] at hstored
    exact ⟨hstored.symm, (ht.channel d).headLt, (ht.channel d).lenLe, (hd d).1⟩
  · intro side hconn
    constructor
    · intro data
      obtain ⟨ch, hwrite, -⟩ := Loopback.vtWrite_open ht hconn data
      refine ⟨_, _, _, hwrite, rfl, ?_⟩
      have hle := (ht.channel side.writes).lenLe
      have hfull : ((t.channel side.writes).space = 0 ∧ 0 < data.length) ↔
          (0 < data.length ∧ (t.channel side.writes).len = (t.channel side.writes).bufSize) := by
        unfold Channel.space
        omega
      simp only [hfull]
    · intro len
      obtain ⟨ch, hread, -⟩ := Loopback.vtRead_open ht hconn len
      refine ⟨_, _, hread, ?_⟩
      rw [List.length_take, (ht.channel side.reads).length_contents]
  · intro side hconn
    exact ⟨Loopback.vtWrite_closed hconn, Loopback.vtRead_closed hconn⟩

def Loopback.zero : Loopback where
  a := { tx := .aToB, rx := .aToB, connected := false }
  b := { tx := .aToB, rx := .aToB, connected := false }
  aToB := channelInit [] 0
  bToA := channelInit [] 0

/-- Fill, drain in part, refill and drain. Then the sides are closed in turn, and `a` is opened
again. -/
def refill : List (Side × Call) :=
  [(.a, .connect), (.b, .connect), (.a, .write [1, 2, 3]), (.b, .read 2), (.a, .write [4, 5, 6]),
    (.a, .write [7]), (.b, .read 3), (.a, .disconnect), (.a, .write [8]), (.b, .disconnect),
    (.b, .read 1), (.a, .connect)]

/-- A ring of four bytes that the second write goes round, and that the third finds full. A closed
side neither writes nor reads. -/
theorem loopback_fifo_refill :
    ∃ xs t, (Loopback.zero.setUp [0, 0, 0, 0] [0]).run refill = .ok (xs, t) ∧
      (.a, .write [7] ⟨ioWouldBlock, 0⟩) ∈ xs ∧
      (.a, .write [8] ⟨mkStatus .io .closed, 0⟩) ∈ xs ∧
      (.b, .read 1 ⟨mkStatus .io .closed, []⟩) ∈ xs ∧
      xs.flatMap (Exchange.returned .aToB) = [1, 2, 3, 4, 5] ∧ (t.channel .aToB).contents = [6] ∧
      xs.flatMap (Exchange.returned .aToB) ++ (t.channel .aToB).contents =
        xs.flatMap (Exchange.accepted .aToB) ∧
      (t.endpoint .a).connected = true ∧ (t.endpoint .b).connected = false := by
  obtain ⟨xs, t, hrun, -, hopen, hd, -⟩ :=
    loopback_fifo Loopback.zero [0, 0, 0, 0] [0] (by decide) (by decide) refill
  have heval : ((Loopback.zero.setUp [0, 0, 0, 0] [0]).run refill).toOption.map
      (fun end_ => (end_.1.drop 5, end_.1.flatMap (Exchange.returned .aToB),
        (end_.2.channel .aToB).contents, (end_.2.endpoint .b).connected)) =
      some ([(.a, .write [7] ⟨ioWouldBlock, 0⟩), (.b, .read 3 ⟨statusOk, [3, 4, 5]⟩),
        (.a, .disconnect statusOk), (.a, .write [8] ⟨mkStatus .io .closed, 0⟩),
        (.b, .disconnect statusOk), (.b, .read 1 ⟨mkStatus .io .closed, []⟩),
        (.a, .connect statusOk)], [1, 2, 3, 4, 5], [6], false) := by decide
  rw [hrun] at heval
  obtain ⟨hanswers, hreturned, hstored, hclosed⟩ :
      xs.drop 5 = _ ∧ _ = _ ∧ _ = _ ∧ _ = _ := by
    simpa only [Except.toOption, Option.map_some, Option.some.injEq, Prod.mk.injEq] using heval
  have hmem : ∀ x ∈ xs.drop 5, x ∈ xs := fun x hx => List.mem_of_mem_drop hx
  rw [hanswers] at hmem
  refine ⟨xs, t, hrun, hmem _ (by simp), hmem _ (by simp), hmem _ (by simp), hreturned, hstored,
    (hd .aToB).1, (hopen .a).mpr ⟨refill.take 11, [], rfl, by simp⟩, hclosed⟩

end Virtual

end Aemlib
