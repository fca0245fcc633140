import Mathlib.Data.List.Basic

/-!
# Bounds-checked buffers

A buffer is the list of the cells a pointer owns, no more: an access outside of it has no defined
result and is a `Fault`. Unsigned subtraction is checked in the same way (`checkedSub`): below
zero it wraps to a huge length in C, which is the fault a length computation must never reach, so
a run that would wrap stops there instead of carrying the wrapped value on.

`move` is `memmove` (the source is read whole before the destination is written), and `store` is
`memcpy` from memory disjoint from the buffer.
-/

namespace Machine

/-- Where a run leaves the defined behaviour of the program. -/
inductive Fault where
  | outOfBounds
  | underflow
  | divisionByZero
  | outOfFuel
  deriving DecidableEq, Repr

variable {α : Type}

def fetch (buf : List α) (i : Nat) : Except Fault α :=
  match buf[i]? with
  | some a => .ok a
  | none => .error .outOfBounds

def load (buf : List α) (off n : Nat) : Except Fault (List α) :=
  if off + n ≤ buf.length then .ok ((buf.drop off).take n) else .error .outOfBounds

def store (buf : List α) (off : Nat) (data : List α) : Except Fault (List α) :=
  if off + data.length ≤ buf.length then
    .ok (buf.take off ++ data ++ buf.drop (off + data.length))
  else .error .outOfBounds

/-- Copy `n` cells from index `src` to index `dst` of the same buffer; the two may overlap. -/
def move (buf : List α) (dst src n : Nat) : Except Fault (List α) := do
  let data ← load buf src n
  store buf dst data

/-- `a - b`, where a result below zero is a fault. -/
def checkedSub (a b : Nat) : Except Fault Nat :=
  if b ≤ a then .ok (a - b) else .error .underflow

/-- `a % b`, where a zero divisor is a fault. -/
def checkedMod (a b : Nat) : Except Fault Nat :=
  if 0 < b then .ok (a % b) else .error .divisionByZero

/-! ## What an access that succeeds says -/

theorem fetch_eq_ok {buf : List α} {i : Nat} {a : α} : fetch buf i = .ok a ↔ buf[i]? = some a := by
  unfold fetch
  cases buf[i]? <;> simp

theorem fetch_of_lt {buf : List α} {i : Nat} (h : i < buf.length) : fetch buf i = .ok buf[i] := by
  rw [fetch_eq_ok, List.getElem?_eq_getElem h]

theorem load_eq_ok {buf : List α} {off n : Nat} {data : List α} :
    load buf off n = .ok data ↔ off + n ≤ buf.length ∧ data = (buf.drop off).take n := by
  unfold load
  split
  · next h => simp [h, eq_comm]
  · next h => simp [h]

/-- A cell behind `front`. -/
theorem fetch_append (front rest : List α) (i : Nat) :
    fetch (front ++ rest) (front.length + i) = fetch rest i := by
  rw [fetch, fetch, List.getElem?_append_right (Nat.le_add_right _ _), Nat.add_sub_cancel_left]

/-- The cells of `data`, behind `front`. -/
theorem load_append (front data rest : List α) :
    load (front ++ (data ++ rest)) front.length data.length = .ok data := by
  refine load_eq_ok.mpr ⟨?_, ?_⟩
  · simp only [List.length_append]
    omega
  · rw [List.drop_left, List.take_left]

theorem store_eq_ok {buf : List α} {off : Nat} {data buf' : List α} :
    store buf off data = .ok buf' ↔
      off + data.length ≤ buf.length ∧
        buf' = buf.take off ++ data ++ buf.drop (off + data.length) := by
  unfold store
  split
  · next h => simp [h, eq_comm]
  · next h => simp [h]

theorem checkedSub_eq_ok {a b c : Nat} : checkedSub a b = .ok c ↔ b ≤ a ∧ c = a - b := by
  unfold checkedSub
  split
  · next h => simp [h, eq_comm]
  · next h => simp [h]

theorem checkedMod_of_pos {b : Nat} (a : Nat) (h : 0 < b) : checkedMod a b = .ok (a % b) :=
  if_pos h

theorem length_of_store {buf data buf' : List α} {off : Nat} (h : store buf off data = .ok buf') :
    buf'.length = buf.length := by
  obtain ⟨hle, rfl⟩ := store_eq_ok.mp h
  simp only [List.length_append, List.length_take, List.length_drop]
  omega

/-- A store leaves everything before it and extends it by the stored cells. -/
theorem take_of_store {buf data buf' : List α} {off : Nat} (h : store buf off data = .ok buf') :
    buf'.take (off + data.length) = buf.take off ++ data := by
  obtain ⟨hle, rfl⟩ := store_eq_ok.mp h
  have hlen : (buf.take off ++ data).length = off + data.length := by
    simp only [List.length_append, List.length_take]
    omega
  rw [← hlen, List.take_left]

/-- Cells past the end of a store are as before. -/
theorem drop_of_store {buf data buf' : List α} {off : Nat} (h : store buf off data = .ok buf') :
    buf'.drop (off + data.length) = buf.drop (off + data.length) := by
  obtain ⟨hle, rfl⟩ := store_eq_ok.mp h
  have hlen : (buf.take off ++ data).length = off + data.length := by
    simp only [List.length_append, List.length_take]
    omega
  rw [← hlen, List.drop_left, hlen]

/-- Cells before a store are as before. -/
theorem take_of_store_le {buf data buf' : List α} {off k : Nat}
    (h : store buf off data = .ok buf') (hk : k ≤ off) : buf'.take k = buf.take k := by
  obtain ⟨hle, rfl⟩ := store_eq_ok.mp h
  rw [List.append_assoc, List.take_append_of_le_length, List.take_take, Nat.min_eq_left hk]
  rw [List.length_take]
  omega

/-- The stored cells are where they were stored. -/
theorem slice_of_store {buf data buf' : List α} {off : Nat} (h : store buf off data = .ok buf') :
    (buf'.drop off).take data.length = data := by
  obtain ⟨hle, rfl⟩ := store_eq_ok.mp h
  have hlen : (buf.take off).length = off := by
    rw [List.length_take]
    omega
  rw [List.append_assoc, List.drop_left' hlen, List.take_left]

/-- The cell that `data`, stored from index `off` on, puts at index `i`, if it reaches that far. -/
def slot (off : Nat) (data : List α) (i : Nat) : Option α :=
  if off ≤ i then data[i - off]? else none

/-- A store, cell by cell. -/
theorem getElem?_of_store {buf data buf' : List α} {off : Nat} (h : store buf off data = .ok buf')
    (i : Nat) : buf'[i]? = (slot off data i).or buf[i]? := by
  obtain ⟨hle, rfl⟩ := store_eq_ok.mp h
  have hlen : (buf.take off).length = off := by
    rw [List.length_take]
    omega
  rw [List.append_assoc, slot]
  split
  · next hoff =>
    rw [List.getElem?_append_right (by omega), hlen]
    by_cases hin : i - off < data.length
    · rw [List.getElem?_append_left hin, List.getElem?_eq_getElem hin, Option.some_or]
    · have hnone : data[i - off]? = none := List.getElem?_eq_none (by omega)
      rw [List.getElem?_append_right (by omega), List.getElem?_drop, hnone, Option.none_or]
      congr 1
      omega
  · next hoff =>
    rw [List.getElem?_append_left (by omega), List.getElem?_take_of_lt (by omega), Option.none_or]

/-- Storing one cell is an assignment. -/
theorem store_singleton {buf : List α} {i : Nat} (a : α) (h : i < buf.length) :
    store buf i [a] = .ok (buf.set i a) := by
  apply store_eq_ok.mpr
  refine ⟨h, ?_⟩
  rw [List.set_eq_take_append_cons_drop, if_pos h, List.append_assoc]
  rfl

/-- Two stores side by side are one. -/
theorem store_append {buf buf₁ buf₂ d₁ d₂ : List α} {off : Nat}
    (h₁ : store buf off d₁ = .ok buf₁) (h₂ : store buf₁ (off + d₁.length) d₂ = .ok buf₂) :
    store buf off (d₁ ++ d₂) = .ok buf₂ := by
  obtain ⟨hle, rfl⟩ := store_eq_ok.mp h₂
  rw [length_of_store h₁] at hle
  refine store_eq_ok.mpr ⟨by rw [List.length_append]; omega, ?_⟩
  rw [take_of_store h₁, List.length_append, ← Nat.add_assoc, ← List.drop_drop,
    drop_of_store h₁, List.drop_drop]
  simp only [List.append_assoc]

theorem move_eq_ok {buf buf' : List α} {dst src n : Nat} :
    move buf dst src n = .ok buf' ↔
      src + n ≤ buf.length ∧ store buf dst ((buf.drop src).take n) = .ok buf' := by
  unfold move load
  split
  · next h => simp [h, bind, Except.bind]
  · next h => simp [h, bind, Except.bind]

/-- The buffer after `n` cells from index `src` on have been moved to its front. -/
def slide (buf : List α) (src n : Nat) : List α := (buf.drop src).take n ++ buf.drop n

theorem move_zero_eq (buf : List α) (src n : Nat) (h : src + n ≤ buf.length) :
    move buf 0 src n = .ok (slide buf src n) := by
  have hlen : ((buf.drop src).take n).length = n := by
    simp only [List.length_take, List.length_drop]
    omega
  refine move_eq_ok.mpr ⟨h, store_eq_ok.mpr ⟨by omega, ?_⟩⟩
  rw [hlen, List.take_zero, List.nil_append, Nat.zero_add, slide]

/-- Sliding what is left of the first `len` cells keeps the buffer's size. -/
theorem length_slide {buf : List α} {src len : Nat} (h : len ≤ buf.length) :
    (slide buf src (len - src)).length = buf.length := by
  simp only [slide, List.length_append, List.length_take, List.length_drop]
  omega

/-- What is left of the first `len` cells is at the front. -/
theorem take_slide {buf : List α} {src len : Nat} (h : len ≤ buf.length) :
    (slide buf src (len - src)).take (len - src) = (buf.take len).drop src := by
  have hlen : ((buf.drop src).take (len - src)).length = len - src := by
    simp only [List.length_take, List.length_drop]
    omega
  rw [slide, List.take_left' hlen, List.drop_take]

/-- Moving nothing changes nothing, and neither does moving from the front. -/
@[simp] theorem slide_zero_right (buf : List α) (src : Nat) : slide buf src 0 = buf := by
  simp [slide]

@[simp] theorem slide_zero_left (buf : List α) (n : Nat) : slide buf 0 n = buf := by
  simp [slide]

/-- What is found whole at the front of a buffer fits into it. -/
theorem le_length_of_take {buf data : List α} {n : Nat} (hn : n = data.length)
    (h : buf.take n = data) : n ≤ buf.length := by
  have hlen := congrArg List.length h
  rw [List.length_take] at hlen
  omega

theorem exists_store (buf : List α) (off : Nat) (data : List α)
    (h : off + data.length ≤ buf.length) :
    ∃ buf', store buf off data = .ok buf' :=
  ⟨_, store_eq_ok.mpr ⟨h, rfl⟩⟩

end Machine
