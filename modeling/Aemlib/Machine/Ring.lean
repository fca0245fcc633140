import Mathlib.Data.List.Basic

/-!
# Rings

A buffer read and written round its end. Positions are arbitrary numbers, taken modulo the size of
the buffer, so a reader or a writer that walks over the end goes on at the front.

`window` is what a reader sees that starts at some position, `fill` is what a writer leaves that
starts at some position. A queue kept in a ring is a window, and the two facts it rests on are
`window_add` (reading the front of the queue leaves the rest of it) and `window_fill` (writing
behind the queue appends to it, as long as it does not run into itself).
-/

namespace Machine.Ring

variable {α : Type}

/-- The `n` cells from position `start` on. -/
def window (buf : List α) : (start n : Nat) → List α
  | _, 0 => []
  | start, n + 1 => buf[start % buf.length]?.toList ++ window buf (start + 1) n

/-- The buffer after `data` was written from position `start` on. -/
def fill (buf : List α) : (start : Nat) → (data : List α) → List α
  | _, [] => buf
  | start, a :: data => fill (buf.set (start % buf.length) a) (start + 1) data

@[simp] theorem window_zero (buf : List α) (start : Nat) : window buf start 0 = [] := rfl

@[simp] theorem length_fill (buf : List α) (start : Nat) (data : List α) :
    (fill buf start data).length = buf.length := by
  induction data generalizing buf start with
  | nil => rfl
  | cons a data ih =>
    show (fill (buf.set (start % buf.length) a) (start + 1) data).length = buf.length
    rw [ih, List.length_set]

/-! ## Reading -/

/-- A ring with a cell in it has a cell at every position. -/
theorem getElem?_position {buf : List α} (hpos : 0 < buf.length) (start : Nat) :
    buf[start % buf.length]? =
      some (buf.get ⟨start % buf.length, Nat.mod_lt start hpos⟩) := by
  apply List.getElem?_eq_getElem

theorem length_window {buf : List α} (hpos : 0 < buf.length) (start n : Nat) :
    (window buf start n).length = n := by
  induction n generalizing start with
  | zero => rfl
  | succ n ih =>
    rw [window, List.length_append, ih, getElem?_position hpos, Option.toList_some]
    simp [Nat.add_comm]

/-- Only the position modulo the size matters. -/
theorem window_congr {buf : List α} {s t : Nat} (h : s % buf.length = t % buf.length) (n : Nat) :
    window buf s n = window buf t n := by
  induction n generalizing s t with
  | zero => rfl
  | succ n ih =>
    have hnext : (s + 1) % buf.length = (t + 1) % buf.length := by
      rw [Nat.add_mod, h, ← Nat.add_mod]
    rw [window, window, h, ih hnext]

/-- Reading on from where a reader stopped. -/
theorem window_add (buf : List α) (start m n : Nat) :
    window buf start (m + n) = window buf start m ++ window buf (start + m) n := by
  induction m generalizing start with
  | zero => simp
  | succ m ih =>
    rw [show m + 1 + n = (m + n) + 1 by omega, window, ih, window, List.append_assoc,
      show start + 1 + m = start + (m + 1) by omega]

/-! ## Writing -/

/-- Two positions less than one round apart are different cells. -/
theorem position_ne {size n : Nat} (start : Nat) (hpos : 0 < n) (hlt : n < size) :
    (start + n) % size ≠ start % size := by
  intro h
  have hmod : (start + n - start) % size = 0 := Nat.sub_mod_eq_zero_of_mod_eq h
  rw [Nat.add_sub_cancel_left, Nat.mod_eq_of_lt hlt] at hmod
  omega

/-- Writing right behind a window, or further on, does not change it. -/
theorem window_set {buf : List α} {start k n : Nat} (a : α) (hk : k ≤ n) (hn : n < buf.length) :
    window (buf.set ((start + n) % buf.length) a) start k = window buf start k := by
  -- by induction on the window: its first cell is not the one written, and the rest is nearer
  induction k generalizing start n with
  | zero => rfl
  | succ k ih =>
    have hne := position_ne start (show 0 < n by omega) hn
    have hrest : window (buf.set ((start + 1 + (n - 1)) % buf.length) a) (start + 1) k =
        window buf (start + 1) k := ih (by omega) (by omega)
    rw [show start + 1 + (n - 1) = start + n by omega] at hrest
    rw [window, window, hrest, List.length_set, List.getElem?_set_ne hne]

/-- One more cell behind a window. -/
theorem window_push {buf : List α} {start n : Nat} (a : α) (hn : n < buf.length) :
    window (buf.set ((start + n) % buf.length) a) start (n + 1) = window buf start n ++ [a] := by
  have hlt : (start + n) % buf.length < buf.length := Nat.mod_lt _ (by omega)
  rw [window_add, window_set a (Nat.le_refl n) hn, window, window_zero, List.length_set,
    List.getElem?_set_self hlt]
  rfl

/-- Only the position modulo the size matters. -/
theorem fill_congr {buf : List α} {s t : Nat} (h : s % buf.length = t % buf.length)
    (data : List α) : fill buf s data = fill buf t data := by
  induction data generalizing buf s t with
  | nil => rfl
  | cons a data ih =>
    have hnext : (s + 1) % buf.length = (t + 1) % buf.length := by
      rw [Nat.add_mod, h, ← Nat.add_mod]
    rw [fill, fill, h]
    apply ih
    rw [List.length_set, hnext]

/-- What is written behind a window extends it, if there is room for it. -/
theorem window_fill {buf : List α} {n : Nat} {data : List α} (start : Nat)
    (h : n + data.length ≤ buf.length) :
    window (fill buf (start + n) data) start (n + data.length) = window buf start n ++ data := by
  induction data generalizing buf n with
  | nil => simp [fill]
  | cons a data ih =>
    have hn : n < buf.length := by
      rw [List.length_cons] at h
      omega
    have hroom : n + 1 + data.length ≤ (buf.set ((start + n) % buf.length) a).length := by
      rw [List.length_set]
      rw [List.length_cons] at h
      omega
    have hrest := ih hroom
    rw [window_push a hn, List.append_assoc] at hrest
    show window (fill (buf.set ((start + n) % buf.length) a) (start + n + 1) data) start
      (n + (data.length + 1)) = _
    rw [show n + (data.length + 1) = n + 1 + data.length by omega]
    exact hrest

end Machine.Ring
