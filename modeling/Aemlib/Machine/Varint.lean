import Mathlib.Algebra.BigOperators.Group.Finset.Basic
import Mathlib.Algebra.BigOperators.Ring.Finset
import Mathlib.Data.Nat.Log
import Mathlib.Data.UInt

/-!
# Base-128 integers of bounded width

A number as bytes of seven bits each, lowest first, every byte but the last with its high bit set.
Both directions carry a budget: `encode` writes at most that many bytes, `scan` accepts at most
that many.

`scan` has three outcomes, because a reader of a growing buffer has to tell "wait" from "wrong":
a `value` with the number of bytes it took, `more` when the bytes end inside a number that could
still be within the budget, and `overlong` when it cannot. The two verdicts are final —
appending bytes changes neither (`scan_append_value`, `scan_append_overlong`). A number that
`encode` can write within the budget is what `scan` reads (`scan_encode`).

The other way around `scan` accepts more than `encode` writes, because a number can be padded with
zero digits. Which bytes give which outcome is `scan_eq_value_iff` and `scan_eq_overlong_iff`;
`encode` never takes more bytes than were read, and gives them back exactly when they were not
padded (`encode_of_scan`).
-/

namespace Machine.Varint

/-- What a reader makes of the bytes it has so far. -/
inductive Scan where
  | value (v consumed : Nat)
  | more
  | overlong
  deriving DecidableEq, Repr

/-- The digits of `v`, lowest first, in at most `budget` bytes. -/
def encode : (budget v : Nat) → List UInt8
  | 0, _ => []
  | budget + 1, v =>
    if v / 128 = 0 then [UInt8.ofNat (v % 128)]
    else UInt8.ofNat (v % 128 + 128) :: encode budget (v / 128)

def Scan.push (d : Nat) : Scan → Scan
  | .value v n => .value (d + 128 * v) (n + 1)
  | .more => .more
  | .overlong => .overlong

/-- Read a number of at most `budget` digits off the front of the bytes. -/
def scan : (budget : Nat) → List UInt8 → Scan
  | _, [] => .more
  | 0, _ :: _ => .overlong
  | budget + 1, b :: bs =>
    if b.toNat < 128 then .value b.toNat 1 else (scan budget bs).push (b.toNat % 128)

/-! ## One digit -/

theorem toNat_ofNat_digit (v : Nat) : (UInt8.ofNat (v % 128)).toNat = v % 128 := by
  rw [UInt8.toNat_ofNat']
  omega

theorem toNat_ofNat_continued (v : Nat) :
    (UInt8.ofNat (v % 128 + 128)).toNat = v % 128 + 128 := by
  rw [UInt8.toNat_ofNat']
  omega

/-- The low seven bits, by mask. -/
theorem toNat_and_mask (b : UInt8) : (b &&& 0x7F).toNat = b.toNat % 128 := by
  rw [UInt8.toNat_and]
  exact Nat.and_two_pow_sub_one_eq_mod b.toNat 7

/-- The continuation bit is clear on the bytes below 128. -/
theorem and_continuation_eq_zero (b : UInt8) : b &&& 0x80 = 0 ↔ b.toNat < 128 := by
  have h : ∀ i : Fin 256, (UInt8.ofNat i.val &&& 0x80 = 0 ↔ i.val < 128) := by decide +kernel
  simpa using h ⟨b.toNat, b.toNat_lt⟩

/-- Setting the continuation bit of a digit adds 128 to it. -/
theorem or_continuation (v : Nat) :
    UInt8.ofNat (v % 128) ||| 0x80 = UInt8.ofNat (v % 128 + 128) := by
  have h : ∀ i : Fin 128, UInt8.ofNat i.val ||| 0x80 = UInt8.ofNat (i.val + 128) := by
    decide +kernel
  exact h ⟨v % 128, Nat.mod_lt _ (by decide)⟩

/-! ## Reading is incremental -/

theorem Scan.push_eq_value {s : Scan} {d v n : Nat} :
    s.push d = .value v n ↔ ∃ v' n', s = .value v' n' ∧ v = d + 128 * v' ∧ n = n' + 1 := by
  cases s <;> simp [Scan.push, eq_comm]

theorem Scan.push_eq_overlong {s : Scan} {d : Nat} : s.push d = .overlong ↔ s = .overlong := by
  cases s <;> simp [Scan.push]

/-- A number once read stays read, whatever bytes follow. -/
theorem scan_append_value {budget v n : Nat} {bs : List UInt8} (more : List UInt8)
    (h : scan budget bs = .value v n) : scan budget (bs ++ more) = .value v n := by
  induction budget generalizing bs v n with
  | zero => cases bs <;> simp [scan] at h
  | succ budget ih =>
    cases bs with
    | nil => simp [scan] at h
    | cons b bs =>
      simp only [scan, List.cons_append] at h ⊢
      split at h
      · next hb => rw [if_pos hb, h]
      · next hb =>
        rw [if_neg hb]
        obtain ⟨v', n', hs, rfl, rfl⟩ := Scan.push_eq_value.mp h
        rw [ih hs]
        rfl

/-- A number once refused stays refused. -/
theorem scan_append_overlong {budget : Nat} {bs : List UInt8} (more : List UInt8)
    (h : scan budget bs = .overlong) : scan budget (bs ++ more) = .overlong := by
  induction budget generalizing bs with
  | zero =>
    cases bs with
    | nil => simp [scan] at h
    | cons b bs => rfl
  | succ budget ih =>
    cases bs with
    | nil => simp [scan] at h
    | cons b bs =>
      simp only [scan, List.cons_append] at h ⊢
      split at h
      · cases h
      · next hb =>
        rw [if_neg hb, ih (Scan.push_eq_overlong.mp h)]
        rfl

/-- The bytes a number takes are enough to read it. -/
theorem scan_take {budget v n m : Nat} {bs : List UInt8} (h : scan budget bs = .value v n)
    (hm : n ≤ m) : scan budget (bs.take m) = .value v n := by
  induction budget generalizing bs v n m with
  | zero => cases bs <;> simp [scan] at h
  | succ budget ih =>
    cases bs with
    | nil => simp [scan] at h
    | cons b bs =>
      simp only [scan] at h
      split at h
      · next hb =>
        obtain ⟨rfl, rfl⟩ := Scan.value.inj h
        obtain ⟨m, rfl⟩ : ∃ k, m = k + 1 := ⟨m - 1, by omega⟩
        rw [List.take_succ_cons, scan, if_pos hb]
      · next hb =>
        obtain ⟨v', n', hs, rfl, rfl⟩ := Scan.push_eq_value.mp h
        obtain ⟨m, rfl⟩ : ∃ k, m = k + 1 := ⟨m - 1, by omega⟩
        rw [List.take_succ_cons, scan, if_neg hb, ih hs (by omega)]
        rfl

/-- A number takes at least one byte, no more than the budget, and only bytes that are there. -/
theorem scan_consumed {budget v n : Nat} {bs : List UInt8} (h : scan budget bs = .value v n) :
    1 ≤ n ∧ n ≤ budget ∧ n ≤ bs.length := by
  induction budget generalizing bs v n with
  | zero => cases bs <;> simp [scan] at h
  | succ budget ih =>
    cases bs with
    | nil => simp [scan] at h
    | cons b bs =>
      simp only [scan] at h
      split at h
      · obtain ⟨-, rfl⟩ := Scan.value.inj h
        simp
      · obtain ⟨v', n', hs, -, rfl⟩ := Scan.push_eq_value.mp h
        have := ih hs
        simp only [List.length_cons]
        omega

/-- A number of at most `budget` digits is below `128 ^ budget`. -/
theorem scan_value_lt {budget v n : Nat} {bs : List UInt8} (h : scan budget bs = .value v n) :
    v < 128 ^ budget := by
  induction budget generalizing bs v n with
  | zero => cases bs <;> simp [scan] at h
  | succ budget ih =>
    cases bs with
    | nil => simp [scan] at h
    | cons b bs =>
      simp only [scan] at h
      split at h
      · next hb =>
        obtain ⟨rfl, -⟩ := Scan.value.inj h
        have : 1 ≤ 128 ^ budget := Nat.one_le_two_pow.trans (Nat.pow_le_pow_left (by decide) _)
        rw [Nat.pow_succ]
        omega
      · obtain ⟨v', n', hs, rfl, -⟩ := Scan.push_eq_value.mp h
        have := ih hs
        rw [Nat.pow_succ]
        omega

/-! ## Writing -/

theorem length_encode_le (budget v : Nat) : (encode budget v).length ≤ budget := by
  induction budget generalizing v with
  | zero => simp [encode]
  | succ budget ih =>
    simp only [encode]
    split
    · simp
    · simpa using ih (v / 128)

/-- What was written is read back, whatever bytes follow. -/
theorem scan_encode {budget v : Nat} (more : List UInt8) (hpos : 0 < budget)
    (hv : v < 128 ^ budget) :
    scan budget (encode budget v ++ more) = .value v (encode budget v).length := by
  induction budget generalizing v with
  | zero => omega
  | succ budget ih =>
    rw [encode]
    split
    -- the last digit has no continuation bit
    · next hlast =>
      have hlt : v < 128 := by omega
      rw [List.singleton_append, scan, toNat_ofNat_digit, if_pos (Nat.mod_lt v (by decide)),
        Nat.mod_eq_of_lt hlt]
      rfl
    · next hmore =>
      have hrest : v / 128 < 128 ^ budget := by
        rw [Nat.pow_succ] at hv
        omega
      have hbudget : 0 < budget := by
        apply Nat.pos_of_ne_zero
        intro hzero
        rw [hzero, Nat.pow_zero] at hrest
        omega
      -- a digit with its continuation bit, and the rest behind it
      have hdigit : ¬ v % 128 + 128 < 128 := by omega
      rw [List.cons_append, scan, toNat_ofNat_continued, if_neg hdigit, ih hbudget hrest,
        Scan.push, List.length_cons]
      congr 1
      omega

/-! ## The number of digits -/

/-- How many base-128 digits a number has; 0 has one. -/
def width (v : Nat) : Nat := Nat.log 128 v + 1

theorem width_of_lt {v : Nat} (h : v < 128) : width v = 1 := by
  rw [width, Nat.log_of_lt h]

theorem width_of_le {v : Nat} (h : 128 ≤ v) : width v = width (v / 128) + 1 := by
  rw [width, width, Nat.log_of_one_lt_of_le (by decide) h]

theorem width_pos (v : Nat) : 0 < width v := Nat.succ_pos _

/-- A number has at most `n` digits exactly if it is below `128 ^ n`. -/
theorem width_le_iff {v n : Nat} (hn : 0 < n) : width v ≤ n ↔ v < 128 ^ n := by
  rw [width, Nat.succ_le_iff]
  constructor
  · exact Nat.lt_pow_of_log_lt (by decide)
  · exact Nat.log_lt_of_lt_pow' (by omega)

/-- One byte is written for each digit. -/
theorem length_encode {budget v : Nat} (h : width v ≤ budget) :
    (encode budget v).length = width v := by
  induction budget generalizing v with
  | zero =>
    have := width_pos v
    omega
  | succ budget ih =>
    rw [encode]
    split
    · next hlast => rw [width_of_lt (by omega), List.length_singleton]
    · next hmore =>
      have hw := width_of_le (show 128 ≤ v by omega)
      rw [List.length_cons, ih (by omega), hw]

/-- A budget that is enough does not show. -/
theorem encode_congr {a b v : Nat} (ha : width v ≤ a) (hb : width v ≤ b) :
    encode a v = encode b v := by
  have hpos := width_pos v
  induction a generalizing b v with
  | zero => omega
  | succ a ih =>
    obtain ⟨b, rfl⟩ : ∃ k, b = k + 1 := ⟨b - 1, by omega⟩
    rw [encode, encode]
    split
    · rfl
    · next hmore =>
      have hw := width_of_le (show 128 ≤ v by omega)
      have hrest : encode a (v / 128) = encode b (v / 128) :=
        ih (by omega) (by omega) (width_pos _)
      rw [hrest]

/-! ## Exactly which bytes are read as what -/

/-- **What is read.** The digits up to the first byte without a continuation bit, which has to be
within the budget. -/
theorem scan_eq_value_iff {budget v n : Nat} {bs : List UInt8} :
    scan budget bs = .value v n ↔
      ∃ i < budget, i < bs.length ∧ (bs.getD i 0).toNat < 128 ∧
        (∀ j < i, 128 ≤ (bs.getD j 0).toNat) ∧ n = i + 1 ∧
        v = ∑ j ∈ Finset.range (i + 1), (bs.getD j 0).toNat % 128 * 128 ^ j := by
  induction budget generalizing bs v n with
  | zero => cases bs <;> simp [scan]
  | succ budget ih =>
    cases bs with
    | nil => simp [scan]
    | cons b bs =>
      rw [scan]
      split
      · next hb =>
        constructor
        · intro h
          obtain ⟨rfl, rfl⟩ := Scan.value.inj h
          refine ⟨0, Nat.succ_pos _, Nat.succ_pos _, hb, by simp, rfl, ?_⟩
          simp [Nat.mod_eq_of_lt hb]
        · rintro ⟨i, -, -, -, hcont, rfl, rfl⟩
          cases i with
          | zero => simp [Nat.mod_eq_of_lt hb]
          | succ i =>
            have hfirst : 128 ≤ b.toNat := hcont 0 (Nat.succ_pos i)
            omega
      · next hb =>
        -- the digit in front of a number shifts the others up by one
        have hsum : ∀ i, ∑ j ∈ Finset.range (i + 2), ((b :: bs).getD j 0).toNat % 128 * 128 ^ j =
            b.toNat % 128 +
              128 * ∑ j ∈ Finset.range (i + 1), (bs.getD j 0).toNat % 128 * 128 ^ j := by
          intro i
          rw [Finset.sum_range_succ', Finset.mul_sum, Nat.add_comm]
          congr 1
          · simp
          · refine Finset.sum_congr rfl fun j _ => ?_
            rw [List.getD_cons_succ, Nat.pow_succ, Nat.mul_comm (128 ^ j), Nat.mul_left_comm]
        rw [Scan.push_eq_value]
        constructor
        · rintro ⟨v', n', hs, rfl, rfl⟩
          obtain ⟨i, hi, hlen, hlast, hcont, rfl, rfl⟩ := ih.mp hs
          refine ⟨i + 1, by omega, by simpa using hlen, hlast, fun j hj => ?_, rfl, (hsum i).symm⟩
          cases j with
          | zero => exact Nat.le_of_not_lt hb
          | succ j => exact hcont j (by omega)
        · rintro ⟨i, hi, hlen, hlast, hcont, rfl, rfl⟩
          cases i with
          | zero => exact absurd hlast hb
          | succ i =>
            refine ⟨_, i + 1, ih.mpr ⟨i, by omega, by simpa using hlen, hlast, ?_, rfl, rfl⟩,
              hsum i, rfl⟩
            intro j hj
            exact hcont (j + 1) (by omega)

/-- **What is refused.** More bytes than the budget, and a continuation bit on all of those within
it. -/
theorem scan_eq_overlong_iff {budget : Nat} {bs : List UInt8} :
    scan budget bs = .overlong ↔
      budget < bs.length ∧ ∀ j < budget, 128 ≤ (bs.getD j 0).toNat := by
  induction budget generalizing bs with
  | zero => cases bs <;> simp [scan]
  | succ budget ih =>
    cases bs with
    | nil => simp [scan]
    | cons b bs =>
      rw [scan]
      split
      · next hb =>
        constructor
        · intro h
          cases h
        · -- a first byte that ends the number is not one that continues it
          rintro ⟨-, hcont⟩
          have hfirst : 128 ≤ b.toNat := hcont 0 (Nat.succ_pos _)
          omega
      · next hb =>
        rw [Scan.push_eq_overlong, ih, List.length_cons]
        constructor
        · rintro ⟨hlen, hcont⟩
          refine ⟨by omega, fun j hj => ?_⟩
          cases j with
          | zero => exact Nat.le_of_not_lt hb
          | succ j => exact hcont j (by omega)
        · rintro ⟨hlen, hcont⟩
          refine ⟨by omega, fun j hj => ?_⟩
          exact hcont (j + 1) (by omega)

/-- With more bytes than the budget there is nothing to wait for. -/
theorem scan_ne_more {budget : Nat} {bs : List UInt8} (h : budget < bs.length) :
    scan budget bs ≠ .more := by
  induction budget generalizing bs with
  | zero =>
    cases bs with
    | nil => simp at h
    | cons b bs => simp [scan]
  | succ budget ih =>
    cases bs with
    | nil => simp at h
    | cons b bs =>
      rw [scan]
      split
      · simp
      · have hrest : scan budget bs ≠ .more := ih (by simpa using h)
        cases hs : scan budget bs with
        | value v n => simp [Scan.push]
        | more => exact absurd hs hrest
        | overlong => simp [Scan.push]

/-- **Writing what was read.** It takes no more bytes than were read, and if it takes as many they
are the same. -/
theorem encode_of_scan {budget v n : Nat} {bs : List UInt8} (h : scan budget bs = .value v n) :
    width v ≤ n ∧ (width v = n → encode budget v = bs.take n) := by
  induction budget generalizing bs v n with
  | zero => cases bs <;> simp [scan] at h
  | succ budget ih =>
    cases bs with
    | nil => simp [scan] at h
    | cons b bs =>
      rw [scan] at h
      split at h
      · next hb =>
        obtain ⟨rfl, rfl⟩ := Scan.value.inj h
        have hw := width_of_lt hb
        refine ⟨by omega, fun _ => ?_⟩
        rw [encode, if_pos (by omega), Nat.mod_eq_of_lt hb, UInt8.ofNat_toNat]
        rfl
      · next hb =>
        obtain ⟨v', n', hs, rfl, rfl⟩ := Scan.push_eq_value.mp h
        obtain ⟨hle, heq⟩ := ih hs
        have hconsumed := scan_consumed hs
        by_cases hzero : v' = 0
        · -- padded: the digits above are zero
          subst hzero
          have hw := width_of_lt (show b.toNat % 128 + 128 * 0 < 128 by omega)
          exact ⟨by omega, fun hfull => by omega⟩
        · have hdiv : (b.toNat % 128 + 128 * v') / 128 = v' := by omega
          have hw := width_of_le (show 128 ≤ b.toNat % 128 + 128 * v' by omega)
          rw [hdiv] at hw
          refine ⟨by omega, fun hfull => ?_⟩
          have hbyte : (b.toNat % 128 + 128 * v') % 128 + 128 = b.toNat := by
            have := b.toNat_lt
            omega
          rw [encode, hdiv, if_neg hzero, hbyte, UInt8.ofNat_toNat, heq (by omega)]
          rfl

/-! ## Minimal digits -/

/-- `digits` are read as `v`, whatever follows them, and nothing that is read as `v` is shorter. -/
structure Minimal (digits : List UInt8) (v : Nat) : Prop where
  reads : ∀ more, scan digits.length (digits ++ more) = .value v digits.length
  shortest : ∀ budget other n, scan budget other = .value v n → digits.length ≤ n

/-- The writer is not wasteful. -/
theorem minimal_encode {budget v : Nat} (h : width v ≤ budget) : Minimal (encode budget v) v where
  reads := by
    intro more
    have hpos := width_pos v
    have hlt := (width_le_iff hpos).mp (Nat.le_refl (width v))
    rw [encode_congr h (Nat.le_refl _), length_encode (Nat.le_refl _)]
    have hscan := scan_encode more hpos hlt
    rwa [length_encode (Nat.le_refl _)] at hscan
  shortest := by
    intro budget' other n hscan
    rw [length_encode h]
    exact (encode_of_scan hscan).1

/-- What was read is minimal exactly if it took as many bytes as the number has digits. -/
theorem minimal_take_iff {budget v n : Nat} {bs : List UInt8} (h : scan budget bs = .value v n) :
    Minimal (bs.take n) v ↔ width v = n := by
  obtain ⟨hle, heq⟩ := encode_of_scan h
  obtain ⟨-, hbudget, hlen⟩ := scan_consumed h
  have hw : width v ≤ budget := Nat.le_trans hle hbudget
  constructor
  · intro hmin
    have hpos := Nat.lt_of_lt_of_le (width_pos v) hw
    have hscan := scan_encode [] hpos ((width_le_iff hpos).mp hw)
    have hshort := hmin.shortest _ _ _ hscan
    rw [length_encode hw, List.length_take] at hshort
    omega
  · intro hfull
    rw [← heq hfull]
    exact minimal_encode hw

end Machine.Varint
