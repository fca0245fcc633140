import Mathlib.Data.List.Infix

/-!
# Streams of frames

A frame tells its own end: no frame is the beginning of another. A stream that is made of frames is
then cut into frames in one way only, also by a reader who has not seen all of it yet.
-/

namespace Machine

variable {α : Type}

/-- No frame is empty, and none is the beginning of another. -/
structure PrefixFree (P : List α → Prop) : Prop where
  ne_nil : ∀ p, P p → p ≠ []
  eq_of_prefix : ∀ p q, P p → P q → p <+: q → p = q

namespace PrefixFree

variable {P : List α → Prop} (hP : PrefixFree P)

include hP

/-- Two frames at the front of one stream are the same. -/
theorem eq_of_common {p q stream : List α} (hp : P p) (hq : P q) (hps : p <+: stream)
    (hqs : q <+: stream) : p = q := by
  rcases List.prefix_or_prefix_of_prefix hps hqs with h | h
  · exact hP.eq_of_prefix p q hp hq h
  · exact (hP.eq_of_prefix q p hq hp h).symm

/-- Frames at the front of a stream of frames are the first frames of it, also by what they stand
for. -/
theorem prefix_of_flatMap {β : Type} {f : β → List α} {as bs : List β} (has : ∀ a ∈ as, P (f a))
    (hbs : ∀ b ∈ bs, P (f b)) (hinj : ∀ a ∈ as, ∀ b ∈ bs, f a = f b → a = b)
    (h : as.flatMap f <+: bs.flatMap f) : as <+: bs := by
  induction as generalizing bs with
  | nil => exact List.nil_prefix
  | cons a as ih =>
    have ha : P (f a) := has a List.mem_cons_self
    cases bs with
    | nil =>
      rw [List.flatMap_cons, List.flatMap_nil, List.prefix_nil, List.append_eq_nil_iff] at h
      exact absurd h.1 (hP.ne_nil (f a) ha)
    | cons b bs =>
      have hb : P (f b) := hbs b List.mem_cons_self
      rw [List.flatMap_cons, List.flatMap_cons] at h
      have heq : f a = f b :=
        hP.eq_of_common ha hb ((List.prefix_append (f a) _).trans h) (List.prefix_append (f b) _)
      obtain rfl : a = b := hinj a List.mem_cons_self b List.mem_cons_self heq
      rw [List.prefix_append_right_inj] at h
      rw [List.prefix_cons_inj]
      exact ih (fun c hc => has c (List.mem_cons_of_mem a hc))
        (fun c hc => hbs c (List.mem_cons_of_mem a hc))
        (fun c hc d hd => hinj c (List.mem_cons_of_mem a hc) d (List.mem_cons_of_mem a hd)) h

theorem prefix_of_flatten {as bs : List (List α)} (has : ∀ p ∈ as, P p) (hbs : ∀ q ∈ bs, P q)
    (h : as.flatten <+: bs.flatten) : as <+: bs := by
  rw [← List.flatMap_id, ← List.flatMap_id] at h
  exact hP.prefix_of_flatMap has hbs (fun _ _ _ _ heq => heq) h

/-- An empty stream has no frames. -/
theorem eq_nil_of_flatten {as : List (List α)} (has : ∀ p ∈ as, P p) (h : as.flatten = []) :
    as = [] := by
  cases as with
  | nil => rfl
  | cons a as =>
    rw [List.flatten_cons, List.append_eq_nil_iff] at h
    exact absurd h.1 (hP.ne_nil a (has a List.mem_cons_self))

end PrefixFree

end Machine
