import Mathlib.Data.List.Basic

/-!
# Properties of histories

A history is a list of events, newest first. A property of a run often says something about each
event and what came before it: `Throughout P` holds of a history when `P e past` does for every
event `e` and the events `past` before it.
-/

namespace Machine

variable {ε : Type}

/-- Every event of the history satisfies `P` with respect to its past. -/
def Throughout (P : ε → List ε → Prop) : List ε → Prop
  | [] => True
  | e :: past => P e past ∧ Throughout P past

@[simp] theorem throughout_nil {P : ε → List ε → Prop} : Throughout P [] ↔ True := Iff.rfl

@[simp] theorem throughout_cons {P : ε → List ε → Prop} {e : ε} {past : List ε} :
    Throughout P (e :: past) ↔ P e past ∧ Throughout P past := Iff.rfl

instance Throughout.decidable {P : ε → List ε → Prop} [∀ e past, Decidable (P e past)] :
    (history : List ε) → Decidable (Throughout P history)
  | [] => inferInstanceAs (Decidable True)
  | e :: past =>
    have := Throughout.decidable (P := P) past
    inferInstanceAs (Decidable (P e past ∧ Throughout P past))

end Machine
