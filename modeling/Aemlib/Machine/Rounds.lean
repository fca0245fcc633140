import Aemlib.Machine.Prog

/-!
# Rounds that settle

A program that is run for one member of a list after the other, in rounds. What can be seen of the
state has a rank. Every member lowers the rank, or is stuck: it finds nothing to do and leaves what
can be seen as it is. If a rank above zero never has all members of a round stuck, then every round
lowers it, whatever the order of the round and however often a member is in it.
-/

namespace Machine

namespace Prog

variable {F E S α V : Type}

/-- A list run over the images of a list. -/
theorem forAll_map {β : Type} (p : α → Prog F E S Unit) (g : β → α) (bs : List β) :
    forAll p (bs.map g) = forAll (fun b => p (g b)) bs := by
  induction bs with
  | nil => rfl
  | cons b bs ih => rw [List.map_cons, forAll, forAll, ih]

/-- A list run in two parts. -/
theorem Returns.forAll_append {p : α → Prog F E S Unit} {as bs : List α} {s : S}
    {R Q : S → Prop} (has : (forAll p as).Returns s fun _ s' => R s')
    (hbs : ∀ s', R s' → (forAll p bs).Returns s' fun _ s'' => Q s'') :
    (forAll p (as ++ bs)).Returns s fun _ s'' => Q s'' := by
  induction as generalizing s with
  | nil =>
    obtain ⟨r, s', hrun, hs'⟩ := has
    cases hrun
    exact hbs s hs'
  | cons a as ih =>
    obtain ⟨r, s', hrun, hs'⟩ := has
    obtain ⟨r₁, s₁, ha, hrest⟩ := attempt_bind_eq_ok.mp hrun
    obtain ⟨r₂, s₂, hrun₂, hs₂⟩ := ih ⟨r, s', hrest, hs'⟩
    exact ⟨r₂, s₂, attempt_bind_eq_ok.mpr ⟨r₁, s₁, ha, hrun₂⟩, hs₂⟩

/-- From one view of the state to another: the rank is lower, or all of the members were stuck. -/
def Advances (rank : V → Nat) (Stuck : α → V → Prop) (as : List α) (v v' : V) : Prop :=
  rank v' < rank v ∨ v' = v ∧ ∀ a ∈ as, Stuck a v

theorem Advances.le {rank : V → Nat} {Stuck : α → V → Prop} {as : List α} {v v' : V}
    (h : Advances rank Stuck as v v') : rank v' ≤ rank v := by
  rcases h with hlt | ⟨rfl, -⟩
  · exact Nat.le_of_lt hlt
  · exact Nat.le_refl _

theorem Advances.append {rank : V → Nat} {Stuck : α → V → Prop} {as bs : List α} {v₁ v₂ v₃ : V}
    (h₁ : Advances rank Stuck as v₁ v₂) (h₂ : Advances rank Stuck bs v₂ v₃) :
    Advances rank Stuck (as ++ bs) v₁ v₃ := by
  rcases h₁ with hlt | ⟨rfl, hstuck⟩
  · exact Or.inl (Nat.lt_of_le_of_lt h₂.le hlt)
  · rcases h₂ with hlt | ⟨rfl, hstuck'⟩
    · exact Or.inl hlt
    · refine Or.inr ⟨rfl, ?_⟩
      intro a ha
      rcases List.mem_append.mp ha with ha | ha
      · exact hstuck a ha
      · exact hstuck' a ha

section

variable {Inv : S → Prop} (view : S → V) (rank : V → Nat) (Stuck : α → V → Prop)
  {p : α → Prog F E S Unit}

/-- One round. -/
theorem forAll_round {as : List α} {s : S} (hs : Inv s)
    (hstep : ∀ a ∈ as, ∀ s, Inv s →
      (p a).Returns s fun _ s' => Inv s' ∧ Advances rank Stuck [a] (view s) (view s')) :
    (forAll p as).Returns s fun _ s' => Inv s' ∧ Advances rank Stuck as (view s) (view s') := by
  induction as generalizing s with
  | nil => exact ⟨_, _, rfl, hs, Or.inr ⟨rfl, fun _ ha => nomatch ha⟩⟩
  | cons a as ih =>
    obtain ⟨r₁, s₁, h₁, hs₁, hadv₁⟩ := hstep a List.mem_cons_self s hs
    obtain ⟨r, s', hrest, hs', hadv⟩ := ih hs₁ fun b hb => hstep b (List.mem_cons_of_mem a hb)
    exact ⟨r, s', attempt_bind_eq_ok.mpr ⟨r₁, s₁, h₁, hrest⟩, hs', hadv₁.append hadv⟩

/-- **Rounds settle.** After as many rounds as the rank was at the beginning, it is zero. -/
theorem forAll_settles {rounds : List (List α)} {s : S} (hs : Inv s)
    (hstep : ∀ a ∈ rounds.flatten, ∀ s, Inv s →
      (p a).Returns s fun _ s' => Inv s' ∧ Advances rank Stuck [a] (view s) (view s'))
    (hfree : ∀ as ∈ rounds, ∀ s, Inv s → (∀ a ∈ as, Stuck a (view s)) → rank (view s) = 0)
    (hmany : rank (view s) ≤ rounds.length) :
    (forAll p rounds.flatten).Returns s fun _ s' => Inv s' ∧ rank (view s') = 0 := by
  induction rounds generalizing s with
  | nil => exact ⟨_, _, rfl, hs, Nat.le_zero.mp hmany⟩
  | cons as rounds ih =>
    rw [List.flatten_cons] at hstep ⊢
    have hround := forAll_round view rank Stuck hs fun a ha => hstep a (List.mem_append_left _ ha)
    refine Returns.forAll_append hround ?_
    rintro s' ⟨hs', hadv⟩
    refine ih hs' (fun a ha => hstep a (List.mem_append_right _ ha))
      (fun bs hbs => hfree bs (List.mem_cons_of_mem as hbs)) ?_
    rcases hadv with hlt | ⟨heq, hstuck⟩
    · exact Nat.le_of_lt_succ (Nat.lt_of_lt_of_le hlt hmany)
    · rw [heq, hfree as List.mem_cons_self s hs hstuck]
      exact Nat.zero_le _

end

end Prog

end Machine
