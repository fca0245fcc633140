import Mathlib.Logic.Relation

/-!
# Programs that can fault, fail or return

`Prog F E S α` is a computation over a state `S` with three ways to end:

* it **faults** with an `F` — the run has left the defined behaviour of the program (an index out
  of bounds, an unsigned subtraction below zero) and there is no next state;
* it **fails** with an `E` — an error code the caller sees, with every state change made before
  the failure kept, as an early `return status` keeps them in C;
* it **returns** an `α`.

`bind` propagates a failure, so "call, and return the status if it is not OK" is sequencing.

Two readings of a postcondition are used throughout: `Ensures` (if the program ends without a
fault, the postcondition holds) and `Returns` (it does end without a fault, and the postcondition
holds). The rules for both follow the structure of the program.
-/

namespace Machine

/-- A computation over `S` that faults with `F`, fails with `E` or returns an `α`. -/
def Prog (F E S α : Type) : Type := S → Except F (Except E α × S)

namespace Prog

variable {F E S α β : Type}

protected def bind (p : Prog F E S α) (f : α → Prog F E S β) : Prog F E S β := fun s =>
  match p s with
  | .error x => .error x
  | .ok (.error e, s') => .ok (.error e, s')
  | .ok (.ok a, s') => f a s'

instance : Monad (Prog F E S) where
  pure a := fun s => .ok (.ok a, s)
  bind := Prog.bind

instance : MonadStateOf S (Prog F E S) where
  get := fun s => .ok (.ok s, s)
  set s := fun _ => .ok (.ok (), s)
  modifyGet f := fun s => .ok (.ok (f s).1, (f s).2)

instance : MonadExceptOf E (Prog F E S) where
  throw e := fun s => .ok (.error e, s)
  tryCatch p h := fun s =>
    match p s with
    | .ok (.error e, s') => h e s'
    | r => r

/-- Run an operation that can only fault, leaving the state alone. -/
def ofExcept (x : Except F α) : Prog F E S α := fun s =>
  match x with
  | .error f => .error f
  | .ok a => .ok (.ok a, s)

/-- Run `p` and hand its failure, if any, to the caller as a value. -/
def attempt (p : Prog F E S α) : Prog F E S (Except E α) := fun s =>
  match p s with
  | .error f => .error f
  | .ok (r, s') => .ok (.ok r, s')

/-- Run the members of a list in order, whatever each of them reports. -/
def forAll (p : α → Prog F E S Unit) : List α → Prog F E S Unit
  | [] => pure ()
  | a :: as => do
    let _ ← (p a).attempt
    forAll p as

/-! ## Running a program one step -/

@[simp] theorem run_pure (a : α) (s : S) : (pure a : Prog F E S α) s = .ok (.ok a, s) := rfl

@[simp] theorem run_throw (e : E) (s : S) : (throw e : Prog F E S α) s = .ok (.error e, s) := rfl

@[simp] theorem run_get_bind (f : S → Prog F E S β) (s : S) :
    ((get : Prog F E S S) >>= f) s = f s s := rfl

@[simp] theorem run_set (s t : S) : (set t : Prog F E S Unit) s = .ok (.ok (), t) := rfl

@[simp] theorem run_set_bind (t : S) (f : Unit → Prog F E S β) (s : S) :
    ((set t : Prog F E S Unit) >>= f) s = f () t := rfl

@[simp] theorem run_modify (g : S → S) (s : S) :
    (modify g : Prog F E S Unit) s = .ok (.ok (), g s) := rfl

@[simp] theorem run_modify_bind (g : S → S) (f : PUnit → Prog F E S β) (s : S) :
    ((modify g : Prog F E S PUnit) >>= f) s = f () (g s) := rfl

@[simp] theorem run_pure_bind (a : α) (f : α → Prog F E S β) (s : S) :
    ((pure a : Prog F E S α) >>= f) s = f a s := rfl

@[simp] theorem run_throw_bind (e : E) (f : α → Prog F E S β) (s : S) :
    ((throw e : Prog F E S α) >>= f) s = .ok (.error e, s) := rfl

@[simp] theorem run_ite {c : Prop} [Decidable c] (p q : Prog F E S α) (s : S) :
    (if c then p else q) s = if c then p s else q s := by
  split <;> rfl

@[simp] theorem run_ofExcept_ok (a : α) (s : S) :
    (ofExcept (.ok a) : Prog F E S α) s = .ok (.ok a, s) := rfl

@[simp] theorem run_ofExcept_ok_bind (a : α) (f : α → Prog F E S β) (s : S) :
    ((ofExcept (.ok a) : Prog F E S α) >>= f) s = f a s := rfl

theorem bind_of_ok {p : Prog F E S α} {f : α → Prog F E S β} {s s' : S} {a : α}
    (h : p s = .ok (.ok a, s')) : (p >>= f) s = f a s' := by
  show Prog.bind p f s = f a s'
  simp [Prog.bind, h]

theorem bind_of_error {p : Prog F E S α} {f : α → Prog F E S β} {s s' : S} {e : E}
    (h : p s = .ok (.error e, s')) : (p >>= f) s = .ok (.error e, s') := by
  show Prog.bind p f s = _
  simp [Prog.bind, h]

theorem bind_of_fault {p : Prog F E S α} {f : α → Prog F E S β} {s : S} {x : F}
    (h : p s = .error x) : (p >>= f) s = .error x := by
  show Prog.bind p f s = _
  simp [Prog.bind, h]

/-- Two sequences do the same from `s` if their first halves do, and their second halves from
wherever that leaves off. -/
theorem bind_congr {p q : Prog F E S α} {f g : α → Prog F E S β} {s : S} (hpq : p s = q s)
    (hfg : ∀ a s', q s = .ok (.ok a, s') → f a s' = g a s') : (p >>= f) s = (q >>= g) s := by
  cases hq : q s with
  | error fault => rw [bind_of_fault (hpq.trans hq), bind_of_fault hq]
  | ok out =>
    obtain ⟨r, s'⟩ := out
    cases r with
    | error e => rw [bind_of_error (hpq.trans hq), bind_of_error hq]
    | ok a => rw [bind_of_ok (hpq.trans hq), bind_of_ok hq, hfg a s' hq]

/-- A sequence that ends without a fault either stops at its first half's failure or runs both. -/
theorem bind_eq_ok {p : Prog F E S α} {f : α → Prog F E S β} {s s' : S} {r : Except E β} :
    (p >>= f) s = .ok (r, s') ↔
      (∃ e, p s = .ok (.error e, s') ∧ r = .error e) ∨
      (∃ a s₁, p s = .ok (.ok a, s₁) ∧ f a s₁ = .ok (r, s')) := by
  show Prog.bind p f s = _ ↔ _
  unfold Prog.bind
  constructor
  · intro h
    split at h
    · cases h
    · next e s₁ hp =>
      simp only [Except.ok.injEq, Prod.mk.injEq] at h
      obtain ⟨rfl, rfl⟩ := h
      exact Or.inl ⟨e, hp, rfl⟩
    · next a s₁ hp => exact Or.inr ⟨a, s₁, hp, h⟩
  · rintro (⟨e, hp, rfl⟩ | ⟨a, s₁, hp, hf⟩)
    · rw [hp]
    · rw [hp]; exact hf

theorem ofExcept_eq_ok {x : Except F α} {a : α} {s s' : S} :
    (ofExcept x : Prog F E S α) s = .ok (.ok a, s') ↔ x = .ok a ∧ s' = s := by
  cases x with
  | error fault => simp [ofExcept]
  | ok b => simp [ofExcept, eq_comm]

theorem ofExcept_bind_eq_ok {x : Except F α} {f : α → Prog F E S β} {s s' : S} {r : Except E β} :
    (ofExcept x >>= f) s = .ok (r, s') ↔ ∃ a, x = .ok a ∧ f a s = .ok (r, s') := by
  cases x with
  | error e => simp [bind_eq_ok, ofExcept]
  | ok a => simp

theorem attempt_bind_eq_ok {p : Prog F E S α} {f : Except E α → Prog F E S β} {s s' : S}
    {r : Except E β} :
    (p.attempt >>= f) s = .ok (r, s') ↔
      ∃ a s₁, p s = .ok (a, s₁) ∧ f a s₁ = .ok (r, s') := by
  rw [bind_eq_ok]
  unfold attempt
  cases hp : p s with
  | error e => simp
  | ok q =>
    obtain ⟨a, s₁⟩ := q
    simp

/-! ## Postconditions -/

/-- If `p` ends without a fault from `s`, then with a result and a state that satisfy `Q`. -/
def Ensures (p : Prog F E S α) (s : S) (Q : Except E α → S → Prop) : Prop :=
  ∀ r s', p s = .ok (r, s') → Q r s'

/-- `p` ends without a fault from `s`, with a result and a state that satisfy `Q`. -/
def Returns (p : Prog F E S α) (s : S) (Q : Except E α → S → Prop) : Prop :=
  ∃ r s', p s = .ok (r, s') ∧ Q r s'

def Faults (p : Prog F E S α) (s : S) (x : F) : Prop := p s = .error x

-- A concrete run is decided by making it.
instance {p : Prog F E S α} {s : S} {Q : Except E α → S → Prop} [∀ r s', Decidable (Q r s')] :
    Decidable (p.Returns s Q) :=
  match h : p s with
  | .ok (r, s') => decidable_of_iff (Q r s') ⟨fun hq => ⟨r, s', h, hq⟩, fun ⟨_, _, h', hq⟩ => by
      rw [h] at h'
      cases h'
      exact hq⟩
  | .error _ => .isFalse fun ⟨_, _, h', _⟩ => by
      rw [h] at h'
      cases h'

instance [DecidableEq F] {p : Prog F E S α} {s : S} {x : F} : Decidable (p.Faults s x) :=
  match h : p s with
  | .ok _ => .isFalse fun (h' : p s = .error x) => by
      rw [h] at h'
      cases h'
  | .error y => decidable_of_iff (y = x) ⟨fun heq => h.trans (congrArg _ heq), fun h' =>
      Except.error.inj (h.symm.trans h')⟩

theorem Returns.mono {p : Prog F E S α} {s : S} {Q Q' : Except E α → S → Prop}
    (h : p.Returns s Q) (hQ : ∀ r s', Q r s' → Q' r s') : p.Returns s Q' := by
  obtain ⟨r, s', hrun, hpost⟩ := h
  exact ⟨r, s', hrun, hQ r s' hpost⟩

/-- A fact about every fault-free end strengthens what a fault-free program is known to return. -/
theorem Returns.and_ensures {p : Prog F E S α} {s : S} {Q Q' : Except E α → S → Prop}
    (h : p.Returns s Q) (h' : p.Ensures s Q') : p.Returns s fun r s' => Q r s' ∧ Q' r s' := by
  obtain ⟨r, s', hrun, hpost⟩ := h
  exact ⟨r, s', hrun, hpost, h' r s' hrun⟩

/-- The sequencing rule: the second half has to return from wherever the first half leaves off. -/
theorem Returns.bind {p : Prog F E S α} {f : α → Prog F E S β} {s : S}
    {R : Except E α → S → Prop} {Q : Except E β → S → Prop} (hp : p.Returns s R)
    (hok : ∀ a s', R (.ok a) s' → (f a).Returns s' Q)
    (herr : ∀ e s', R (.error e) s' → Q (.error e) s') : (p >>= f).Returns s Q := by
  obtain ⟨r, s', hrun, hpost⟩ := hp
  cases r with
  | error e => exact ⟨.error e, s', bind_of_error hrun, herr e s' hpost⟩
  | ok a =>
    obtain ⟨r', s'', hrun', hpost'⟩ := hok a s' hpost
    exact ⟨r', s'', by rw [bind_of_ok hrun, hrun'], hpost'⟩

theorem Ensures.bind {p : Prog F E S α} {f : α → Prog F E S β} {s : S}
    {R : Except E α → S → Prop} {Q : Except E β → S → Prop} (hp : p.Ensures s R)
    (hok : ∀ a s', R (.ok a) s' → (f a).Ensures s' Q)
    (herr : ∀ e s', R (.error e) s' → Q (.error e) s') : (p >>= f).Ensures s Q := by
  intro r s' h
  rcases bind_eq_ok.mp h with ⟨e, he, rfl⟩ | ⟨a, s₁, ha, hf⟩
  · exact herr e s' (hp _ _ he)
  · exact hok a s₁ (hp _ _ ha) r s' hf

/-! ## Running a list of programs -/

/-- A list run hands on no failure. -/
theorem forAll_ok {p : α → Prog F E S Unit} {as : List α} {s s' : S} {r : Except E Unit}
    (h : forAll p as s = .ok (r, s')) : r = .ok () := by
  induction as generalizing s with
  | nil =>
    cases h
    rfl
  | cons a as ih =>
    obtain ⟨_, _, _, hrest⟩ := attempt_bind_eq_ok.mp h
    exact ih hrest

/-- The invariant rule for a list run: what holds before and is kept by every member holds after. -/
theorem forAll_invariant {P : S → Prop} {p : α → Prog F E S Unit} {as : List α} {s s' : S}
    {r : Except E Unit} (hs : P s)
    (hstep : ∀ a ∈ as, ∀ t r t', P t → p a t = .ok (r, t') → P t')
    (h : forAll p as s = .ok (r, s')) : P s' := by
  induction as generalizing s with
  | nil =>
    cases h
    exact hs
  | cons a as ih =>
    obtain ⟨r₁, s₁, h₁, hrest⟩ := attempt_bind_eq_ok.mp h
    have hs₁ := hstep a List.mem_cons_self s r₁ s₁ hs h₁
    exact ih hs₁ (fun b hb => hstep b (List.mem_cons_of_mem a hb)) hrest

/-- The same without faults: if no member faults from where the invariant holds, the run ends. -/
theorem forAll_returns {P : S → Prop} {p : α → Prog F E S Unit} {as : List α} {s : S} (hs : P s)
    (hstep : ∀ a ∈ as, ∀ t, P t → (p a).Returns t fun _ t' => P t') :
    (forAll p as).Returns s fun _ s' => P s' := by
  induction as generalizing s with
  | nil => exact ⟨_, _, rfl, hs⟩
  | cons a as ih =>
    obtain ⟨r₁, s₁, h₁, hs₁⟩ := hstep a List.mem_cons_self s hs
    obtain ⟨r, s', hrest, hs'⟩ := ih hs₁ fun b hb => hstep b (List.mem_cons_of_mem a hb)
    exact ⟨r, s', attempt_bind_eq_ok.mpr ⟨r₁, s₁, h₁, hrest⟩, hs'⟩

/-- A list run that has ended can be taken one member further. -/
theorem forAll_concat {p : α → Prog F E S Unit} {as : List α} {a : α} {s s₁ s' : S}
    {r₁ r : Except E Unit} (h : forAll p as s = .ok (r₁, s₁)) (ha : p a s₁ = .ok (r, s')) :
    forAll p (as ++ [a]) s = .ok (.ok (), s') := by
  induction as generalizing s with
  | nil =>
    cases h
    exact attempt_bind_eq_ok.mpr ⟨r, s', ha, rfl⟩
  | cons b as ih =>
    obtain ⟨r₂, s₂, hb, hrest⟩ := attempt_bind_eq_ok.mp h
    exact attempt_bind_eq_ok.mpr ⟨r₂, s₂, hb, ih hrest⟩

/-! ## Invariants of a program -/

/-- Wherever `p` starts with `I` and ends without a fault, it ends with `I`. -/
def Keeps (I : S → Prop) (p : Prog F E S α) : Prop := ∀ s, I s → p.Ensures s fun _ s' => I s'

section Keeps

variable {I : S → Prop}

theorem keeps_pure (a : α) : Keeps I (pure a : Prog F E S α) := by
  intro s hs r s' h
  cases h
  exact hs

theorem keeps_throw (e : E) : Keeps I (throw e : Prog F E S α) := by
  intro s hs r s' h
  cases h
  exact hs

theorem keeps_ofExcept (x : Except F α) : Keeps I (ofExcept x : Prog F E S α) := by
  intro s hs r s' h
  cases x with
  | error fault => cases h
  | ok a =>
    cases h
    exact hs

theorem Keeps.bind {p : Prog F E S α} {f : α → Prog F E S β} (hp : Keeps I p)
    (hf : ∀ a, Keeps I (f a)) : Keeps I (p >>= f) := by
  intro s hs
  refine (hp s hs).bind (fun a s' hs' => ?_) (fun e s' hs' => hs')
  exact hf a s' hs'

theorem Keeps.ite {c : Prop} [Decidable c] {p q : Prog F E S α} (hp : Keeps I p)
    (hq : Keeps I q) : Keeps I (if c then p else q) := by
  split
  · exact hp
  · exact hq

theorem keeps_forAll {p : α → Prog F E S Unit} {as : List α} (hp : ∀ a ∈ as, Keeps I (p a)) :
    Keeps I (forAll p as) := by
  intro s hs r s' h
  refine forAll_invariant hs (fun a ha t r t' ht hrun => ?_) h
  exact hp a ha t ht r t' hrun

end Keeps

/-! ## Changes of state that pass through a program -/

/-- The change `f` of the state passes through `p`: made before or after, it is the same run. -/
def Passes (f : S → S) (p : Prog F E S α) : Prop :=
  ∀ s, p (f s) = (p s).map fun q => (q.1, f q.2)

section Passes

variable {f : S → S}

theorem passes_pure (a : α) : Passes f (pure a : Prog F E S α) := fun _ => rfl

theorem passes_throw (e : E) : Passes f (throw e : Prog F E S α) := fun _ => rfl

theorem passes_ofExcept (x : Except F α) : Passes f (ofExcept x : Prog F E S α) := by
  intro s
  cases x with
  | error fault => rfl
  | ok a => rfl

theorem Passes.bind {p : Prog F E S α} {g : α → Prog F E S β} (hp : Passes f p)
    (hg : ∀ a, Passes f (g a)) : Passes f (p >>= g) := by
  intro s
  have hs := hp s
  show Prog.bind p g (f s) = (Prog.bind p g s).map _
  unfold Prog.bind
  rw [hs]
  cases hrun : p s with
  | error fault => rfl
  | ok q =>
    obtain ⟨r, s'⟩ := q
    cases r with
    | error e => rfl
    | ok a => exact hg a s'

theorem Passes.attempt {p : Prog F E S α} (hp : Passes f p) : Passes f p.attempt := by
  intro s
  have hs := hp s
  unfold Prog.attempt
  rw [hs]
  cases hrun : p s with
  | error fault => rfl
  | ok q => rfl

theorem Passes.ite {c : Prop} [Decidable c] {p q : Prog F E S α} (hp : Passes f p)
    (hq : Passes f q) : Passes f (if c then p else q) := by
  split
  · exact hp
  · exact hq

theorem passes_forAll {p : α → Prog F E S Unit} (hp : ∀ a, Passes f (p a)) (as : List α) :
    Passes f (forAll p as) := by
  induction as with
  | nil => exact passes_pure ()
  | cons a as ih => exact (hp a).attempt.bind fun _ => ih

end Passes

end Prog

end Machine
