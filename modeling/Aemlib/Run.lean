import Aemlib.Refinement

/-!
# Runs

A run is a list of API calls, made one after the other whatever each of them reports. `Reachable`
worlds are those a run from a successful `aemlib_init` ends in. An invariant of the link that holds
of a fresh machine and is kept by every step holds in every reachable world
(`Reachable.invariant`).
-/

namespace Aemlib

open Machine

variable {σ : Type}

inductive Call (σ : Type) where
  | init (config : Option (Config σ))
  | request (q : Request)
  | poll

def call : Call σ → Api σ Unit
  | .init config => init config
  | .request q => request q
  | .poll => poll

/-- Make the calls of a list. The user may ignore every status. -/
def run (calls : List (Call σ)) : Api σ Unit := Prog.forAll call calls

/-- A successful `aemlib_init` and any calls after it. -/
def Reachable (w : World σ) : Prop :=
  ∃ config w₀ w₁ calls, init config w₀ = .ok (.ok (), w₁) ∧ run calls w₁ = .ok (.ok (), w)

def Call.isInit : Call σ → Bool
  | .init _ => true
  | _ => false

/-- A call of any kind, from a sound client: the steps it takes begin where the client is, or with
a fresh machine. -/
theorem call_refines {w w' : World σ} {c : Call σ} {r : Except Status Unit} (hs : w.client.Sound)
    (h : call c w = .ok (r, w')) : w'.client.Sound ∧ Link.Steps w.link w'.link := by
  cases c with
  | init config =>
    obtain ⟨r', w'', hrun, hinits⟩ := init_returns config w
    have h' : init config w = .ok (r, w') := h
    rw [hrun] at h'
    cases h'
    obtain ⟨hsound, size, hello, hsteps⟩ := hinits.refines
    exact ⟨hsound, .head (Link.Step.init w.link size hello) hsteps⟩
  | request q =>
    have href := (request_refines hs h).1
    exact ⟨href.sound, href.steps⟩
  | poll =>
    have href := poll_refines hs h
    exact ⟨href.sound, href.steps⟩

/-- A run, from a sound client. -/
theorem run_refines {w w' : World σ} {calls : List (Call σ)} {r : Except Status Unit}
    (hs : w.client.Sound) (h : run calls w = .ok (r, w')) :
    w'.client.Sound ∧ Link.Steps w.link w'.link := by
  refine Prog.forAll_invariant (P := fun v => v.client.Sound ∧ Link.Steps w.link v.link)
    ⟨hs, .refl⟩ (fun c _ v r v' hv hcall => ?_) h
  obtain ⟨hsound, hsteps⟩ := call_refines hv.1 hcall
  exact ⟨hsound, hv.2.trans hsteps⟩

/-- Without another `aemlib_init`, the setup stays what it is. -/
theorem run_setup {w w' : World σ} {calls : List (Call σ)} {r : Except Status Unit}
    (hs : w.client.Sound) (hcalls : ∀ c ∈ calls, c.isInit = false)
    (h : run calls w = .ok (r, w')) : w'.client.setup = w.client.setup := by
  refine (Prog.forAll_invariant (P := fun v => Refines w v) (.refl hs)
    (fun c hc v r v' hv hcall => ?_) h).setup
  cases c with
  | init config => exact absurd (hcalls _ hc) (by simp [Call.isInit])
  | request q => exact hv.trans (request_refines hv.sound hcall).1
  | poll => exact hv.trans (poll_refines hv.sound hcall)

theorem Reachable.refines {w : World σ} (h : Reachable w) :
    w.client.Sound ∧ ∃ size hello trace, Link.Steps (Link.fresh size hello trace) w.link := by
  obtain ⟨config, w₀, w₁, calls, hinit, hrun⟩ := h
  obtain ⟨r', w₁', hinit', hinits⟩ := init_returns config w₀
  rw [hinit'] at hinit
  cases hinit
  obtain ⟨hs₁, size, hello, hsteps₁⟩ := hinits.refines
  obtain ⟨hs, hsteps⟩ := run_refines hs₁ hrun
  exact ⟨hs, size, hello, w₀.trace, hsteps₁.trans hsteps⟩

/-- One call more. -/
theorem Reachable.call {w w' : World σ} {c : Call σ} {r : Except Status Unit} (h : Reachable w)
    (hcall : call c w = .ok (r, w')) : Reachable w' := by
  obtain ⟨config, w₀, w₁, calls, hinit, hrun⟩ := h
  exact ⟨config, w₀, w₁, calls ++ [c], hinit, Prog.forAll_concat hrun hcall⟩

theorem Reachable.sound {w : World σ} (h : Reachable w) : w.client.Sound := h.refines.1

/-- **The invariant rule.** -/
theorem Reachable.invariant {P : Link → Prop} {w : World σ} (h : Reachable w)
    (hfresh : ∀ size hello trace, P (Link.fresh size hello trace))
    (hstep : ∀ {l l'}, Link.Step l l' → P l → P l') : P w.link := by
  obtain ⟨-, size, hello, trace, hsteps⟩ := h.refines
  exact hsteps.invariant (hfresh size hello trace) hstep

/-! ## Concrete runs -/

/-- `aemlib_init` and then the calls, from a zeroed client; nothing if there was a fault or the
configuration was refused. -/
def runFrom (cfg : Config σ) (env : σ) (calls : List (Call σ)) : Option (World σ) :=
  match init (some cfg) ⟨Client.zero σ, env, []⟩ with
  | .ok (.ok (), w₁) =>
    match run calls w₁ with
    | .ok (.ok (), w) => some w
    | _ => none
  | _ => none

/-- A concrete run shows a reachable world that satisfies whatever can be decided at its end. -/
theorem exists_reachable {P : World σ → Prop} [DecidablePred P] (cfg : Config σ) (env : σ)
    (calls : List (Call σ)) (hcalls : ∀ c ∈ calls, c.isInit = false)
    (h : (runFrom cfg env calls).any (fun w => P w) = true) :
    ∃ w, Reachable w ∧ w.client.setup = cfg.client.setup ∧ P w := by
  unfold runFrom at h
  split at h
  · next w₁ hinit =>
    split at h
    · next w hrun =>
      obtain ⟨r', w₁', hinit', hinits⟩ := init_returns (some cfg) ⟨Client.zero σ, env, []⟩
      refine ⟨w, ⟨_, _, _, calls, hinit, hrun⟩, ?_, by simpa using h⟩
      rw [hinit'] at hinit
      cases hinit
      cases hinits with
      | ok cfg hs => exact run_setup { hs with } hcalls hrun
    · simp at h
  · simp at h

end Aemlib
