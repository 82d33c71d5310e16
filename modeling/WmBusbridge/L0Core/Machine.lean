import Mathlib.Data.List.Basic

/-!
# Labelled machines, their runs and their invariants

A `Mach` steps on an action (who moves, and what its environment answers) and
emits observations. `Run G` is a run whose every step meets the guard `G`, with
the actions it took and the observations it made, oldest first.

* `Inductive.reaches`: a predicate that holds at the start and is kept by every
  guarded step holds after every guarded run.
* `Run.simulate`, `Simulates.reaches`: a machine whose every step is, through a
  projection, a run of a second machine has, through it, runs of the second.
* `along_iff`: a predicate that each step keeps exactly when its guard is met
  holds all along a run exactly when every step of the run met the guard.
* `run_of_exec`: a concrete run is checked by evaluation.
-/
namespace WmBusbridge.L0

/-- `none`: the action is not enabled in that state. -/
structure Mach (S A O : Type) where
  init : S → Prop
  step : S → A → Option (S × List O)

namespace Mach

variable {S A O : Type} {M : Mach S A O} {G H : S → A → Prop} {s₀ s t : S} {as bs : List A}
  {tr tr' : List O}

/-- The guard every step meets. -/
def free : S → A → Prop := fun _ _ => True

instance (s : S) (a : A) : Decidable (free s a) := .isTrue trivial

inductive Run (M : Mach S A O) (G : S → A → Prop) (s₀ : S) : List A → S → List O → Prop where
  | nil : Run M G s₀ [] s₀ []
  | snoc {as : List A} {s : S} {tr : List O} {a : A} {s' : S} {os : List O} :
      Run M G s₀ as s tr → G s a → M.step s a = some (s', os) →
      Run M G s₀ (as ++ [a]) s' (tr ++ os)

/-- A guarded run from an initial state. -/
def Reaches (M : Mach S A O) (G : S → A → Prop) (as : List A) (s : S) (tr : List O) : Prop :=
  ∃ s₀, M.init s₀ ∧ M.Run G s₀ as s tr

/-- `P` holds in every state passed on the run of `as` from `s₀`. -/
def Along (M : Mach S A O) (s₀ : S) (as : List A) (P : S → Prop) : Prop :=
  ∀ as₁ as₂ s₁ tr₁, as = as₁ ++ as₂ → M.Run free s₀ as₁ s₁ tr₁ → P s₁

/-! ## Runs -/

theorem Run.single {a : A} {os : List O} (hg : G s a) (h : M.step s a = some (t, os)) :
    M.Run G s [a] t os := by
  have h0 : M.Run G s [] s [] := .nil
  simpa using Run.snoc h0 hg h

theorem Run.append (h₁ : M.Run G s₀ as s tr) (h₂ : M.Run G s bs t tr') :
    M.Run G s₀ (as ++ bs) t (tr ++ tr') := by
  induction h₂ with
  | nil => simpa using h₁
  | snoc _ hg hst ih => simpa [← List.append_assoc] using Run.snoc ih hg hst

theorem Run.mono (h : M.Run G s₀ as s tr) (hGH : ∀ s a, G s a → H s a) :
    M.Run H s₀ as s tr := by
  induction h with
  | nil => exact .nil
  | snoc _ hg hst ih => exact .snoc ih (hGH _ _ hg) hst

theorem Run.toFree (h : M.Run G s₀ as s tr) : M.Run free s₀ as s tr :=
  h.mono fun _ _ _ => trivial

theorem Reaches.snoc {a : A} {os : List O} (h : M.Reaches G as s tr) (hg : G s a)
    (hst : M.step s a = some (t, os)) : M.Reaches G (as ++ [a]) t (tr ++ os) := by
  obtain ⟨s₀, h0, hr⟩ := h
  exact ⟨s₀, h0, .snoc hr hg hst⟩

/-! ## Invariants -/

/-- `I` holds at the start and every guarded step keeps it. `I` may speak of
the actions taken and the observations made so far. -/
structure Inductive (M : Mach S A O) (G : S → A → Prop) (I : List A → S → List O → Prop) :
    Prop where
  init : ∀ s, M.init s → I [] s []
  step : ∀ as s tr a s' os, I as s tr → G s a → M.step s a = some (s', os) →
    I (as ++ [a]) s' (tr ++ os)

variable {I : List A → S → List O → Prop}

theorem Inductive.run (hI : M.Inductive G I) (h0 : M.init s₀) (h : M.Run G s₀ as s tr) :
    I as s tr := by
  induction h with
  | nil => exact hI.init _ h0
  | snoc _ hg hst ih => exact hI.step _ _ _ _ _ _ ih hg hst

theorem Inductive.reaches (hI : M.Inductive G I) (h : M.Reaches G as s tr) : I as s tr := by
  obtain ⟨s₀, h0, hr⟩ := h
  exact hI.run h0 hr

/-! ## Predicates along a run -/

theorem Run.det (h : M.Run G s₀ as s tr) : M.Run H s₀ as t tr' → s = t ∧ tr = tr' := by
  induction h generalizing t tr' with
  | nil =>
    intro h'
    generalize hbs : ([] : List A) = bs at h'
    cases h' with
    | nil => exact ⟨rfl, rfl⟩
    | snoc _ _ _ => simp at hbs
  | @snoc as s tr a s' os _ hg hst ih =>
    intro h'
    generalize hbs : as ++ [a] = bs at h'
    cases h' with
    | nil => simp at hbs
    | snoc hr' _ hst' =>
      obtain ⟨rfl, rfl⟩ := List.append_singleton_inj.mp hbs
      obtain ⟨rfl, rfl⟩ := ih hr'
      rw [hst] at hst'
      cases hst'
      exact ⟨rfl, rfl⟩

theorem Along.here {P : S → Prop} (hP : M.Along s₀ as P) (h : M.Run G s₀ as s tr) : P s :=
  hP as [] s tr (by simp) h.toFree

theorem Along.before {P : S → Prop} (hP : M.Along s₀ (as ++ bs) P) : M.Along s₀ as P :=
  fun as₁ as₂ s₁ tr₁ he hr => hP as₁ (as₂ ++ bs) s₁ tr₁ (by simp [he]) hr

theorem along_iff {P : S → Prop} (h0 : P s₀)
    (hP : ∀ s a s' os, P s → M.step s a = some (s', os) → (P s' ↔ G s a))
    (h : M.Run free s₀ as s tr) : M.Along s₀ as P ↔ M.Run G s₀ as s tr := by
  constructor
  · intro hal
    induction h with
    | nil => exact .nil
    | @snoc as s tr a s' os hr hg hst ih =>
      have hPs : P s := hal.before.here hr
      have hPs' : P s' := hal.here (.snoc hr hg hst)
      exact .snoc (ih hal.before) ((hP s a s' os hPs hst).mp hPs') hst
  · intro hG
    clear h
    induction hG with
    | nil =>
      intro as₁ as₂ s₁ tr₁ he hr
      obtain ⟨rfl, rfl⟩ := List.append_eq_nil_iff.mp he.symm
      obtain ⟨rfl, -⟩ := (Run.nil : M.Run G s₀ [] s₀ []).det hr
      exact h0
    | @snoc as s tr a s' os hr hg hst ih =>
      intro as₁ as₂ s₁ tr₁ he hr₁
      rcases List.eq_nil_or_concat as₂ with rfl | ⟨as₂', b, rfl⟩
      · -- the whole run: its last step kept `P`
        rw [List.append_nil] at he
        subst he
        obtain ⟨rfl, -⟩ := (Run.snoc hr hg hst).det hr₁
        exact (hP s a s' os (ih.here hr) hst).mpr hg
      · rw [List.concat_eq_append, ← List.append_assoc] at he
        obtain ⟨rfl, -⟩ := List.append_singleton_inj.mp he
        exact ih as₁ as₂' s₁ tr₁ rfl hr₁

/-! ## Simulation by a second machine -/

section Simulation
variable {T B P : Type} {N : Mach T B P} {K : T → B → Prop}

/-- Every guarded step of `M` is, through `f` and `po`, a guarded run of `N`:
no step of it, one or several. -/
def Simulates (M : Mach S A O) (G : S → A → Prop) (N : Mach T B P) (K : T → B → Prop)
    (f : S → T) (po : O → Option P) : Prop :=
  ∀ s a s' os, G s a → M.step s a = some (s', os) →
    ∃ bs, N.Run K (f s) bs (f s') (os.filterMap po)

theorem Run.simulate {f : S → T} {po : O → Option P} (hs : Simulates M G N K f po)
    (h : M.Run G s₀ as s tr) : ∃ bs, N.Run K (f s₀) bs (f s) (tr.filterMap po) := by
  induction h with
  | nil => exact ⟨[], .nil⟩
  | @snoc as s tr a s' os _ hg hst ih =>
    obtain ⟨bs, hr⟩ := ih
    obtain ⟨cs, hr'⟩ := hs s a s' os hg hst
    refine ⟨bs ++ cs, ?_⟩
    rw [List.filterMap_append]
    exact hr.append hr'

/-- What is proved of every run of `N` holds, through the projection, of every
guarded run of `M`. -/
theorem Simulates.reaches {f : S → T} {po : O → Option P} (hs : Simulates M free N K f po)
    (hinit : ∀ s, M.init s → N.init (f s)) (h : M.Reaches G as s tr) :
    ∃ bs, N.Reaches K bs (f s) (tr.filterMap po) := by
  obtain ⟨s₀, h0, hrun⟩ := h
  obtain ⟨bs, hbs⟩ := hrun.toFree.simulate hs
  exact ⟨bs, f s₀, hinit s₀ h0, hbs⟩

end Simulation

/-! ## Evaluation -/

/-- The run of `as` from `s`, checking the guard before every step. -/
def exec (M : Mach S A O) (G : S → A → Prop) [∀ s a, Decidable (G s a)] :
    S → List A → Option (S × List O)
  | s, [] => some (s, [])
  | s, a :: as =>
    if G s a then
      match M.step s a with
      | none => none
      | some (s', os) => (exec M G s' as).map fun r => (r.1, os ++ r.2)
    else none

theorem run_of_exec [∀ s a, Decidable (G s a)] :
    ∀ {s : S} {as : List A} {t : S} {tr : List O},
      M.exec G s as = some (t, tr) → M.Run G s as t tr
  | s, [], t, tr, h => by
    simp only [exec, Option.some.injEq, Prod.mk.injEq] at h
    obtain ⟨rfl, rfl⟩ := h
    exact .nil
  | s, a :: as, t, tr, h => by
    simp only [exec] at h
    split at h
    · rename_i hg
      split at h
      · cases h
      · rename_i s' os hst
        simp only [Option.map_eq_some_iff, Prod.mk.injEq, Prod.exists] at h
        obtain ⟨t', tr', hr, rfl, rfl⟩ := h
        simpa using (Run.single hg hst).append (run_of_exec hr)
    · cases h

end Mach
end WmBusbridge.L0
