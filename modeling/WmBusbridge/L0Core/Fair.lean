import Mathlib.Data.Prod.Lex
import Mathlib.Order.WellFounded
import WmBusbridge.L0Core.Machine

/-!
# Endless executions and progress

An `Exec` is an endless execution of a machine: a state, an action and what it
shows at every time. Its beginnings are the runs of the machine.

* `Exec.reaches`: at every time the state is reached by the actions before it.
* `Exec.always`: what every later step keeps holds from then on.
* `Exec.eventually`: progress by a rank in a well-founded order that the fair
  actions lower and no other action raises, short of the goal.
* `Sched.exec`: the execution of a scheduler that always picks an enabled action.
-/
namespace WmBusbridge.L0.Mach

variable {S A O : Type} {M : Mach S A O}

structure Exec (M : Mach S A O) where
  st : ℕ → S
  act : ℕ → A
  obs : ℕ → List O
  init : M.init (st 0)
  step : ∀ n, M.step (st n) (act n) = some (st (n + 1), obs n)

namespace Exec
variable (E : M.Exec)

/-- The actions before time `n`. -/
def acts (n : ℕ) : List A := (List.range n).map E.act

/-- What they showed. -/
def shown (n : ℕ) : List O := (List.range n).flatMap E.obs

theorem acts_succ (n : ℕ) : E.acts (n + 1) = E.acts n ++ [E.act n] := by
  simp [acts, List.range_succ]

theorem shown_succ (n : ℕ) : E.shown (n + 1) = E.shown n ++ E.obs n := by
  simp [shown, List.range_succ]

theorem run (n : ℕ) : M.Run free (E.st 0) (E.acts n) (E.st n) (E.shown n) := by
  induction n with
  | zero => exact .nil
  | succ n ih =>
    rw [acts_succ, shown_succ]
    exact .snoc ih trivial (E.step n)

theorem reaches (n : ℕ) : M.Reaches free (E.acts n) (E.st n) (E.shown n) :=
  ⟨E.st 0, E.init, E.run n⟩

variable {E}

/-- What holds once and is kept by every step from then on holds from then on. -/
theorem always {P : S → Prop} {N : ℕ} (hP : P (E.st N))
    (hkeep : ∀ n, N ≤ n → P (E.st n) → P (E.st (n + 1))) : ∀ n, N ≤ n → P (E.st n) := by
  intro n hn
  induction n, hn using Nat.le_induction with
  | base => exact hP
  | succ n hn ih => exact hkeep n hn ih

/-- An action of this kind comes again and again. -/
def Recurs (E : M.Exec) (F : A → Prop) : Prop := ∀ n, ∃ m, n ≤ m ∧ F (E.act m)

/-- **Progress.** From time `N` on, short of the goal, a fair action reaches it or
lowers the rank, and any other action reaches it or does not raise the rank. Then
the goal is reached after every time. -/
theorem eventually {W : Type} [Preorder W] [WellFoundedLT W] {F : A → Prop} {goal : S → Prop}
    (rank : S → W) {N : ℕ} (hfair : E.Recurs F)
    (hdown : ∀ n, N ≤ n → F (E.act n) → ¬ goal (E.st n) →
      goal (E.st (n + 1)) ∨ rank (E.st (n + 1)) < rank (E.st n))
    (hkeep : ∀ n, N ≤ n → ¬ F (E.act n) → ¬ goal (E.st n) →
      goal (E.st (n + 1)) ∨ rank (E.st (n + 1)) ≤ rank (E.st n)) :
    ∀ n, N ≤ n → ∃ m, n ≤ m ∧ goal (E.st m) := by
  intro n hn
  by_contra hno
  have hshort : ∀ m, n ≤ m → ¬ goal (E.st m) := fun m hm hg => hno ⟨m, hm, hg⟩
  have hlt : ∀ m, n ≤ m → F (E.act m) → rank (E.st (m + 1)) < rank (E.st m) := fun m hm hF =>
    (hdown m (hn.trans hm) hF (hshort m hm)).resolve_left (hshort _ (hm.trans m.le_succ))
  have hle : ∀ m, n ≤ m → rank (E.st (m + 1)) ≤ rank (E.st m) := by
    intro m hm
    by_cases hF : F (E.act m)
    · exact (hlt m hm hF).le
    · exact (hkeep m (hn.trans hm) hF (hshort m hm)).resolve_left (hshort _ (hm.trans m.le_succ))
  have hanti : ∀ m k, n ≤ m → m ≤ k → rank (E.st k) ≤ rank (E.st m) := by
    intro m k hm hk
    induction k, hk using Nat.le_induction with
    | base => exact le_rfl
    | succ k hk ih => exact (hle k (hm.trans hk)).trans ih
  -- without the goal the rank would fall for ever
  have hfall : ∀ w m, n ≤ m → rank (E.st m) = w → False := by
    intro w
    induction w using WellFoundedLT.induction with
    | ind w ih =>
      rintro m hm rfl
      obtain ⟨k, hmk, hF⟩ := hfair m
      have hnk : n ≤ k := hm.trans hmk
      exact ih _ ((hlt k hnk hF).trans_le (hanti m k hm hmk)) (k + 1) (hnk.trans k.le_succ) rfl
  exact hfall _ n le_rfl rfl

end Exec

/-! ## Scheduled executions -/

/-- The action the scheduler picks at each time is enabled. -/
structure Sched (M : Mach S A O) where
  start : S
  init : M.init start
  pick : ℕ → S → A
  enabled : ∀ n s, (M.step s (pick n s)).isSome = true

/-- The state at time `n`. -/
def Sched.at (C : M.Sched) : ℕ → S
  | 0 => C.start
  | n + 1 => ((M.step (C.at n) (C.pick n (C.at n))).get (C.enabled n _)).1

def Sched.exec (C : M.Sched) : M.Exec where
  st := C.at
  act n := C.pick n (C.at n)
  obs n := ((M.step (C.at n) (C.pick n (C.at n))).get (C.enabled n _)).2
  init := C.init
  step n := by simp [Sched.at]

end WmBusbridge.L0.Mach
