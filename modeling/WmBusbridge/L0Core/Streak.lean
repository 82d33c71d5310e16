import Mathlib.Data.List.Basic
import Mathlib.Data.List.Induction

/-!
# Streaks and two-threshold hysteresis

A history is a list of results, oldest first. `Streak b k h`: its last `k`
results are all `b`. `DownSpec D U h` is the stateless reading of a detector
that trips on a streak of `D` failures and resets on a streak of `U` successes:
some position ends `D` failures and no later position ends `U` successes.

* `streak_iff`: a streak is a lower bound on the trailing run.
* `downSpec_append`: the specification as a recurrence on one more result.
* `changes_append`: the positions where a function of the history changes.
-/
namespace WmBusbridge.L0

/-! ## Streaks -/

def Streak (b : Bool) (k : Nat) (h : List Bool) : Prop := List.replicate k b <:+ h

instance (b : Bool) (k : Nat) (h : List Bool) : Decidable (Streak b k h) :=
  inferInstanceAs (Decidable (_ <:+ _))

/-- Length of the trailing run of `b`. -/
def trail (b : Bool) (h : List Bool) : Nat := (h.reverse.takeWhile (· == b)).length

@[simp] theorem trail_nil (b : Bool) : trail b [] = 0 := rfl

@[simp] theorem trail_append_self (b : Bool) (h : List Bool) :
    trail b (h ++ [b]) = trail b h + 1 := by
  simp [trail]

theorem trail_append_ne {b x : Bool} (hx : x ≠ b) (h : List Bool) : trail b (h ++ [x]) = 0 := by
  simp [trail, hx]

theorem streak_append (b x : Bool) (k : Nat) (h : List Bool) :
    Streak b (k + 1) (h ++ [x]) ↔ x = b ∧ Streak b k h := by
  unfold Streak
  rw [← List.reverse_prefix, List.reverse_append, List.reverse_replicate, List.replicate_succ]
  simp only [List.reverse_cons, List.reverse_nil, List.nil_append, List.singleton_append,
    List.cons_prefix_cons]
  rw [← List.reverse_prefix, List.reverse_replicate, eq_comm (a := b)]

theorem streak_iff (b : Bool) (k : Nat) (h : List Bool) : Streak b k h ↔ k ≤ trail b h := by
  induction h using List.reverseRecOn generalizing k with
  | nil => simp [Streak]
  | append_singleton h x ih =>
    cases k with
    | zero => simp [Streak]
    | succ k =>
      rw [streak_append, ih]
      by_cases hx : x = b
      · subst hx
        simp
      · simp [hx, trail_append_ne hx]

/-! ## The specification -/

def DownSpec (D U : Nat) (h : List Bool) : Prop :=
  ∃ i ∈ List.range (h.length + 1), Streak false D (h.take i) ∧
    ∀ j ∈ List.range (h.length + 1), i < j → ¬ Streak true U (h.take j)

instance (D U : Nat) (h : List Bool) : Decidable (DownSpec D U h) :=
  inferInstanceAs (Decidable (∃ i ∈ _, _))

theorem downSpec_nil {D U : Nat} (hD : 0 < D) : ¬ DownSpec D U [] := by
  rintro ⟨i, -, hs, -⟩
  rw [List.take_nil, streak_iff, trail_nil] at hs
  omega

theorem downSpec_append (D U : Nat) (h : List Bool) (x : Bool) :
    DownSpec D U (h ++ [x]) ↔
      Streak false D (h ++ [x]) ∨ (DownSpec D U h ∧ ¬ Streak true U (h ++ [x])) := by
  have hlen : (h ++ [x]).length = h.length + 1 := by simp
  constructor
  · rintro ⟨i, hi, hs, hno⟩
    simp only [hlen, List.mem_range] at hi hno
    by_cases hlast : i = h.length + 1
    · subst hlast
      rw [List.take_of_length_le (by omega)] at hs
      exact .inl hs
    · refine .inr ⟨⟨i, by simp only [List.mem_range]; omega, ?_, ?_⟩, ?_⟩
      · rwa [List.take_append_of_le_length (by omega)] at hs
      · intro j hj hij
        simp only [List.mem_range] at hj
        have := hno j (by omega) hij
        rwa [List.take_append_of_le_length (by omega)] at this
      · have := hno (h.length + 1) (by omega) (by omega)
        rwa [List.take_of_length_le (by omega)] at this
  · rintro (hs | ⟨⟨i, hi, hs, hno⟩, hx⟩)
    · refine ⟨h.length + 1, by simp, ?_, ?_⟩
      · rwa [List.take_of_length_le (by omega)]
      · intro j hj hij
        simp only [hlen, List.mem_range] at hj
        omega
    · simp only [List.mem_range] at hi hno
      refine ⟨i, by simp only [hlen, List.mem_range]; omega, ?_, ?_⟩
      · rwa [List.take_append_of_le_length (by omega)]
      · intro j hj hij
        simp only [hlen, List.mem_range] at hj
        by_cases hlast : j = h.length + 1
        · subst hlast
          rwa [List.take_of_length_le (by omega)]
        · rw [List.take_append_of_le_length (by omega)]
          exact hno j (by omega) hij

/-- Up so far: one more result trips the detector exactly by ending a failure streak. -/
theorem downSpec_append_of_up {D U : Nat} {h : List Bool} (hup : ¬ DownSpec D U h) (x : Bool) :
    DownSpec D U (h ++ [x]) ↔ Streak false D (h ++ [x]) := by
  rw [downSpec_append]
  simp [hup]

/-- Down so far: one more result resets the detector exactly by ending a success streak. -/
theorem downSpec_append_of_down {D U : Nat} (hD : 0 < D) (hU : 0 < U) {h : List Bool}
    (hdown : DownSpec D U h) (x : Bool) :
    DownSpec D U (h ++ [x]) ↔ ¬ Streak true U (h ++ [x]) := by
  rw [downSpec_append]
  refine ⟨?_, fun hx => .inr ⟨hdown, hx⟩⟩
  rintro (hf | ⟨-, hx⟩)
  · obtain ⟨D, rfl⟩ : ∃ k, D = k + 1 := ⟨D - 1, by omega⟩
    obtain ⟨U, rfl⟩ : ∃ k, U = k + 1 := ⟨U - 1, by omega⟩
    rw [streak_append] at hf ⊢
    rintro ⟨hx, -⟩
    rw [hf.1] at hx
    cases hx
  · exact hx

/-! ## Changes -/

section Changes
variable {α σ : Type} [DecidableEq σ]

/-- The positions (1-based) at which `f` of the history so far changes, with the
new value. -/
def changes (f : List α → σ) (h : List α) : List (Nat × σ) :=
  (List.range h.length).filterMap fun i =>
    if f (h.take (i + 1)) = f (h.take i) then none else some (i + 1, f (h.take (i + 1)))

theorem changes_append (f : List α → σ) (h : List α) (x : α) :
    changes f (h ++ [x]) =
      changes f h ++ if f (h ++ [x]) = f h then [] else [(h.length + 1, f (h ++ [x]))] := by
  unfold changes
  rw [List.length_append, List.length_singleton, List.range_succ, List.filterMap_append]
  congr 1
  · refine List.filterMap_congr fun i hi => ?_
    rw [List.mem_range] at hi
    rw [List.take_append_of_le_length (by omega), List.take_append_of_le_length (by omega)]
  · rw [List.filterMap_cons, List.filterMap_nil, List.take_of_length_le (by simp),
      List.take_left' rfl]
    by_cases hx : f (h ++ [x]) = f h <;> simp [hx]

end Changes
end WmBusbridge.L0
