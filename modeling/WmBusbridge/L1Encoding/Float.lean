import Mathlib.Algebra.Order.Ring.Unbundled.Rat
import Mathlib.Data.List.MinMax
import WmBusbridge.L1Encoding.Num

/-!
# Comparing and dividing doubles

`F64` under `partial_cmp` is a preorder in which NaN is below and above nothing
but itself, so that `<` is Rust's. `minBy` is `Iterator::min_by` with a comparator
that takes what is incomparable for equal.

* `divU32_eq_fin`, `divU32_eq_nan`, `divU32_zero`: `divU32` is division.
* `minBy_eq`: that is the list's `argmin`, with respect to this preorder.
-/
namespace WmBusbridge.L1
namespace F64

/-- `f64::partial_cmp` -/
def partialCmp : F64 → F64 → Option Ordering
  | .nan, _ | _, .nan => none
  | .negInf, .negInf | .posInf, .posInf => some .eq
  | .negInf, _ | _, .posInf => some .lt
  | _, .negInf | .posInf, _ => some .gt
  | .fin p, .fin q => some (compare p q)

/-- `x / f64::from(n)`; `f64::from(0)` is the positive zero. -/
def divU32 : F64 → UInt32 → F64
  | .nan, _ => .nan
  | .negInf, _ => .negInf
  | .posInf, _ => .posInf
  | .fin q, n =>
    if n = 0 then if q = 0 then .nan else if q < 0 then .negInf else .posInf
    else .fin (q / n.toNat)

/-- `f64::MAX` -/
def MAX : F64 := .fin ((2 ^ 53 - 1) * 2 ^ 971)

theorem partialCmp_trans {a b c : F64} (hab : a.partialCmp b = some .lt)
    (hbc : b.partialCmp c = some .lt) : a.partialCmp c = some .lt := by
  cases a <;> cases b <;> cases c <;> simp only [partialCmp, Option.some.injEq, reduceCtorEq] at *
  rename_i p q r
  rw [compare_lt_iff_lt] at *
  exact hab.trans hbc

theorem partialCmp_irrefl (a : F64) : a.partialCmp a ≠ some .lt := by
  cases a <;> simp [partialCmp]

theorem partialCmp_gt {a b : F64} : a.partialCmp b = some .gt ↔ b.partialCmp a = some .lt := by
  cases a <;> cases b <;> simp [partialCmp, compare_gt_iff_gt, compare_lt_iff_lt]

instance : Preorder F64 where
  le a b := a = b ∨ a.partialCmp b = some .lt
  lt a b := a.partialCmp b = some .lt
  le_refl a := .inl rfl
  le_trans a b c := by
    rintro (rfl | hab) (rfl | hbc)
    · exact .inl rfl
    · exact .inr hbc
    · exact .inr hab
    · exact .inr (partialCmp_trans hab hbc)
  lt_iff_le_not_ge a b := by
    constructor
    · intro h
      refine ⟨.inr h, ?_⟩
      rintro (rfl | h')
      · exact partialCmp_irrefl b h
      · exact partialCmp_irrefl a (partialCmp_trans h h')
    · rintro ⟨rfl | h, hn⟩
      · exact absurd (.inl rfl) hn
      · exact h

theorem lt_iff {a b : F64} : a < b ↔ a.partialCmp b = some .lt := Iff.rfl

instance : DecidableLT F64 := fun a b => decidable_of_iff (a.partialCmp b = some .lt) Iff.rfl

theorem le_iff {a b : F64} : a ≤ b ↔ a = b ∨ a.partialCmp b = some .lt := Iff.rfl

/-- Two numbers compare. -/
theorem le_of_not_lt {a b : F64} (ha : a ≠ .nan) (hb : b ≠ .nan) (h : ¬ b < a) : a ≤ b := by
  rw [lt_iff] at h
  rw [le_iff]
  cases a with
  | nan => exact absurd rfl ha
  | fin p =>
    cases b with
    | fin q =>
      simp only [partialCmp, Option.some.injEq, compare_lt_iff_lt, not_lt, fin.injEq] at h ⊢
      exact h.eq_or_lt
    | _ => simp_all [partialCmp]
  | _ => cases b <;> simp_all [partialCmp]

/-- Only numbers are below something. -/
theorem ne_nan_of_lt {a b : F64} (h : a < b) : a ≠ .nan := by
  rintro rfl
  cases h

/-! ## Division -/

section Divide
variable {a : F64} {n : UInt32} {q : ℚ}

theorem cast_pos (h : n ≠ 0) : (0 : ℚ) < n.toNat := by
  rw [Rat.natCast_pos, Nat.pos_iff_ne_zero]
  exact fun h0 => h (UInt32.toNat.inj h0)

/-- A number is the quotient of its product. -/
theorem divU32_eq_fin (hn : n ≠ 0) : a.divU32 n = .fin q ↔ a = .fin (q * n.toNat) := by
  have h0 : (n.toNat : ℚ) ≠ 0 := (cast_pos hn).ne'
  cases a with
  | fin p =>
    rw [divU32, if_neg hn, fin.injEq, fin.injEq]
    constructor
    · rintro rfl
      exact (Rat.div_mul_cancel h0).symm
    · rintro rfl
      exact Rat.mul_div_cancel h0
  | _ => simp [divU32]

/-- Only `0 / 0` is a NaN that was none before. -/
theorem divU32_eq_nan : a.divU32 n = .nan ↔ a = .nan ∨ (a = .fin 0 ∧ n = 0) := by
  cases a with
  | fin p =>
    rw [divU32]
    by_cases hn : n = 0
    · rw [if_pos hn]
      by_cases hp : p = 0
      · simp [hn, hp]
      · rw [if_neg hp]
        split <;> simp [hp]
    · simp [hn]
  | _ => simp [divU32]

/-- By zero everything else becomes the infinity of its sign. -/
theorem divU32_zero :
    (a.divU32 0 = .posInf ↔ .fin 0 < a) ∧ (a.divU32 0 = .negInf ↔ a < .fin 0) := by
  rw [lt_iff, lt_iff]
  cases a with
  | fin p =>
    simp only [divU32, if_true, partialCmp, Option.some.injEq, compare_lt_iff_lt]
    obtain hp | rfl | hp := lt_trichotomy p 0
    · simp [hp, hp.ne, hp.le]
    · simp
    · simp [hp, hp.ne', hp.le]
  | _ => simp [divU32, partialCmp]

theorem divU32_ne_nan (h : a.divU32 n ≠ .nan) : a ≠ .nan := fun ha =>
  h (divU32_eq_nan.mpr (.inl ha))

/-- Below a bound is below as many times the bound. -/
theorem divU32_lt_fin (hn : n ≠ 0) : a.divU32 n < .fin q ↔ a < .fin (q * n.toNat) := by
  rw [lt_iff, lt_iff]
  cases a with
  | fin p =>
    rw [divU32, if_neg hn]
    simp only [partialCmp, Option.some.injEq, compare_lt_iff_lt]
    exact Rat.div_lt_iff (cast_pos hn)
  | _ => simp [divU32, partialCmp]

end Divide

end F64

/-! ## The least of a list -/

section MinBy
variable {α : Type}

/-- `Iterator::min_by`: of equal minima the first. -/
def minBy (cmp : α → α → Ordering) : List α → Option α
  | [] => none
  | x :: xs => some (xs.foldl (fun best y => if cmp best y = .gt then y else best) x)

/-- `|a, b| a.partial_cmp(&b).unwrap_or(Ordering::Equal)`, by a score -/
def byScore (score : α → F64) (a b : α) : Ordering :=
  ((score a).partialCmp (score b)).getD .eq

theorem byScore_gt {score : α → F64} {a b : α} : byScore score a b = .gt ↔ score b < score a := by
  rw [F64.lt_iff, ← F64.partialCmp_gt, byScore]
  cases (score a).partialCmp (score b) <;> simp

theorem minBy_eq (score : α → F64) (xs : List α) : minBy (byScore score) xs = xs.argmin score := by
  -- both keep the best so far, and replace it by what is strictly less
  have hfold : ∀ (ys : List α) (best : α),
      some (ys.foldl (fun best y => if byScore score best y = .gt then y else best) best) =
        ys.foldl (List.argAux fun b c => score b < score c) (some best) := by
    intro ys
    induction ys with
    | nil => exact fun best => rfl
    | cons y ys ih =>
      intro best
      rw [List.foldl_cons, List.foldl_cons, ih]
      congr 1
      simp only [List.argAux, byScore_gt]
      split <;> rfl
  cases xs with
  | nil => rfl
  | cons x xs => exact hfold xs x

end MinBy
end WmBusbridge.L1
