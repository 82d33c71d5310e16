import Mathlib.Data.List.Basic

/-!
# Popping from the front of a queue

`popWhile p l` is the drop-oldest loop of a bounded queue: while something is
left and `p` holds of what is left, pop the front. It returns what was popped
and what stays.

* `popWhile_longest`: it pops no more than it has to, as long as `p` is one
  predicate for the whole loop.
-/
namespace WmBusbridge.L0

variable {α : Type}

def popWhile (p : List α → Bool) : List α → List α × List α
  | [] => ([], [])
  | x :: xs =>
    if p (x :: xs) then (x :: (popWhile p xs).1, (popWhile p xs).2) else ([], x :: xs)

/-- Nothing is lost or reordered: popped, then kept. -/
theorem popWhile_append (p : List α → Bool) (l : List α) :
    (popWhile p l).1 ++ (popWhile p l).2 = l := by
  induction l with
  | nil => rfl
  | cons x xs ih =>
    simp only [popWhile]
    split
    · simp [ih]
    · rfl

/-- The loop ends on an empty queue or where `p` fails. -/
theorem popWhile_stop (p : List α → Bool) (l : List α) :
    (popWhile p l).2 = [] ∨ p (popWhile p l).2 = false := by
  induction l with
  | nil => exact .inl rfl
  | cons x xs ih =>
    simp only [popWhile]
    split
    · exact ih
    · rename_i h
      exact .inr (by simpa using h)

/-- A test that does not let go empties the queue. -/
theorem popWhile_all {p : List α → Bool} (l : List α) (h : ∀ s, p s = true) :
    popWhile p l = (l, []) := by
  induction l with
  | nil => rfl
  | cons x xs ih => simp [popWhile, h, ih]

/-! ## The longest suffix -/

structure LongestSuffix (ok : List α → Prop) (l r : List α) : Prop where
  suffix : r <:+ l
  holds : ok r
  longest : ∀ s, s <:+ l → ok s → s <:+ r

/-- What the loop keeps is the longest suffix at which its test lets go. -/
theorem popWhile_longest {p : List α → Bool} (l : List α) (h : p [] = false) :
    LongestSuffix (fun s => p s = false) l (popWhile p l).2 := by
  induction l with
  | nil => exact ⟨List.suffix_refl _, h, fun s hs _ => hs⟩
  | cons x xs ih =>
    simp only [popWhile]
    split
    · rename_i hp
      refine ⟨ih.suffix.trans (List.suffix_cons x xs), ih.holds, fun s hs hps => ?_⟩
      rcases List.suffix_cons_iff.mp hs with rfl | hs
      · rw [hp] at hps
        cases hps
      · exact ih.longest s hs hps
    · rename_i hp
      exact ⟨List.suffix_refl _, by simpa using hp, fun s hs _ => hs⟩

/-- With one entry added at the end, if not even that can be left out. -/
theorem LongestSuffix.snoc {ok ok' : List α → Prop} {l r : List α} {e : α}
    (h : LongestSuffix ok l r) (hok : ∀ s, s <:+ l → (ok s ↔ ok' (s ++ [e]))) :
    LongestSuffix ok' (l ++ [e]) (r ++ [e]) where
  suffix := by
    obtain ⟨t, ht⟩ := h.suffix
    exact ⟨t, by rw [← List.append_assoc, ht]⟩
  holds := (hok r h.suffix).mp h.holds
  longest s hs hs' := by
    rcases List.eq_nil_or_concat s with rfl | ⟨s', x, rfl⟩
    · exact List.nil_suffix
    · rw [List.concat_eq_append] at hs hs' ⊢
      obtain ⟨t, ht⟩ := hs
      rw [← List.append_assoc] at ht
      obtain ⟨hl, rfl⟩ := List.append_singleton_inj.mp ht
      have hsl : s' <:+ l := ⟨t, hl⟩
      obtain ⟨u, hu⟩ := h.longest s' hsl ((hok s' hsl).mpr hs')
      exact ⟨u, by rw [← List.append_assoc, hu]⟩

end WmBusbridge.L0
