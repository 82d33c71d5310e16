import Mathlib.Data.List.Basic

/-!
# Appending the expected rows that are missing

A table is filled up from a list of expected keys: a key no row has yet gets a
new row at the end. `missing` is the list of those keys, so that the filled
table is the old one followed by their rows (`fillMissing_eq`).
-/
namespace WmBusbridge.L0

variable {κ ρ : Type} [DecidableEq κ]

/-- For each key in turn: unless some row has it, append `mk` of it. -/
def fillMissing (key : ρ → κ) (mk : κ → ρ) : List ρ → List κ → List ρ
  | rows, [] => rows
  | rows, k :: ks =>
    fillMissing key mk (if rows.any (fun r => key r = k) then rows else rows ++ [mk k]) ks

/-- The keys not among `seen`, each at its first place. -/
def missing : List κ → List κ → List κ
  | _, [] => []
  | seen, k :: ks => if k ∈ seen then missing seen ks else k :: missing (seen ++ [k]) ks

theorem fillMissing_eq {key : ρ → κ} {mk : κ → ρ} (hmk : ∀ k, key (mk k) = k) (rows : List ρ)
    (ks : List κ) :
    fillMissing key mk rows ks = rows ++ (missing (rows.map key) ks).map mk := by
  induction ks generalizing rows with
  | nil => simp [fillMissing, missing]
  | cons k ks ih =>
    have hany : rows.any (fun r => key r = k) = decide (k ∈ rows.map key) := by
      rw [Bool.eq_iff_iff]
      simp
    rw [fillMissing, missing, hany]
    by_cases hk : k ∈ rows.map key
    · simp only [hk, decide_true, if_true]
      exact ih rows
    · simp only [hk, decide_false, Bool.false_eq_true, if_false]
      rw [ih]
      simp [hmk]

theorem mem_missing {seen ks : List κ} {k : κ} :
    k ∈ missing seen ks ↔ k ∈ ks ∧ k ∉ seen := by
  induction ks generalizing seen with
  | nil => simp [missing]
  | cons x xs ih =>
    rw [missing]
    by_cases hx : x ∈ seen
    · rw [if_pos hx, ih, List.mem_cons]
      constructor
      · rintro ⟨hk, hs⟩
        exact ⟨.inr hk, hs⟩
      · rintro ⟨rfl | hk, hs⟩
        · exact absurd hx hs
        · exact ⟨hk, hs⟩
    · rw [if_neg hx, List.mem_cons, ih, List.mem_cons, List.mem_append, List.mem_singleton]
      constructor
      · rintro (rfl | ⟨hk, hs⟩)
        · exact ⟨.inl rfl, hx⟩
        · exact ⟨.inr hk, fun h => hs (.inl h)⟩
      · rintro ⟨rfl | hk, hs⟩
        · exact .inl rfl
        · by_cases e : k = x
          · exact .inl e
          · exact .inr ⟨hk, fun h => h.elim hs e⟩

/-- No key is missing twice. -/
theorem missing_nodup (seen ks : List κ) : (missing seen ks).Nodup := by
  induction ks generalizing seen with
  | nil => exact List.nodup_nil
  | cons k ks ih =>
    rw [missing]
    split
    · exact ih seen
    · refine List.nodup_cons.mpr ⟨fun hmem => ?_, ih (seen ++ [k])⟩
      exact (mem_missing.mp hmem).2 (List.mem_append_right _ List.mem_cons_self)

end WmBusbridge.L0
