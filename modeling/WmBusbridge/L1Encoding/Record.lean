import Mathlib.Data.List.Nodup
import Mathlib.Data.List.Perm.Basic

/-!
# Reading a record from named fields

What a derived `Deserialize` does with a map: it takes the fields as they come, keeps
those it knows, rejects one that comes twice and skips the others. `Source` is what it
then builds the record from.

* `source_eq`: what is kept is what each known name is bound to.
* `source_perm`: the order of the fields is not looked at.
* `source_unknown`: nor are fields that are not known.
-/
namespace WmBusbridge.L1.Record

variable {α : Type} {known : List String} {k : String} {v : α} {fs gs kept : List (String × α)}

/-- The known fields as they come, after those `kept`; `none`: one comes twice. -/
def collect (known : List String) :
    List (String × α) → List (String × α) → Option (List (String × α))
  | kept, [] => some kept
  | kept, (k, v) :: fs =>
    if k ∈ known then
      if (kept.lookup k).isSome then none else collect known (kept ++ [(k, v)]) fs
    else collect known kept fs

/-- What each name is bound to. -/
abbrev Source (α : Type) := String → Option α

def source (known : List String) (fs : List (String × α)) : Option (Source α) :=
  (collect known [] fs).map fun kept k => kept.lookup k

/-- The fields with a known name. -/
def ofKnown (known : List String) (fs : List (String × α)) : List (String × α) :=
  fs.filter fun f => f.1 ∈ known

/-! ## Lookup -/

theorem lookup_isSome : (fs.lookup k).isSome = true ↔ k ∈ fs.map Prod.fst := by
  induction fs with
  | nil => simp
  | cons f fs ih =>
    obtain ⟨l, w⟩ := f
    rw [List.lookup_cons, List.map_cons, List.mem_cons, ← ih]
    by_cases h : k = l
    · simp [h]
    · simp [beq_false_of_ne h, h]

/-- With distinct names, looking up is membership. -/
theorem lookup_iff_mem (h : (fs.map Prod.fst).Nodup) : fs.lookup k = some v ↔ (k, v) ∈ fs := by
  induction fs with
  | nil => simp
  | cons f fs ih =>
    obtain ⟨l, w⟩ := f
    rw [List.map_cons, List.nodup_cons] at h
    rw [List.lookup_cons, List.mem_cons, ← ih h.2]
    by_cases hk : k = l
    · subst hk
      have hnone : fs.lookup k ≠ some v := fun hs =>
        h.1 (lookup_isSome.mp (Option.isSome_iff_exists.mpr ⟨v, hs⟩))
      simp [hnone, eq_comm]
    · simp [beq_false_of_ne hk, hk]

/-- The order of fields with distinct names does not matter. -/
theorem lookup_perm (hp : fs.Perm gs) (h : (fs.map Prod.fst).Nodup) :
    fs.lookup k = gs.lookup k := by
  refine Option.ext fun v => ?_
  rw [lookup_iff_mem h, lookup_iff_mem ((hp.map _).nodup_iff.mp h), hp.mem_iff]

/-! ## Collecting -/

theorem collect_eq (hkept : (kept.map Prod.fst).Nodup) : collect known kept fs =
    if ((kept ++ ofKnown known fs).map Prod.fst).Nodup then some (kept ++ ofKnown known fs)
    else none := by
  induction fs generalizing kept with
  | nil => simp [collect, ofKnown, hkept]
  | cons f fs ih =>
    obtain ⟨k, v⟩ := f
    rw [collect]
    by_cases hk : k ∈ known
    · have hcons : ofKnown known ((k, v) :: fs) = (k, v) :: ofKnown known fs :=
        List.filter_cons_of_pos (by simpa using hk)
      rw [if_pos hk, hcons]
      by_cases hdup : (kept.lookup k).isSome = true
      · have hnot : ¬ ((kept ++ (k, v) :: ofKnown known fs).map Prod.fst).Nodup := by
          rw [List.map_append, List.map_cons, List.nodup_append']
          exact fun h => h.2.2 (lookup_isSome.mp hdup) List.mem_cons_self
        rw [if_pos hdup, if_neg hnot]
      · have hnew : ((kept ++ [(k, v)]).map Prod.fst).Nodup := by
          rw [List.map_append, List.map_singleton, List.nodup_append_comm]
          exact List.nodup_cons.mpr ⟨fun h => hdup (lookup_isSome.mpr h), hkept⟩
        rw [if_neg hdup, ih hnew, List.append_assoc, List.singleton_append]
    · have hskip : ofKnown known ((k, v) :: fs) = ofKnown known fs :=
        List.filter_cons_of_neg (by simpa using hk)
      rw [if_neg hk, hskip, ih hkept]

/-- A source is there when no known name comes twice, and binds the known names as the
fields do. -/
theorem source_eq (known : List String) (fs : List (String × α)) : source known fs =
    if ((ofKnown known fs).map Prod.fst).Nodup then some fun k => (ofKnown known fs).lookup k
    else none := by
  have hnil : (([] : List (String × α)).map Prod.fst).Nodup := List.nodup_nil
  rw [source, collect_eq hnil, List.nil_append]
  split <;> rfl

/-- The order of the fields is not looked at. -/
theorem source_perm (hp : fs.Perm gs) : source known fs = source known gs := by
  have hknown : (ofKnown known fs).Perm (ofKnown known gs) := hp.filter _
  have hnodup := (hknown.map Prod.fst).nodup_iff
  rw [source_eq, source_eq]
  by_cases h : ((ofKnown known fs).map Prod.fst).Nodup
  · rw [if_pos h, if_pos (hnodup.mp h)]
    exact congrArg some (funext fun k => lookup_perm hknown h)
  · rw [if_neg h, if_neg fun hg => h (hnodup.mpr hg)]

/-- Fields that are not known are not looked at. -/
theorem source_unknown (h : ∀ f ∈ gs, f.1 ∉ known) : source known (fs ++ gs) = source known fs := by
  have hnone : ofKnown known gs = [] :=
    List.filter_eq_nil_iff.mpr fun f hf => by simpa using h f hf
  have hsame : ofKnown known (fs ++ gs) = ofKnown known fs := by
    rw [ofKnown, List.filter_append]
    show ofKnown known fs ++ ofKnown known gs = _
    rw [hnone, List.append_nil]
  rw [source_eq, source_eq, hsame]

/-- Known fields with distinct names are all kept. -/
theorem source_of_nodup (hk : ∀ f ∈ fs, f.1 ∈ known) (h : (fs.map Prod.fst).Nodup) :
    source known fs = some fun k => fs.lookup k := by
  have hall : ofKnown known fs = fs := List.filter_eq_self.mpr fun f hf => by simpa using hk f hf
  rw [source_eq, hall, if_pos h]

end WmBusbridge.L1.Record
