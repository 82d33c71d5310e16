import Mathlib.Data.List.Basic

/-!
# The `str` operations the bridge uses

A Rust `str` is a Lean `String`, read through its list of scalar values.
-/
namespace WmBusbridge.L1.Str

/-- `str::starts_with` -/
def startsWith (s p : String) : Bool := p.toList.isPrefixOf s.toList

/-- `char::is_whitespace` (Unicode `White_Space`). -/
def isWhitespace (c : Char) : Bool :=
  let n := c.toNat
  (0x09 ≤ n && n ≤ 0x0D) || n == 0x20 || n == 0x85 || n == 0xA0 || n == 0x1680 ||
    (0x2000 ≤ n && n ≤ 0x200A) || n == 0x2028 || n == 0x2029 || n == 0x202F || n == 0x205F ||
    n == 0x3000

/-- `str::trim` -/
def trim (s : String) : String :=
  .ofList ((s.toList.dropWhile isWhitespace).reverse.dropWhile isWhitespace).reverse

/-- `str::split` on a character: never empty, and adjacent separators give
empty items. -/
def split (s : String) (sep : Char) : List String := (s.toList.splitOn sep).map .ofList

/-- `str::strip_prefix` -/
def stripPrefix (s p : String) : Option String :=
  if startsWith s p then some (.ofList (s.toList.drop p.toList.length)) else none

/-- One trailing carriage return off a line that a newline ended. -/
def stripCr (l : List Char) : List Char := if l.getLast? = some '\r' then l.dropLast else l

/-- `str::lines`: the pieces ended by a newline, then what follows the last
newline, if anything does. -/
def lines (s : String) : List String :=
  let pieces := s.toList.splitOn '\n'
  let rest := pieces.getLastD []
  (pieces.dropLast.map stripCr ++ if rest = [] then [] else [rest]).map .ofList

theorem startsWith_iff (s p : String) : startsWith s p = true ↔ p.toList <+: s.toList := by
  simp [startsWith]

/-- Every string starts with the empty one. -/
@[simp] theorem startsWith_empty (s : String) : startsWith s "" = true := by
  simp [startsWith]

/-- The empty string starts only with itself. -/
theorem empty_startsWith (p : String) : startsWith "" p = true ↔ p = "" := by
  simp [startsWith_iff]

/-- What follows does not change how a string starts. -/
theorem startsWith_append {s p : String} (t : String) (h : startsWith s p = true) :
    startsWith (s ++ t) p = true := by
  rw [startsWith_iff] at h ⊢
  rw [String.toList_append]
  exact h.trans (List.prefix_append _ _)

/-- A prefix of two strings joined starts the first or goes on from it. -/
theorem startsWith_of_append {s t p : String} (h : startsWith (s ++ t) p = true) :
    startsWith s p = true ∨ startsWith p s = true := by
  simp only [startsWith_iff, String.toList_append] at h ⊢
  exact List.prefix_or_prefix_of_prefix h (List.prefix_append _ _)

/-- A prefix that has not the character `c` does not reach past it. -/
theorem startsWith_of_append_cons {s p : String} {c : Char} {l : List Char}
    (h : startsWith (s ++ .ofList (c :: l)) p = true) (hc : c ∉ p.toList) :
    startsWith s p = true := by
  rcases startsWith_of_append h with hp | hp
  · exact hp
  · rw [startsWith_iff] at h hp ⊢
    obtain ⟨u, hu⟩ := hp
    rw [← hu, String.toList_append, String.toList_ofList, List.prefix_append_right_inj] at h
    cases u with
    | nil =>
      rw [List.append_nil] at hu
      exact hu ▸ List.prefix_refl _
    | cons d u =>
      obtain ⟨rfl, -⟩ := List.cons_prefix_cons.mp h
      exact absurd (hu ▸ List.mem_append_right _ List.mem_cons_self) hc

theorem trim_empty : trim "" = "" := by decide

theorem split_empty (sep : Char) : split "" sep = [""] := by
  simp [split]

/-- What is not the separator is in one of the items. -/
theorem mem_splitOn {c sep : Char} {l : List Char} (hc : c ∈ l) (hne : c ≠ sep) :
    ∃ p ∈ l.splitOn sep, c ∈ p := by
  induction l with
  | nil => cases hc
  | cons x xs ih =>
    obtain ⟨p, ps, hps⟩ := List.exists_cons_of_ne_nil (List.splitOn_ne_nil sep xs)
    rw [List.splitOn_cons_eq_if_modifyHead]
    rcases List.mem_cons.mp hc with rfl | hc
    · rw [if_neg (by simpa using hne), hps]
      exact ⟨c :: p, List.mem_cons_self, List.mem_cons_self⟩
    · obtain ⟨q, hq, hcq⟩ := ih hc
      split
      · exact ⟨q, List.mem_cons_of_mem _ hq, hcq⟩
      · rw [hps] at hq ⊢
        rcases List.mem_cons.mp hq with rfl | hq
        · exact ⟨x :: q, List.mem_cons_self, List.mem_cons_of_mem _ hcq⟩
        · exact ⟨q, List.mem_cons_of_mem _ hq, hcq⟩

/-- A blank at the end is trimmed anyway. -/
theorem trim_append_blank {l : List Char} {c : Char} (hc : isWhitespace c = true) :
    trim (.ofList (l ++ [c])) = trim (.ofList l) := by
  unfold trim
  rw [String.toList_ofList, String.toList_ofList, List.dropWhile_append]
  cases l.dropWhile isWhitespace with
  | nil => simp [hc]
  | cons x xs => simp [List.dropWhile_cons_of_pos hc]

theorem trim_stripCr (l : List Char) : trim (.ofList (stripCr l)) = trim (.ofList l) := by
  unfold stripCr
  split
  · rename_i h
    obtain ⟨init, rfl⟩ : ∃ init, l = init ++ ['\r'] := by
      rcases List.eq_nil_or_concat l with rfl | ⟨init, c, rfl⟩
      · cases h
      · rw [List.concat_eq_append, List.getLast?_concat] at h
        cases h
        exact ⟨init, List.concat_eq_append⟩
    rw [List.dropLast_concat, trim_append_blank (by decide)]
  · rfl

/-- Trimmed, the lines are the pieces between newlines, but for blank ones. -/
theorem mem_trim_lines {s name : String} (hn : name ≠ "") :
    name ∈ (lines s).map trim ↔ name ∈ (split s '\n').map trim := by
  obtain ⟨init, rest, hpieces⟩ : ∃ init rest, s.toList.splitOn '\n' = init ++ [rest] := by
    rcases List.eq_nil_or_concat (s.toList.splitOn '\n') with h | ⟨init, rest, h⟩
    · exact absurd h (List.splitOn_ne_nil _ _)
    · exact ⟨init, rest, by rw [h, List.concat_eq_append]⟩
  have hrest : name ∈ (if rest = [] then [] else [rest]).map (fun l => trim (.ofList l)) ↔
      name = trim (.ofList rest) := by
    split
    · rename_i h
      rw [h]
      exact iff_of_false List.not_mem_nil hn
    · rw [List.map_singleton, List.mem_singleton]
  simp only [lines, split, hpieces, List.dropLast_concat, List.getLastD_concat, List.map_append,
    List.mem_append, hrest, List.map_map, Function.comp_def, trim_stripCr, List.map_singleton,
    List.mem_singleton]

end WmBusbridge.L1.Str
