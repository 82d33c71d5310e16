import WmBusbridge.L1Encoding.Double
import WmBusbridge.L1Encoding.Json

/-!
# What `serde_json` prints and reads back

`serde_json` is outside the repository. What is relied on is that a printed text is
read back as the same tree, but for two things: it gives up on a text nested 128
deep, and without its feature `float_roundtrip` a double may come back as another
one. `NumberText` is what the doubles come back as, `SerdeJson` its `Value`s,
`JsonText` documents that it prints and reads as records.

* `get_reread`, `asBool_reread`, `asStr_reread`: rounding reaches nothing but doubles.
* `Plain.reads`: a value not too deep whose doubles have few digits is read back as
  itself.
-/
namespace WmBusbridge.L1

/-- The double that is read in the text printed for one: another finite one maybe, but
the same where the text is short. -/
structure NumberText where
  reread : UInt64 → UInt64
  finite : ∀ b, F64.isFinite b = true → F64.isFinite (reread b) = true
  short : ∀ b, F64.Short b → reread b = b

namespace Number

def reread (r : UInt64 → UInt64) : Number → Number
  | .float b => .float (r b)
  | n => n

/-- A whole number, or a short double. -/
def Short : Number → Prop
  | .float b => F64.Short b
  | _ => True

end Number

namespace Json

mutual
/-- How deep arrays and objects are nested. -/
def depth : Json → Nat
  | .null | .bool _ | .num _ | .str _ => 0
  | .arr items => depthItems items + 1
  | .obj fields => depthFields fields + 1

def depthItems : List Json → Nat
  | [] => 0
  | v :: vs => max v.depth (depthItems vs)

def depthFields : List (String × Json) → Nat
  | [] => 0
  | (_, v) :: fs => max v.depth (depthFields fs)
end

mutual
def numbers : Json → List Number
  | .null | .bool _ | .str _ => []
  | .num n => [n]
  | .arr items => numbersItems items
  | .obj fields => numbersFields fields

def numbersItems : List Json → List Number
  | [] => []
  | v :: vs => v.numbers ++ numbersItems vs

def numbersFields : List (String × Json) → List Number
  | [] => []
  | (_, v) :: fs => v.numbers ++ numbersFields fs
end

mutual
/-- The same tree with other doubles. -/
def reread (r : UInt64 → UInt64) : Json → Json
  | .num n => .num (n.reread r)
  | .arr items => .arr (rereadItems r items)
  | .obj fields => .obj (rereadFields r fields)
  | j => j

def rereadItems (r : UInt64 → UInt64) : List Json → List Json
  | [] => []
  | v :: vs => v.reread r :: rereadItems r vs

def rereadFields (r : UInt64 → UInt64) : List (String × Json) → List (String × Json)
  | [] => []
  | (k, v) :: fs => (k, v.reread r) :: rereadFields r fs
end

/-- A text that `serde_json` does not give up on, of numbers that it prints. -/
def printable (j : Json) : Bool := decide (j.depth < 128) && j.numbers.all Number.wf

/-- No double has a long text. -/
def Short (j : Json) : Prop := ∀ n ∈ j.numbers, n.Short

section Reread
variable {r : UInt64 → UInt64} {fields : List (String × Json)}

theorem rereadFields_eq (r : UInt64 → UInt64) (fields : List (String × Json)) :
    rereadFields r fields = fields.map fun f => (f.1, f.2.reread r) := by
  induction fields with
  | nil => rfl
  | cons f fs ih => rw [rereadFields, ih, List.map_cons]

theorem rereadFields_perm {known unknown : List (String × Json)}
    (h : fields.Perm (known ++ unknown)) :
    (rereadFields r fields).Perm (rereadFields r known ++ rereadFields r unknown) := by
  rw [rereadFields_eq, rereadFields_eq, rereadFields_eq, ← List.map_append]
  exact h.map _

/-- Names are not numbers. -/
theorem rereadFields_names {names : List String} (h : ∀ f ∈ fields, f.1 ∉ names) :
    ∀ f ∈ rereadFields r fields, f.1 ∉ names := by
  intro f hf
  rw [rereadFields_eq] at hf
  obtain ⟨f', hf', rfl⟩ := List.mem_map.mp hf
  exact h f' hf'

theorem lookup_rereadFields (r : UInt64 → UInt64) (fields : List (String × Json)) (key : String) :
    (rereadFields r fields).lookup key = (fields.lookup key).map (reread r) := by
  induction fields with
  | nil => rfl
  | cons f fs ih =>
    obtain ⟨k, v⟩ := f
    rw [rereadFields, List.lookup_cons, List.lookup_cons, ih]
    split <;> rfl

theorem get_reread (r : UInt64 → UInt64) (j : Json) (key : String) :
    (j.reread r).get key = (j.get key).map (reread r) := by
  cases j with
  | obj fields =>
    rw [reread]
    exact lookup_rereadFields r fields key
  | _ => rfl

@[simp] theorem asBool_reread (r : UInt64 → UInt64) (j : Json) :
    (j.reread r).asBool = j.asBool := by
  cases j <;> rfl

@[simp] theorem asStr_reread (r : UInt64 → UInt64) (j : Json) : (j.reread r).asStr = j.asStr := by
  cases j <;> rfl

mutual
/-- Rounding keeps keys, and finite doubles finite. -/
theorem wf_reread (hr : ∀ b, F64.isFinite b = true → F64.isFinite (r b) = true) :
    ∀ j : Json, j.wf = true → (j.reread r).wf = true
  | .null, _ | .bool _, _ | .str _, _ => rfl
  | .num (.posInt _), _ => rfl
  | .num (.negInt _), h => h
  | .num (.float b), h => hr b h
  | .arr items, h => by
    rw [reread, wf]
    rw [wf] at h
    exact wf_rereadItems hr items h
  | .obj fields, h => by
    rw [reread, wf]
    rw [wf] at h
    exact wf_rereadFields hr fields h

theorem wf_rereadItems (hr : ∀ b, F64.isFinite b = true → F64.isFinite (r b) = true) :
    ∀ items : List Json, wfItems items = true → wfItems (rereadItems r items) = true
  | [], _ => rfl
  | v :: vs, h => by
    rw [wfItems, Bool.and_eq_true] at h
    rw [rereadItems, wfItems, Bool.and_eq_true]
    exact ⟨wf_reread hr v h.1, wf_rereadItems hr vs h.2⟩

theorem wf_rereadFields (hr : ∀ b, F64.isFinite b = true → F64.isFinite (r b) = true) :
    ∀ fields : List (String × Json),
      wfFields fields = true → wfFields (rereadFields r fields) = true
  | [], _ => rfl
  | [(k, v)], h => by
    simp only [wfFields, Bool.true_and, Bool.and_true] at h
    simp only [rereadFields, wfFields, Bool.true_and, Bool.and_true]
    exact wf_reread hr v h
  | (k, v) :: (l, w) :: fs, h => by
    rw [wfFields, Bool.and_eq_true, Bool.and_eq_true] at h
    have htail := wf_rereadFields hr ((l, w) :: fs) h.2
    rw [rereadFields, rereadFields, wfFields, Bool.and_eq_true, Bool.and_eq_true]
    rw [rereadFields] at htail
    exact ⟨⟨h.1.1, wf_reread hr v h.1.2⟩, htail⟩
end

mutual
/-- A tree whose numbers are left as they are is left as it is. -/
theorem reread_eq_self : ∀ j : Json, (∀ n ∈ j.numbers, n.reread r = n) → j.reread r = j
  | .null, _ | .bool _, _ | .str _, _ => rfl
  | .num n, h => by rw [reread, h n (by simp [numbers])]
  | .arr items, h => by
    rw [numbers] at h
    rw [reread, rereadItems_eq_self items h]
  | .obj fields, h => by
    rw [numbers] at h
    rw [reread, rereadFields_eq_self fields h]

theorem rereadItems_eq_self : ∀ items : List Json,
    (∀ n ∈ numbersItems items, n.reread r = n) → rereadItems r items = items
  | [], _ => rfl
  | v :: vs, h => by
    rw [numbersItems, List.forall_mem_append] at h
    rw [rereadItems, reread_eq_self v h.1, rereadItems_eq_self vs h.2]

theorem rereadFields_eq_self : ∀ fields : List (String × Json),
    (∀ n ∈ numbersFields fields, n.reread r = n) → rereadFields r fields = fields
  | [], _ => rfl
  | (k, v) :: fs, h => by
    rw [numbersFields, List.forall_mem_append] at h
    rw [rereadFields, reread_eq_self v h.1, rereadFields_eq_self fs h.2]
end

end Reread

theorem Short.reread {j : Json} (h : j.Short) (T : NumberText) : j.reread T.reread = j := by
  refine reread_eq_self j fun n hn => ?_
  cases n with
  | float b => rw [Number.reread, T.short b (h _ hn)]
  | _ => rfl

mutual
/-- The numbers of a value are well formed. -/
theorem numbers_wf : ∀ j : Json, j.wf = true → j.numbers.all Number.wf = true
  | .null, _ | .bool _, _ | .str _, _ => rfl
  | .num n, h => by simpa [numbers, wf] using h
  | .arr items, h => by
    rw [wf] at h
    rw [numbers]
    exact numbersItems_wf items h
  | .obj fields, h => by
    rw [wf] at h
    rw [numbers]
    exact numbersFields_wf fields h

theorem numbersItems_wf : ∀ items : List Json, wfItems items = true →
    (numbersItems items).all Number.wf = true
  | [], _ => rfl
  | v :: vs, h => by
    rw [wfItems, Bool.and_eq_true] at h
    rw [numbersItems, List.all_append, Bool.and_eq_true]
    exact ⟨numbers_wf v h.1, numbersItems_wf vs h.2⟩

theorem numbersFields_wf : ∀ fields : List (String × Json), wfFields fields = true →
    (numbersFields fields).all Number.wf = true
  | [], _ => rfl
  | (k, v) :: fs, h => by
    unfold wfFields at h
    rw [Bool.and_eq_true, Bool.and_eq_true] at h
    rw [numbersFields, List.all_append, Bool.and_eq_true]
    exact ⟨numbers_wf v h.1.2, numbersFields_wf fs h.2⟩
end

end Json

namespace NumberText
variable {T : NumberText}

def value (T : NumberText) (v : Value) : Value :=
  ⟨v.json.reread T.reread, Json.wf_reread T.finite _ v.wf⟩

/-- What a value printed as text is read as; `none`: it is nested too deep. -/
def reads (T : NumberText) (v : Value) : Option Value :=
  if v.json.depth < 128 then some (T.value v) else none

theorem value_short {v : Value} (h : v.json.Short) : T.value v = v := by
  have hjson := h.reread T
  cases v
  simp only [value, hjson]

theorem value_of_reads {v w : Value} (h : T.reads v = some w) : w = T.value v := by
  unfold reads at h
  split at h
  · exact (Option.some.inj h).symm
  · cases h

end NumberText

/-- Not too deep, and of short doubles. -/
structure Value.Plain (v : Value) : Prop where
  depth : v.json.depth < 128
  short : v.json.Short

/-- A plain value is read back as itself. -/
theorem Value.Plain.reads {v : Value} (h : v.Plain) (T : NumberText) : T.reads v = some v := by
  rw [NumberText.reads, if_pos h.depth, NumberText.value_short h.short]

/-- `serde_json`'s `to_vec` and `from_slice` at `Value`. -/
structure SerdeJson extends NumberText where
  toVec : Value → Option Bytes
  fromSlice : Bytes → Option Value
  fromSlice_toVec : ∀ v b, toVec v = some b → fromSlice b = toNumberText.reads v

theorem Value.Plain.fromSlice_toVec {serde : SerdeJson} {v : Value} {b : Bytes} (h : v.Plain)
    (hb : serde.toVec v = some b) : serde.fromSlice b = some v :=
  (serde.fromSlice_toVec v b hb).trans (h.reads _)

/-- `serde_json` at records, which it prints and reads as documents. -/
structure JsonText extends NumberText where
  toVec : Json → Option Bytes
  fromSlice : Bytes → Option Json
  fromSlice_toVec : ∀ j b, j.printable = true → toVec j = some b →
    fromSlice b = some (j.reread reread)

/-! ## The texts of some values

With short doubles only, `serde_json` reads every double as itself. -/

def NumberText.exact : NumberText where
  reread b := b
  finite _ h := h
  short _ _ := rfl

theorem NumberText.reread_exact (j : Json) : j.reread exact.reread = j :=
  Json.reread_eq_self j fun n _ => by cases n <;> rfl

theorem NumberText.reads_exact (v : Value) :
    exact.reads v = if v.json.depth < 128 then some v else none := by
  have hself : exact.value v = v := by
    cases v
    simp only [value, reread_exact]
  rw [reads, hself]

/-- One value and the bytes printed for it. -/
def SerdeJson.only (v : Value) (b : Bytes) : SerdeJson where
  toNumberText := .exact
  toVec w := if w = v then some b else none
  fromSlice c := if c = b ∧ v.json.depth < 128 then some v else none
  fromSlice_toVec := by
    intro w c h
    split at h
    · rename_i hw
      cases h
      rw [NumberText.reads_exact, hw]
      simp only [true_and]
    · cases h

/-- Some values, with the bytes printed for each. -/
def SerdeJson.table (t : List (Value × Bytes)) (ht : (t.map Prod.snd).Nodup) : SerdeJson where
  toNumberText := .exact
  toVec v := t.lookup v
  fromSlice b := ((t.find? fun e => e.2 = b).map Prod.fst).filter fun v => v.json.depth < 128
  fromSlice_toVec := by
    intro v b hv
    have hfind : (t.find? fun e => e.2 = b).map Prod.fst = some v := by
      induction t with
      | nil => cases hv
      | cons e t ih =>
        obtain ⟨w, c⟩ := e
        rw [List.map_cons, List.nodup_cons] at ht
        rw [List.lookup_cons] at hv
        split at hv
        · rename_i heq
          cases hv
          simp [beq_iff_eq.mp heq]
        · -- further down, the bytes of another entry
          have hmem : b ∈ t.map Prod.snd := by
            obtain ⟨l₁, l₂, rfl, -⟩ := List.lookup_eq_some_iff.mp hv
            simp
          have hne : ¬ c = b := fun h => ht.1 (h ▸ hmem)
          rw [List.find?_cons_of_neg (by simpa using hne)]
          exact ih ht.2 hv
    rw [hfind, NumberText.reads_exact]
    rw [Option.filter_some]
    simp only [decide_eq_true_eq]

/-- One document and the text printed for it. -/
def JsonText.only (j : Json) (b : Bytes) : JsonText where
  toNumberText := .exact
  toVec k := if k = j then some b else none
  fromSlice c := if c = b then some j else none
  fromSlice_toVec := by
    intro k c _ h
    split at h
    · rename_i hk
      cases h
      rw [if_pos rfl, NumberText.reread_exact, hk]
    · cases h

theorem JsonText.only_toVec (j : Json) (b : Bytes) : (only j b).toVec j = some b := if_pos rfl

end WmBusbridge.L1
