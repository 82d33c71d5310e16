import Mathlib.Data.List.Basic

/-!
# `serde_json` values

`Json` is the tree; `Value` carries the invariant of `serde_json::Value`: an
object is a `BTreeMap`, so its keys are strictly increasing, and a number is in
the form `serde_json::Number` keeps it in.
-/
namespace WmBusbridge.L1

abbrev Bytes := List UInt8

/-- `serde_json::Number`: `PosInt(u64)`, `NegInt(i64)`, `Float(f64)` (as bits). -/
inductive Number where
  | posInt (n : UInt64)
  | negInt (n : Int64)
  | float (bits : UInt64)
  deriving DecidableEq, Repr

/-- `NegInt` is negative, `Float` is finite. -/
def Number.wf : Number → Bool
  | .posInt _ => true
  | .negInt n => n < 0
  | .float b => b &&& 0x7FF0000000000000 != 0x7FF0000000000000

inductive Json where
  | null
  | bool (b : Bool)
  | num (n : Number)
  | str (s : String)
  | arr (items : List Json)
  | obj (fields : List (String × Json))
  deriving Repr

namespace Json

mutual
def decEq : (a b : Json) → Decidable (a = b)
  | .null, .null => isTrue rfl
  | .bool a, .bool b => decidable_of_iff (a = b) (by simp)
  | .num a, .num b => decidable_of_iff (a = b) (by simp)
  | .str a, .str b => decidable_of_iff (a = b) (by simp)
  | .arr a, .arr b => @decidable_of_iff _ (a = b) (by simp) (decEqList a b)
  | .obj a, .obj b => @decidable_of_iff _ (a = b) (by simp) (decEqFields a b)
  | .null, .bool _ | .null, .num _ | .null, .str _ | .null, .arr _ | .null, .obj _
  | .bool _, .null | .bool _, .num _ | .bool _, .str _ | .bool _, .arr _ | .bool _, .obj _
  | .num _, .null | .num _, .bool _ | .num _, .str _ | .num _, .arr _ | .num _, .obj _
  | .str _, .null | .str _, .bool _ | .str _, .num _ | .str _, .arr _ | .str _, .obj _
  | .arr _, .null | .arr _, .bool _ | .arr _, .num _ | .arr _, .str _ | .arr _, .obj _
  | .obj _, .null | .obj _, .bool _ | .obj _, .num _ | .obj _, .str _ | .obj _, .arr _ =>
    isFalse (by simp)

def decEqList : (a b : List Json) → Decidable (a = b)
  | [], [] => isTrue rfl
  | a :: as, b :: bs =>
    @decidable_of_iff _ (a = b ∧ as = bs) (by simp)
      (@instDecidableAnd _ _ (decEq a b) (decEqList as bs))
  | [], _ :: _ | _ :: _, [] => isFalse (by simp)

def decEqFields : (a b : List (String × Json)) → Decidable (a = b)
  | [], [] => isTrue rfl
  | (k, v) :: as, (l, w) :: bs =>
    @decidable_of_iff _ (k = l ∧ v = w ∧ as = bs) (by simp [and_assoc])
      (@instDecidableAnd _ _ _ (@instDecidableAnd _ _ (decEq v w) (decEqFields as bs)))
  | [], _ :: _ | _ :: _, [] => isFalse (by simp)
end

instance : DecidableEq Json := decEq

mutual
def wf : Json → Bool
  | .null | .bool _ | .str _ => true
  | .num n => n.wf
  | .arr items => wfItems items
  | .obj fields => wfFields fields

def wfItems : List Json → Bool
  | [] => true
  | v :: vs => v.wf && wfItems vs

/-- Keys strictly increasing, values well formed. -/
def wfFields : List (String × Json) → Bool
  | [] => true
  | (k, v) :: fs =>
    (match fs with | [] => true | (l, _) :: _ => decide (k < l)) && v.wf && wfFields fs
end

/-- `Value::get` on a key: `None` on anything but an object. -/
def get : Json → String → Option Json
  | .obj fields, key => fields.lookup key
  | _, _ => none

/-- `Value::as_bool` -/
def asBool : Json → Option Bool
  | .bool b => some b
  | _ => none

/-- `Value::as_str` -/
def asStr : Json → Option String
  | .str s => some s
  | _ => none

/-- `Value::as_array` -/
def asArray : Json → Option (List Json)
  | .arr items => some items
  | _ => none

theorem wf_of_mem {v : Json} : ∀ {items : List Json}, wfItems items = true → v ∈ items → v.wf = true
  | w :: ws, h, hv => by
    simp only [wfItems, Bool.and_eq_true] at h
    rcases List.mem_cons.mp hv with rfl | hv
    · exact h.1
    · exact wf_of_mem h.2 hv

theorem wf_of_lookup {v : Json} {key : String} : ∀ {fields : List (String × Json)},
    wfFields fields = true → fields.lookup key = some v → v.wf = true
  | (k, w) :: fields, h, hv => by
    simp only [wfFields, Bool.and_eq_true] at h
    rw [List.lookup_cons] at hv
    split at hv
    · cases hv
      exact h.1.2
    · exact wf_of_lookup h.2 hv

/-- What is found in a well-formed object is well formed. -/
theorem wf_of_get {v w : Json} {key : String} (h : v.wf = true) (hg : v.get key = some w) :
    w.wf = true := by
  cases v with
  | obj fields =>
    rw [wf] at h
    exact wf_of_lookup h hg
  | _ => cases hg

theorem wf_of_asArray {v : Json} {items : List Json} (h : v.wf = true)
    (ha : v.asArray = some items) : wfItems items = true := by
  cases v with
  | arr _ =>
    cases ha
    rwa [wf] at h
  | _ => cases ha

end Json

/-- `serde_json::Value` -/
structure Value where
  json : Json
  wf : json.wf = true
  deriving DecidableEq

namespace Value

def null : Value := ⟨.null, rfl⟩

/-- `Value::get` on a key. -/
def get (v : Value) (key : String) : Option Value :=
  (v.json.get key).pmap Value.mk fun _ hw => Json.wf_of_get v.wf hw

/-- The items of an array. -/
def asArray (v : Value) : Option (List Value) :=
  v.json.asArray.pmap (fun items h => items.pmap Value.mk fun _ hw => Json.wf_of_mem h hw)
    fun _ ha => Json.wf_of_asArray v.wf ha

theorem get_eq_some {v w : Value} {key : String} :
    v.get key = some w ↔ v.json.get key = some w.json := by
  rw [get, Option.pmap_eq_some_iff]
  constructor
  · rintro ⟨j, hj, hg, rfl⟩
    exact hg
  · intro hg
    exact ⟨w.json, w.wf, hg, rfl⟩

theorem get_isSome (v : Value) (key : String) : (v.get key).isSome = (v.json.get key).isSome :=
  Option.isSome_pmap

end Value

end WmBusbridge.L1
