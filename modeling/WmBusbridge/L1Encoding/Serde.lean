import WmBusbridge.L1Encoding.Double
import WmBusbridge.L1Encoding.Json
import WmBusbridge.L1Encoding.Record

/-!
# Typed reads of a JSON document

How `serde_json` reads the types of a derived record out of a document. A document is
a `Json` as it is written: the fields of an object in any order, names maybe repeated.
Every error is `none`.
-/
namespace WmBusbridge.L1
namespace Json

variable {α : Type}

def asU64 : Json → Option UInt64
  | .num (.posInt n) => some n
  | _ => none

def asU32 : Json → Option UInt32
  | .num (.posInt n) => if n.toNat < 2 ^ 32 then some n.toUInt32 else none
  | _ => none

/-- A whole number is rounded to a double. -/
def asF64 : Json → Option F64
  | .num (.posInt n) => some (F64.ofBits (F64.nearest n.toNat 1))
  | .num (.negInt n) => some (F64.ofBits (F64.negate (F64.nearest n.toInt.natAbs 1)))
  | .num (.float b) => some (F64.ofBits b)
  | _ => none

/-- `Option<T>` -/
def asOption (read : Json → Option α) : Json → Option (Option α)
  | .null => some none
  | j => (read j).map some

/-- A variant without data: its name, or an object with the name and `null`. -/
def asUnitVariant (ofName : String → Option α) : Json → Option α
  | .str name => ofName name
  | .obj [(name, .null)] => ofName name
  | _ => none

/-- A record's fields, by name or in the order of declaration. -/
def source (known : List String) : Json → Option (Record.Source Json)
  | .obj fields => Record.source known fields
  | .arr items =>
    if items.length ≤ known.length then some fun k => (known.zip items).lookup k else none
  | _ => none

/-- A field that has to be there. -/
def required (read : Json → Option α) (value : Option Json) : Option α := value.bind read

/-- `#[serde(default)]` -/
def defaulted (default : α) (read : Json → Option α) : Option Json → Option α
  | none => some default
  | some j => read j

def ofU32 (n : UInt32) : Json := .num (.posInt n.toUInt64)

/-- `null` for a double that is not finite. -/
def ofF64 (bits : UInt64) : Json := if F64.isFinite bits then .num (.float bits) else .null

@[simp] theorem asU32_ofU32 (n : UInt32) : (ofU32 n).asU32 = some n := by
  have hlt : n.toUInt64.toNat < 2 ^ 32 := by
    rw [UInt32.toNat_toUInt64]
    exact n.toNat_lt
  rw [ofU32, asU32, if_pos hlt, UInt32.toUInt32_toUInt64]

theorem asF64_ofF64 (bits : UInt64) :
    (ofF64 bits).asF64 = if F64.isFinite bits then some (F64.ofBits bits) else none := by
  unfold ofF64
  split <;> rfl

end Json
end WmBusbridge.L1
