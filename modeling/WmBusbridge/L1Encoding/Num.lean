import Mathlib.Data.Rat.Defs

/-!
# Machine numbers

Rust's unsigned integers are Lean's. A double is read as an exact number, an
infinity or NaN; rounding is left out.
-/
namespace WmBusbridge.L1

/-- `u32::saturating_add(1)` -/
def satSucc (n : UInt32) : UInt32 := if n = 0xFFFFFFFF then n else n + 1

/-- `u64::saturating_sub` -/
def satSub (a b : UInt64) : UInt64 := if b ≤ a then a - b else 0

theorem satSub_toNat (a b : UInt64) : (satSub a b).toNat = a.toNat - b.toNat := by
  rw [satSub]
  split
  · rename_i h
    exact UInt64.toNat_sub_of_le _ _ h
  · rename_i h
    rw [UInt64.le_iff_toNat_le] at h
    rw [UInt64.toNat_zero, Nat.sub_eq_zero_of_le (Nat.le_of_not_le h)]

/-- `f64` -/
inductive F64 where
  | nan
  | negInf
  | fin (q : ℚ)
  | posInf
  deriving DecidableEq, Repr

end WmBusbridge.L1
