import Mathlib.Algebra.Group.Nat.Defs
import Mathlib.Data.List.Induction
import Mathlib.Data.List.TakeDrop
import Mathlib.Data.List.TakeWhile
import Mathlib.Data.Rat.Defs
import WmBusbridge.L1Encoding.Str
import WmBusbridge.L1Encoding.Num

/-!
# Doubles as bits

The number a double stands for, the double nearest to a number, and the double a text
names (`str::parse::<f64>`).

* `parseF64_short`: a decimal number of at most 15 digits names a short double.
-/
namespace WmBusbridge.L1
namespace F64

/-- All exponent bits: the bits of the infinity, and in every infinity and NaN. -/
def INFINITY : UInt64 := 0x7FF0000000000000

/-- `f64::is_finite` -/
def isFinite (b : UInt64) : Bool := b &&& INFINITY != INFINITY

/-- `f64::from_bits`, as a number. -/
def ofBits (b : UInt64) : F64 :=
  let negative := b >>> 63 = 1
  let mantissa := (b &&& 0x000FFFFFFFFFFFFF).toNat
  let exponent := ((b >>> 52) &&& 0x7FF).toNat
  if isFinite b then
    let q : ℚ := if exponent = 0 then mantissa / 2 ^ 1074
      else (2 ^ 52 + mantissa) * 2 ^ exponent / 2 ^ 1075
    .fin (if negative then -q else q)
  else if mantissa = 0 then if negative then .negInf else .posInf
  else .nan

/-- To the nearest natural number, ties to the even one. -/
def roundHalfEven (n d : Nat) : Nat :=
  let q := n / d
  let r := n % d
  if d < 2 * r ∨ (2 * r = d ∧ q % 2 = 1) then q + 1 else q

/-- The bits of the double nearest to `n / d`. -/
def nearest (n d : Nat) : UInt64 :=
  if n = 0 then 0
  else
    let above : Int := Nat.log2 n - Nat.log2 d
    -- the power of two below `n / d`
    let below := if 0 ≤ above then 2 ^ above.toNat * d ≤ n else d ≤ n * 2 ^ (-above).toNat
    let e := if below then above else above - 1
    -- the power of two that the mantissa counts
    let u := max (e - 52) (-1074)
    let m := if 0 ≤ u then roundHalfEven n (d * 2 ^ u.toNat)
      else roundHalfEven (n * 2 ^ (-u).toNat) d
    .ofNat (min ((u + 1074).toNat * 2 ^ 52 + m) INFINITY.toNat)

def negate (b : UInt64) : UInt64 := b ^^^ 0x8000000000000000

/-- A double named by at most 15 digits and at most 22 places. -/
def Short (b : UInt64) : Prop :=
  ∃ n k, n < 10 ^ 15 ∧ k ≤ 22 ∧ (b = nearest n (10 ^ k) ∨ b = negate (nearest n (10 ^ k)))

end F64

namespace Str

/-- The leading decimal digits, and the rest. -/
def spanDigits (l : List Char) : List Char × List Char := l.span Char.isDigit

/-- The number the digits name. -/
def digitsVal (ds : List Char) : Nat := ds.foldl (fun n c => 10 * n + (c.toNat - '0'.toNat)) 0

/-- `str::parse` at an unsigned type with the given maximum: digits, maybe after a plus. -/
def parseUnsigned (max : Nat) (s : String) : Option Nat :=
  let ds := match s.toList with
    | '+' :: ds => ds
    | ds => ds
  if ds ≠ [] ∧ ds.all Char.isDigit ∧ digitsVal ds ≤ max then some (digitsVal ds) else none

/-- A sign, and the rest. -/
def spanSign : List Char → Bool × List Char
  | '-' :: l => (true, l)
  | '+' :: l => (false, l)
  | l => (false, l)

/-- The exponent part of a number, which may be missing; nothing follows it. -/
def parseExponent : List Char → Option Int
  | [] => some 0
  | c :: l =>
    if c = 'e' ∨ c = 'E' then
      let (negative, ds) := spanSign l
      if ds ≠ [] ∧ ds.all Char.isDigit then
        some (if negative then -(digitsVal ds) else digitsVal ds)
      else none
    else none

/-- The bits of the number named by decimal digits, a fraction and an exponent. -/
def parseDecimal (l : List Char) : Option UInt64 :=
  let (whole, l) := spanDigits l
  let (fraction, l) := match l with
    | '.' :: l => spanDigits l
    | l => ([], l)
  if whole ++ fraction = [] then none
  else (parseExponent l).map fun e =>
    let n := digitsVal (whole ++ fraction)
    let shift : Int := e - fraction.length
    if 0 ≤ shift then F64.nearest (n * 10 ^ shift.toNat) 1
    else F64.nearest n (10 ^ (-shift).toNat)

/-- `str::parse::<f64>` -/
def parseF64 (s : String) : Option UInt64 :=
  let (negative, l) := spanSign s.toList
  let bits :=
    let name := l.map Char.toLower
    if name = "nan".toList then some (F64.INFINITY ||| 0x0008000000000000)
    else if name = "inf".toList ∨ name = "infinity".toList then some F64.INFINITY
    else parseDecimal l
  if negative then bits.map F64.negate else bits

/-! ## Short numbers -/

theorem digitsVal_lt {ds : List Char} (h : ∀ c ∈ ds, c.isDigit = true) :
    digitsVal ds < 10 ^ ds.length := by
  induction ds using List.reverseRecOn with
  | nil => decide
  | append_singleton ds c ih =>
    have hc : c.toNat - '0'.toNat ≤ 9 := by
      have hd := h c (by simp)
      simp only [Char.isDigit, Bool.and_eq_true, decide_eq_true_eq] at hd
      have hle : c.toNat ≤ 57 := hd.2
      have h0 : '0'.toNat = 48 := rfl
      omega
    have hstep : digitsVal (ds ++ [c]) = 10 * digitsVal ds + (c.toNat - '0'.toNat) := by
      simp [digitsVal]
    have hlen : (10 : Nat) ^ (ds ++ [c]).length = 10 * 10 ^ ds.length := by
      rw [List.length_append, List.length_singleton, Nat.pow_succ, Nat.mul_comm]
    have hds := ih fun d hd => h d (List.mem_append_left _ hd)
    omega

theorem spanDigits_append {ds l : List Char} (h : ∀ c ∈ ds, c.isDigit = true)
    (hl : l.head?.all fun c => !c.isDigit) : spanDigits (ds ++ l) = (ds, l) := by
  have hnil : l.takeWhile Char.isDigit = [] ∧ l.dropWhile Char.isDigit = l := by
    cases l with
    | nil => exact ⟨rfl, rfl⟩
    | cons c l => simp_all
  rw [spanDigits, List.span_eq_takeWhile_dropWhile, List.takeWhile_append_of_pos h,
    List.dropWhile_append_of_pos h, hnil.1, hnil.2, List.append_nil]

/-- A number of at most 15 digits is short. -/
theorem parseDecimal_short {whole fraction : List Char} {b : UInt64}
    (hd : ∀ c ∈ whole ++ fraction, c.isDigit = true) (hlen : (whole ++ fraction).length ≤ 15)
    (h : parseDecimal (whole ++ '.' :: fraction) = some b) : F64.Short b := by
  have hw := fun c hc => hd c (List.mem_append_left fraction hc)
  have hf := fun c hc => hd c (List.mem_append_right whole hc)
  have hspan : spanDigits fraction = (fraction, []) := by
    simpa using spanDigits_append (l := []) hf rfl
  have hn : digitsVal (whole ++ fraction) < 10 ^ 15 :=
    (digitsVal_lt hd).trans_le (Nat.pow_le_pow_right (by decide) hlen)
  have hk : fraction.length ≤ 22 := by
    rw [List.length_append] at hlen
    omega
  rw [parseDecimal, spanDigits_append hw rfl] at h
  simp only [hspan] at h
  split at h
  · cases h
  · simp only [parseExponent, Option.map_some, Option.some.injEq] at h
    refine ⟨digitsVal (whole ++ fraction), fraction.length, hn, hk, .inl ?_⟩
    rw [← h]
    split
    · have hzero : fraction.length = 0 := by omega
      simp [hzero]
    · simp

theorem spanSign_unsigned {l : List Char} (h : l.head?.all fun c => c ≠ '-' ∧ c ≠ '+') :
    spanSign l = (false, l) := by
  unfold spanSign
  split <;> simp_all

/-- So is one that `str::parse` reads. -/
theorem parseF64_short {whole fraction : List Char} {b : UInt64}
    (hd : ∀ c ∈ whole ++ fraction, c.isDigit = true) (hlen : (whole ++ fraction).length ≤ 15)
    (h : parseF64 (.ofList (whole ++ '.' :: fraction)) = some b) : F64.Short b := by
  have hsign : spanSign (whole ++ '.' :: fraction) = (false, whole ++ '.' :: fraction) := by
    apply spanSign_unsigned
    cases whole with
    | nil => rfl
    | cons c cs =>
      have hc := hd c (by simp)
      simp only [List.cons_append, List.head?_cons, Option.all_some, decide_eq_true_eq]
      constructor <;> (rintro rfl; exact absurd hc (by decide))
  -- a name has no dot
  have hname : ∀ name : String, '.' ∉ name.toList →
      (whole ++ '.' :: fraction).map Char.toLower ≠ name.toList := by
    intro name hdot he
    refine hdot (he ▸ List.mem_map.mpr ⟨'.', by simp, by decide⟩)
  rw [parseF64, String.toList_ofList, hsign] at h
  simp only [if_neg (hname "nan" (by decide)), hname "inf" (by decide),
    hname "infinity" (by decide), or_self, if_false, Bool.false_eq_true] at h
  exact parseDecimal_short hd hlen h

end Str
end WmBusbridge.L1
