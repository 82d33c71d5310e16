import Mathlib.Algebra.Order.Floor.Semiring
import Mathlib.Data.Rat.Floor
import Mathlib.Tactic.Linarith
import Mathlib.Tactic.NormNum
import WmBusbridge.L6Status.Report

/-!
# The capability heartbeat (`src/heartbeat.rs`) and its reader

The writer stamps a record with whole seconds when it is made; a reader sees it
some time later and subtracts whole seconds. Times are in any ordered field with
a floor, so the phase within a second and the latencies are arbitrary.

* `never_stale_exact`: with the default threshold a healthy node is never shown
  `STALE` exactly when each put is visible by the end of the second that its
  tick falls in.
* `twice_the_interval`: a threshold of two intervals never shows one `STALE`.
* `half_second_flaps`: a phase of half a second and a latency of 0.6 s.
-/
namespace WmBusbridge.L6
open L1

/-- mirrors src/heartbeat.rs:22 -/
def HEARTBEAT_INTERVAL_SECS : ℕ := 30

/-- mirrors src/heartbeat.rs:24 -/
def NODES_MAX_AGE_SECS : ℕ := 120

/-- The default of `--stale-after`.
mirrors src/main.rs:66-67 -/
def STALE_AFTER_DEFAULT : UInt64 := 30

/-! ## The writer -/

section Writer
variable {K : Type} [Field K] [LinearOrder K] [FloorSemiring K]

/-- `as_secs` of the time since the epoch -/
def asSecs (t : K) : UInt64 := .ofNat ⌊t⌋₊

/-- What one tick meets. -/
structure Tick (K : Type) where
  /-- `ensure_bucket`, when it is called, and how long it takes -/
  bucketOk : Bool
  bucketTime : K
  /-- what the node says of itself; the clock and the queue are added -/
  sample : NodeCapability
  serialized : Bool
  putOk : Bool
  /-- from the stamp until readers see the put -/
  latency : K

/-- A record in the bucket, and since when. -/
structure Record (K : Type) where
  cap : NodeCapability
  visible : K

/-- mirrors src/dispatch.rs:457-495 -/
def sampleLocalCapacity (sample : NodeCapability) (queueDepth : UInt32) (now : K) :
    NodeCapability :=
  { sample with queueDepth := queueDepth, ts := asSecs now }

/-- One tick at `now`: whether the store is held after it, and what was put.
mirrors src/heartbeat.rs:79-105 -/
def beat (now : K) (held : Bool) (t : Tick K) : Bool × Option (Record K) :=
  if !(held || t.bucketOk) then (false, none)
  else
    let stamp := if held then now else now + t.bucketTime
    if !t.serialized then (true, none)
    else if t.putOk then
      (true, some { cap := sampleLocalCapacity t.sample 0 stamp, visible := stamp + t.latency })
    else (false, none)

/-- The loop, ticking every `HEARTBEAT_INTERVAL_SECS`.
mirrors src/heartbeat.rs:72-76 -/
structure Heartbeat (K : Type) where
  start : K
  ticks : ℕ → Tick K

namespace Heartbeat

def tick (H : Heartbeat K) (n : ℕ) : K := H.start + n * HEARTBEAT_INTERVAL_SECS

/-- Whether the store is held before tick `n`. -/
def held (H : Heartbeat K) : ℕ → Bool
  | 0 => false
  | n + 1 => (beat (H.tick n) (H.held n) (H.ticks n)).1

/-- What tick `n` put. -/
def record (H : Heartbeat K) (n : ℕ) : Option (Record K) :=
  (beat (H.tick n) (H.held n) (H.ticks n)).2

/-- What a reader at time `r` gets. -/
structure Newest (H : Heartbeat K) (r : K) (n : ℕ) (rec : Record K) : Prop where
  put : H.record n = some rec
  visible : rec.visible ≤ r
  last : ∀ m rec', H.record m = some rec' → rec'.visible ≤ r → m ≤ n

def EveryPut (H : Heartbeat K) : Prop :=
  ∀ n, (H.ticks n).bucketOk = true ∧ (H.ticks n).serialized = true ∧ (H.ticks n).putOk = true

/-- Every put succeeds and is visible before the next tick. -/
structure Healthy (H : Heartbeat K) : Prop where
  start_nonneg : 0 ≤ H.start
  every : H.EveryPut
  nonneg : ∀ n, 0 ≤ (H.ticks n).bucketTime ∧ 0 ≤ (H.ticks n).latency
  prompt : ∀ n rec, H.record n = some rec → rec.visible < H.tick (n + 1)

/-- Whatever `status` reads of the newest record, with this threshold and the
same clock, is up. -/
def NeverStale (H : Heartbeat K) (staleAfterSecs : UInt64) : Prop :=
  ∀ r n rec, H.Newest r n rec → r < 2 ^ 64 →
    ∀ (env : Env) (key : String) (bytes : Bytes), env.decode bytes = some rec.cap →
      env.clock = some (asSecs r) → env.staleAfterSecs = staleAfterSecs →
      ∃ row, readEntry env (key, .entry bytes) = some row ∧ row.status = .up

/-- How long tick `n` spends on opening the bucket before it stamps: only the
first tick of a healthy node has to. -/
def opening (H : Heartbeat K) (n : ℕ) : K := if n = 0 then (H.ticks 0).bucketTime else 0

/-- When the record of tick `n` is stamped. -/
def stamp (H : Heartbeat K) (n : ℕ) : K := H.tick n + H.opening n

/-- When the record of tick `n` can be read. -/
def visible (H : Heartbeat K) (n : ℕ) : K := H.stamp n + (H.ticks n).latency

end Heartbeat
end Writer

/-! ## Time -/

section Time
set_option linter.unusedSectionVars false
variable {K : Type} [Field K] [LinearOrder K] [IsStrictOrderedRing K] [FloorSemiring K]

theorem asSecs_toNat {t : K} (h0 : 0 ≤ t) (ht : t < 2 ^ 64) : (asSecs t).toNat = ⌊t⌋₊ := by
  have hlt : ⌊t⌋₊ < 2 ^ 64 := (Nat.floor_lt h0).mpr (by exact_mod_cast ht)
  rw [asSecs, UInt64.toNat_ofNat', Nat.mod_eq_of_lt hlt]

/-- A record is stale when whole seconds since its stamp pass the threshold. -/
theorem isStale_asSecs (cap : NodeCapability) {t r : K} (max : UInt64) (hts : cap.ts = asSecs t)
    (h0 : 0 ≤ t) (htr : t ≤ r) (hr : r < 2 ^ 64) :
    cap.isStale (asSecs r) max = true ↔ max.toNat < ⌊r⌋₊ - ⌊t⌋₊ := by
  rw [NodeCapability.isStale, decide_eq_true_eq, UInt64.lt_iff_toNat_lt, satSub_toNat, hts,
    asSecs_toNat h0 (htr.trans_lt hr), asSecs_toNat (h0.trans htr) hr]

namespace Heartbeat
variable {H : Heartbeat K}

/-! ## A healthy node -/

theorem opening_nonneg (hH : H.Healthy) (n : ℕ) : 0 ≤ H.opening n := by
  rw [opening]
  split
  · exact (hH.nonneg 0).1
  · exact le_rfl

theorem opening_succ (H : Heartbeat K) (n : ℕ) : H.opening (n + 1) = 0 :=
  if_neg (Nat.succ_ne_zero n)

theorem tick_succ (H : Heartbeat K) (n : ℕ) : H.tick (n + 1) = H.tick n + 30 := by
  simp only [tick, HEARTBEAT_INTERVAL_SECS, Nat.cast_add, Nat.cast_one, Nat.cast_ofNat]
  ring

/-- After its first tick a healthy node keeps the store it has. -/
theorem held_iff (hH : H.EveryPut) (n : ℕ) : H.held n = true ↔ n ≠ 0 := by
  cases n with
  | zero => simp [held]
  | succ n =>
    obtain ⟨hb, hs, hp⟩ := hH n
    simp [held, beat, hb, hs, hp]

/-- Every tick of a healthy node puts a record. -/
theorem record_eq (hH : H.EveryPut) (n : ℕ) :
    H.record n = some
      { cap := sampleLocalCapacity (H.ticks n).sample 0 (H.stamp n), visible := H.visible n } := by
  obtain ⟨hb, hs, hp⟩ := hH n
  have hstamp : (if H.held n = true then H.tick n else H.tick n + (H.ticks n).bucketTime)
      = H.stamp n := by
    rw [stamp, opening]
    cases n with
    | zero => simp [held]
    | succ n => simp [(held_iff hH (n + 1)).mpr (Nat.succ_ne_zero n)]
  simp only [record, beat, hb, hs, hp, Bool.or_true, Bool.not_true, Bool.false_eq_true, if_false,
    if_true, hstamp, visible]

theorem visible_lt_tick (hH : H.Healthy) (n : ℕ) : H.visible n < H.tick (n + 1) :=
  hH.prompt n _ (record_eq hH.every n)

theorem stamp_nonneg (hH : H.Healthy) (n : ℕ) : 0 ≤ H.stamp n := by
  have htick : 0 ≤ H.tick n := by
    have := hH.start_nonneg
    rw [tick]
    positivity
  exact add_nonneg htick (opening_nonneg hH n)

theorem tick_le_stamp (hH : H.Healthy) (n : ℕ) : H.tick n ≤ H.stamp n :=
  le_add_of_nonneg_right (opening_nonneg hH n)

theorem stamp_le_visible (hH : H.Healthy) (n : ℕ) : H.stamp n ≤ H.visible n :=
  le_add_of_nonneg_right (hH.nonneg n).2

/-- Records become visible in the order of their ticks. -/
theorem visible_strictMono (hH : H.Healthy) : StrictMono H.visible := by
  refine strictMono_nat_of_lt_succ fun n => ?_
  calc H.visible n < H.tick (n + 1) := visible_lt_tick hH n
    _ ≤ H.stamp (n + 1) := tick_le_stamp hH (n + 1)
    _ ≤ H.visible (n + 1) := stamp_le_visible hH (n + 1)

/-- The newest record is the one whose successor is not visible yet. -/
theorem newest_iff (hH : H.Healthy) {r : K} {n : ℕ} :
    (∃ rec, H.Newest r n rec) ↔ H.visible n ≤ r ∧ r < H.visible (n + 1) := by
  constructor
  · rintro ⟨rec, hn⟩
    have hrec := hn.put
    rw [record_eq hH.every] at hrec
    cases hrec
    refine ⟨hn.visible, ?_⟩
    by_contra hr
    have := hn.last (n + 1) _ (record_eq hH.every (n + 1)) (not_lt.mp hr)
    omega
  · rintro ⟨hle, hlt⟩
    refine ⟨_, record_eq hH.every n, hle, fun m rec' hm hr => ?_⟩
    rw [record_eq hH.every] at hm
    cases hm
    exact Nat.lt_succ_iff.mp ((visible_strictMono hH).lt_iff_lt.mp (hr.trans_lt hlt))

/-- Whole seconds pass between ticks. -/
theorem floor_stamp (hH : H.Healthy) (n : ℕ) :
    ⌊H.stamp n⌋₊ = ⌊H.start + H.opening n⌋₊ + 30 * n := by
  have hsplit : H.stamp n = H.start + H.opening n + ((30 * n : ℕ) : K) := by
    simp only [stamp, tick, HEARTBEAT_INTERVAL_SECS, Nat.cast_mul, Nat.cast_ofNat]
    ring
  rw [hsplit, Nat.floor_add_natCast (add_nonneg hH.start_nonneg (opening_nonneg hH n))]

/-- The next record is out within two intervals of a stamp. -/
theorem visible_succ_lt (hH : H.Healthy) (n : ℕ) : H.visible (n + 1) < H.stamp n + 60 := by
  calc H.visible (n + 1) < H.tick n + 30 + 30 := by
        have := visible_lt_tick hH (n + 1)
        rwa [tick_succ, tick_succ] at this
    _ ≤ H.stamp n + 60 := by linarith [tick_le_stamp hH n]

/-- A healthy node's newest record is far from its expiry. -/
theorem newest_unexpired (hH : H.Healthy) {r : K} {n : ℕ} {rec : Record K}
    (hn : H.Newest r n rec) : r < H.stamp n + NODES_MAX_AGE_SECS := by
  have hr := ((newest_iff hH).mp ⟨rec, hn⟩).2
  calc r < H.stamp n + 60 := hr.trans (visible_succ_lt hH n)
    _ ≤ H.stamp n + NODES_MAX_AGE_SECS := by
        rw [NODES_MAX_AGE_SECS]
        norm_num

/-! ## The threshold -/

/-- What `status` makes of the newest record, in whole seconds. -/
theorem neverStale_iff (hH : H.Healthy) (max : UInt64) :
    H.NeverStale max ↔ ∀ r n, H.visible n ≤ r → r < H.visible (n + 1) → r < 2 ^ 64 →
      ⌊r⌋₊ ≤ ⌊H.stamp n⌋₊ + max.toNat := by
  -- the row of record `n` at time `r`
  have hrow : ∀ r n, H.visible n ≤ r → r < 2 ^ 64 →
      ((sampleLocalCapacity (H.ticks n).sample 0 (H.stamp n)).isStale (asSecs r) max = false ↔
        ⌊r⌋₊ ≤ ⌊H.stamp n⌋₊ + max.toNat) := by
    intro r n hle hr
    have hst := isStale_asSecs (sampleLocalCapacity (H.ticks n).sample 0 (H.stamp n)) max
      rfl (stamp_nonneg hH n) ((stamp_le_visible hH n).trans hle) hr
    rw [← Bool.not_eq_true, hst]
    omega
  constructor
  · intro h r n hle hlt hr
    obtain ⟨rec, hn⟩ := (newest_iff hH).mpr ⟨hle, hlt⟩
    have hrec := hn.put
    rw [record_eq hH.every] at hrec
    cases hrec
    -- a reader whose decoder gives the record
    obtain ⟨row, hread, hup⟩ := h r n _ hn hr
      { connects := true, lookup := true, listing := true, bucket := [], conf := none,
        decode := fun _ => some (sampleLocalCapacity (H.ticks n).sample 0 (H.stamp n)),
        clock := some (asSecs r), staleAfterSecs := max, messages := none }
      "" [] rfl rfl rfl
    obtain ⟨_, _, -, hdec, rfl⟩ := readEntry_some.mp hread
    cases hdec
    rw [makeNodeRow_status] at hup
    split at hup
    · cases hup
    · rename_i hst
      exact (hrow r n hle hr).mp (Bool.not_eq_true _ ▸ hst)
  · intro h r n rec hn hr env key bytes hdec hclock hmax
    obtain ⟨hle, hlt⟩ := (newest_iff hH).mp ⟨rec, hn⟩
    have hrec := hn.put
    rw [record_eq hH.every] at hrec
    cases hrec
    refine ⟨_, readEntry_some.mpr ⟨bytes, _, rfl, hdec, rfl⟩, ?_⟩
    have hnow : env.nowSecs = asSecs r := by rw [Env.nowSecs, hclock, Option.getD_some]
    rw [makeNodeRow_status, hnow, hmax, (hrow r n hle hr).mpr (h r n hle hlt hr)]
    rfl

/-- A threshold of two intervals is never passed. -/
theorem twice_the_interval (hH : H.Healthy) {max : UInt64} (hmax : 60 ≤ max.toNat) :
    H.NeverStale max := by
  refine (neverStale_iff hH max).mpr fun r n hle hlt _ => ?_
  have h0 : 0 ≤ r := (stamp_nonneg hH n).trans ((stamp_le_visible hH n).trans hle)
  have hlt' : ⌊r⌋₊ < ⌊H.stamp n⌋₊ + 61 := by
    rw [Nat.floor_lt h0]
    push_cast
    calc r < H.stamp n + 60 := hlt.trans (visible_succ_lt hH n)
      _ ≤ ⌊H.stamp n⌋₊ + 61 := by linarith [Nat.lt_floor_add_one (H.stamp n)]
  omega

/-- **When a healthy node is never shown `STALE`**, with the default threshold:
each put is visible by the end of the second its tick falls in; for the second
put that is the second in which the first one was stamped. -/
theorem never_stale_exact (H : Heartbeat K) (hH : H.Healthy) :
    H.NeverStale STALE_AFTER_DEFAULT ↔ ∀ n, ⌊H.stamp n⌋₊ + 31 < 2 ^ 64 →
      H.start + (H.ticks (n + 1)).latency ≤ ⌊H.start + H.opening n⌋₊ + 1 := by
  have h30 : STALE_AFTER_DEFAULT.toNat = 30 := rfl
  -- the next record is out 31 seconds after the second of the stamp
  have hcond : ∀ n, H.start + (H.ticks (n + 1)).latency ≤ ⌊H.start + H.opening n⌋₊ + 1 ↔
      H.visible (n + 1) ≤ ⌊H.stamp n⌋₊ + 31 := by
    intro n
    rw [floor_stamp hH, visible, stamp, opening_succ, tick, HEARTBEAT_INTERVAL_SECS]
    push_cast
    constructor <;> intro h <;> linarith
  rw [neverStale_iff hH, h30]
  constructor
  · intro h n hn
    rw [hcond]
    by_contra hlate
    -- a reader 31 seconds on still gets record `n`
    have hread := h (⌊H.stamp n⌋₊ + 31) n ?_ (not_le.mp hlate) (by exact_mod_cast hn)
    · rw [← Nat.cast_ofNat, ← Nat.cast_add, Nat.floor_natCast] at hread
      omega
    · calc H.visible n ≤ H.tick n + 30 := by
            rw [← tick_succ]
            exact (visible_lt_tick hH n).le
        _ ≤ H.stamp n + 30 := by linarith [tick_le_stamp hH n]
        _ ≤ ⌊H.stamp n⌋₊ + 31 := by linarith [Nat.lt_floor_add_one (H.stamp n)]
  · intro h r n hle hlt hr
    have h0 : 0 ≤ r := (stamp_nonneg hH n).trans ((stamp_le_visible hH n).trans hle)
    have hlt' : r < ⌊H.stamp n⌋₊ + 31 := by
      by_cases hn : ⌊H.stamp n⌋₊ + 31 < 2 ^ 64
      · exact hlt.trans_le ((hcond n).mp (h n hn))
      · refine hr.trans_le ?_
        exact_mod_cast not_lt.mp hn
    have := (Nat.floor_lt h0).mpr (by exact_mod_cast hlt' : r < ((⌊H.stamp n⌋₊ + 31 : ℕ) : K))
    omega

/-! ## Two nodes -/

/-- A node that starts `phase` into a second and whose puts take `latency`. -/
def steady (phase latency : ℚ) : Heartbeat ℚ where
  start := phase
  ticks _ :=
    { bucketOk := true, bucketTime := 0, serialized := true, putOk := true, latency
      sample := { cores := 8, ramGb := 32, gpu := false, vramGb := 0, load1 := .fin 0,
                  queueDepth := 0, ts := 0, noBuild := false, role := none } }

theorem steady_opening (phase latency : ℚ) (n : ℕ) : (steady phase latency).opening n = 0 := by
  simp [opening, steady]

theorem steady_every (phase latency : ℚ) : (steady phase latency).EveryPut :=
  fun _ => ⟨rfl, rfl, rfl⟩

theorem steady_healthy {phase latency : ℚ} (hp : 0 ≤ phase) (h0 : 0 ≤ latency)
    (h30 : latency < 30) : (steady phase latency).Healthy where
  start_nonneg := hp
  every := steady_every phase latency
  nonneg n := ⟨le_rfl, h0⟩
  prompt n rec hrec := by
    rw [record_eq (steady_every phase latency)] at hrec
    cases hrec
    rw [visible, stamp, steady_opening, tick_succ]
    have : ((steady phase latency).ticks n).latency = latency := rfl
    linarith

/-- Half a second into the second, and a quarter of a second for a put. -/
theorem steady_never_stale : (steady (1 / 2) (1 / 4)).NeverStale STALE_AFTER_DEFAULT := by
  refine (never_stale_exact _ (steady_healthy (by norm_num) (by norm_num) (by norm_num))).mpr
    fun n _ => ?_
  have hfloor : (0 : ℚ) ≤ ⌊(steady (1 / 2) (1 / 4)).start + (steady (1 / 2) (1 / 4)).opening n⌋₊ :=
    Nat.cast_nonneg _
  calc (1 / 2 : ℚ) + 1 / 4 ≤ 0 + 1 := by norm_num
    _ ≤ _ := add_le_add hfloor le_rfl

/-- With 0.6 s for a put, a reader at 31 s gets the first record, 31 s old. -/
theorem half_second_flaps : (steady (1 / 2) (3 / 5)).Healthy ∧
    ¬ (steady (1 / 2) (3 / 5)).NeverStale STALE_AFTER_DEFAULT := by
  have hH : (steady (1 / 2) (3 / 5)).Healthy :=
    steady_healthy (by norm_num) (by norm_num) (by norm_num)
  refine ⟨hH, fun h => ?_⟩
  have hread := (neverStale_iff hH _).mp h 31 0 ?_ ?_ (by norm_num)
  · have hstamp : ⌊(steady (1 / 2) (3 / 5)).stamp 0⌋₊ = 0 := by
      rw [floor_stamp hH, steady_opening, Nat.mul_zero, Nat.add_zero, add_zero, Nat.floor_eq_zero]
      simp only [steady]
      norm_num
    rw [hstamp, Nat.floor_ofNat] at hread
    exact absurd hread (by decide)
  all_goals
    simp only [visible, stamp, steady_opening, tick, HEARTBEAT_INTERVAL_SECS]
    simp only [steady]
    norm_num

end Heartbeat
end Time

end WmBusbridge.L6
