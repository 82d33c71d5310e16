import Mathlib.Data.List.Forall2
import Mathlib.Data.List.Nodup
import Mathlib.Data.String.Basic
import WmBusbridge.L6Status.Report

/-!
# The report as a merge of registry and expected list (`src/status.rs:262-324`)

`Listed env W`: the run reads the registry `W`, a record for each of some names.

* `sortByName_strict`: rows of distinct names come out strictly increasing.
* `status_merges`: the report has one row for each name of the registry or the list,
  `DOWN` for a name without a record, else `STALE` or up by the age of the record, and
  exit code 0 exactly when no record of the union is missing or old.
-/
namespace WmBusbridge.L6
open L0 L1 L1.Str

/-- The connection and the bucket answer, and the bucket lists the key of each
name of `W` once, with its record. -/
structure Listed (env : Env) (W : List (String × NodeCapability)) : Prop where
  connects : env.connects = true
  lookup : env.lookup = true
  listing : env.listing = true
  distinct : (W.map Prod.fst).Nodup
  bucket : List.Forall₂ (fun e n => e.1 = nodeKey n.1 ∧
    ∃ bytes, e.2 = .entry bytes ∧ env.decode bytes = some n.2) env.bucket W

/-- The list names it: a line that, trimmed, is neither empty nor a comment. -/
def Names (conf name : String) : Prop :=
  name ∈ (split conf '\n').map trim ∧ name ≠ "" ∧ startsWith name "#" = false

theorem mem_expectedNames {conf name : String} : name ∈ expectedNames conf ↔ Names conf name := by
  unfold expectedNames Names
  rw [List.mem_filter]
  by_cases hn : name = ""
  · simp [hn]
  · rw [mem_trim_lines hn]
    simp [hn]

/-! ## Sorting -/

/-- Rows of distinct names come out strictly increasing by name. -/
theorem sortByName_strict {rows : List NodeRow} (h : (rows.map NodeRow.name).Nodup) :
    ((sortByName rows).map NodeRow.name).Pairwise (· < ·) := by
  have hle : (sortByName rows).Pairwise fun a b => a.name ≤ b.name := by
    have hsorted := @List.pairwise_mergeSort NodeRow (fun a b => a.name ≤ b.name)
      (fun a b c hab hbc => decide_eq_true
        (String.le_trans (of_decide_eq_true hab) (of_decide_eq_true hbc)))
      (fun a b => by simpa using String.le_total a.name b.name) rows
    exact hsorted.imp of_decide_eq_true
  have hne : ((sortByName rows).map NodeRow.name).Nodup :=
    ((sortByName_perm rows).map NodeRow.name).nodup_iff.mpr h
  have hle' : ((sortByName rows).map NodeRow.name).Pairwise (· ≤ ·) := List.pairwise_map.mpr hle
  exact (hle'.and hne).imp fun {a b} hab => by
    by_contra hlt
    exact hab.2 (String.le_antisymm hab.1 (String.not_lt.mp hlt))

/-! ## The rows -/

/-- The row of a name with a record. -/
def recordRow (env : Env) (n : String × NodeCapability) : NodeRow :=
  makeNodeRow n.1 n.2 env.nowSecs env.staleAfterSecs

theorem readRegistry_listed {env : Env} {W : List (String × NodeCapability)} (h : Listed env W) :
    readRegistry env = some (W.map (recordRow env)) := by
  rw [readRegistry, if_pos h.lookup, if_pos h.listing, Option.some.injEq]
  have hb := h.bucket
  clear h
  generalize env.bucket = bucket at hb
  induction hb with
  | nil => rfl
  | @cons e n es W hen hrest ih =>
    obtain ⟨hkey, bytes, hbytes, hdec⟩ := hen
    have hread := readEntry_some.mpr ⟨bytes, n.2, hbytes, hdec, rfl⟩
    rw [hkey, nodeNameFromKey_nodeKey] at hread
    rw [List.filterMap_cons_some hread, ih, List.map_cons, recordRow]

/-- The merge, at the time and with the threshold of `env`. -/
structure Merged (env : Env) (conf : String) (W : List (String × NodeCapability))
    (report : StatusReport) : Prop where
  sorted : (report.nodes.map NodeRow.name).Pairwise (· < ·)
  names : ∀ name, name ∈ report.nodes.map NodeRow.name ↔
    name ∈ W.map Prod.fst ∨ Names conf name
  down : ∀ row ∈ report.nodes, (row.status = .down ↔ row.name ∉ W.map Prod.fst) ∧
    (row.hbAgeSecs = none ↔ row.name ∉ W.map Prod.fst)
  age : ∀ row ∈ report.nodes, ∀ cap, (row.name, cap) ∈ W →
    ∃ age, row.hbAgeSecs = some age ∧ age.toNat = env.nowSecs.toNat - cap.ts.toNat
  stale : ∀ row ∈ report.nodes, row.status = .stale ↔
    ∃ age, row.hbAgeSecs = some age ∧ env.staleAfterSecs < age
  up : ∀ row ∈ report.nodes, row.status = .up ↔
    ∃ age, row.hbAgeSecs = some age ∧ age ≤ env.staleAfterSecs
  zero : (Outcome.emitted report).exitCode = 0 ↔
    ∀ name, name ∈ W.map Prod.fst ∨ Names conf name →
      ∃ cap, (name, cap) ∈ W ∧
        env.nowSecs.toNat - cap.ts.toNat ≤ env.staleAfterSecs.toNat
  one : (Outcome.emitted report).exitCode ≠ 0 → (Outcome.emitted report).exitCode = 1

section Rows
variable {env : Env} {conf : String} {W : List (String × NodeCapability)} {row : NodeRow}

/-- What `run` reports of a listed registry. -/
def mergedReport (env : Env) (W : List (String × NodeCapability)) : StatusReport :=
  buildReport env (W.map (recordRow env))

theorem names_recordRow (env : Env) (W : List (String × NodeCapability)) :
    (W.map (recordRow env)).map NodeRow.name = W.map Prod.fst := by
  rw [List.map_map]
  rfl

/-- A row stands for a record, or for a listed name without one. -/
theorem mem_merged (hconf : env.conf = some conf) :
    row ∈ (mergedReport env W).nodes ↔ (∃ n ∈ W, recordRow env n = row) ∨
      ∃ name, Names conf name ∧ name ∉ W.map Prod.fst ∧ makeDownRow name = row := by
  have hexp : env.expected = expectedNames conf := by
    rw [Env.expected, hconf]
    rfl
  rw [mergedReport, mem_nodes, List.mem_map]
  refine or_congr_right (exists_congr fun name => ?_)
  rw [mem_absent, hexp, mem_expectedNames, names_recordRow, and_assoc]

/-- The age of a row and its status are computed apart, and agree. -/
theorem recordRow_status (n : String × NodeCapability) :
    ((recordRow env n).status = .stale ↔ env.staleAfterSecs < satSub env.nowSecs n.2.ts) ∧
      ((recordRow env n).status = .up ↔ satSub env.nowSecs n.2.ts ≤ env.staleAfterSecs) := by
  rw [recordRow, makeNodeRow_status, NodeCapability.isStale]
  by_cases h : env.staleAfterSecs < satSub env.nowSecs n.2.ts
  · simp [h]
  · simp [h, UInt64.not_lt.mp h]

theorem recordRow_age (n : String × NodeCapability) :
    (recordRow env n).hbAgeSecs = some (satSub env.nowSecs n.2.ts) := rfl

/-- Records of distinct names, and no listed name twice. -/
theorem names_nodup (hW : (W.map Prod.fst).Nodup) :
    ((addExpected env (W.map (recordRow env))).map NodeRow.name).Nodup := by
  have hdown : NodeRow.name ∘ makeDownRow = id := rfl
  rw [addExpected_eq, List.map_append, names_recordRow, List.map_map, hdown, List.map_id]
  refine List.nodup_append.mpr ⟨hW, missing_nodup _ _, fun a ha b hb => ?_⟩
  rintro rfl
  rw [mem_absent, names_recordRow] at hb
  exact hb.2 ha

theorem merged_names (hconf : env.conf = some conf) (name : String) :
    name ∈ (mergedReport env W).nodes.map NodeRow.name ↔
      name ∈ W.map Prod.fst ∨ Names conf name := by
  rw [List.mem_map]
  constructor
  · rintro ⟨row, hrow, rfl⟩
    rcases (mem_merged hconf).mp hrow with ⟨n, hn, rfl⟩ | ⟨name, hc, -, rfl⟩
    · exact .inl (List.mem_map_of_mem hn)
    · exact .inr hc
  · intro h
    by_cases hw : name ∈ W.map Prod.fst
    · obtain ⟨n, hn, rfl⟩ := List.mem_map.mp hw
      exact ⟨_, (mem_merged hconf).mpr (.inl ⟨n, hn, rfl⟩), rfl⟩
    · exact ⟨_, (mem_merged hconf).mpr (.inr ⟨name, h.resolve_left hw, hw, rfl⟩), rfl⟩

theorem merged_down (hconf : env.conf = some conf) (hrow : row ∈ (mergedReport env W).nodes) :
    (row.status = .down ↔ row.name ∉ W.map Prod.fst) ∧
      (row.hbAgeSecs = none ↔ row.name ∉ W.map Prod.fst) := by
  rcases (mem_merged hconf).mp hrow with ⟨n, hn, rfl⟩ | ⟨name, -, hw, rfl⟩
  · have hmem : (recordRow env n).name ∈ W.map Prod.fst := List.mem_map_of_mem hn
    refine ⟨iff_of_false makeNodeRow_not_down (not_not.mpr hmem),
      iff_of_false ?_ (not_not.mpr hmem)⟩
    rw [recordRow_age]
    exact Option.some_ne_none _
  · exact ⟨iff_of_true rfl hw, iff_of_true rfl hw⟩

theorem merged_age (hW : (W.map Prod.fst).Nodup) (hconf : env.conf = some conf)
    (hrow : row ∈ (mergedReport env W).nodes) {cap : NodeCapability} (hcap : (row.name, cap) ∈ W) :
    ∃ age, row.hbAgeSecs = some age ∧ age.toNat = env.nowSecs.toNat - cap.ts.toNat := by
  rcases (mem_merged hconf).mp hrow with ⟨n, hn, rfl⟩ | ⟨name, -, hw, rfl⟩
  · -- the name has one record
    have heq : n = ((recordRow env n).name, cap) := List.inj_on_of_nodup_map hW hn hcap rfl
    refine ⟨_, recordRow_age n, ?_⟩
    rw [heq]
    exact satSub_toNat _ _
  · exact absurd (List.mem_map_of_mem hcap) hw

theorem merged_stale (hconf : env.conf = some conf) (hrow : row ∈ (mergedReport env W).nodes) :
    row.status = .stale ↔ ∃ age, row.hbAgeSecs = some age ∧ env.staleAfterSecs < age := by
  rcases (mem_merged hconf).mp hrow with ⟨n, -, rfl⟩ | ⟨name, -, -, rfl⟩
  · rw [(recordRow_status n).1, recordRow_age]
    simp
  · simp [makeDownRow]

theorem merged_up (hconf : env.conf = some conf) (hrow : row ∈ (mergedReport env W).nodes) :
    row.status = .up ↔ ∃ age, row.hbAgeSecs = some age ∧ age ≤ env.staleAfterSecs := by
  rcases (mem_merged hconf).mp hrow with ⟨n, -, rfl⟩ | ⟨name, -, -, rfl⟩
  · rw [(recordRow_status n).2, recordRow_age]
    simp
  · simp [makeDownRow]

/-- All is well when each name of the union has a recent record. -/
theorem merged_zero (hW : (W.map Prod.fst).Nodup) (hconf : env.conf = some conf) :
    (Outcome.emitted (mergedReport env W)).exitCode = 0 ↔
      ∀ name, name ∈ W.map Prod.fst ∨ Names conf name → ∃ cap, (name, cap) ∈ W ∧
        env.nowSecs.toNat - cap.ts.toNat ≤ env.staleAfterSecs.toNat := by
  rw [Outcome.exitCode, exitCodeForReport_zero]
  constructor
  · intro hall name hmem
    obtain ⟨row, hrow, rfl⟩ := List.mem_map.mp ((merged_names hconf name).mpr hmem)
    obtain ⟨age, hage, hle⟩ := (merged_up hconf hrow).mp (hall row hrow)
    have hw : row.name ∈ W.map Prod.fst := by
      by_contra hw
      rw [(merged_down hconf hrow).2.mpr hw] at hage
      cases hage
    obtain ⟨n, hn, hname⟩ := List.mem_map.mp hw
    have hcap : (row.name, n.2) ∈ W := by
      rw [← hname]
      exact hn
    obtain ⟨age', hage', hnat⟩ := merged_age hW hconf hrow hcap
    rw [hage] at hage'
    cases hage'
    exact ⟨n.2, hcap, hnat ▸ UInt64.le_iff_toNat_le.mp hle⟩
  · intro hall row hrow
    obtain ⟨cap, hcap, hle⟩ := hall row.name
      ((merged_names hconf _).mp (List.mem_map_of_mem hrow))
    obtain ⟨age, hage, hnat⟩ := merged_age hW hconf hrow hcap
    exact (merged_up hconf hrow).mpr ⟨age, hage, UInt64.le_iff_toNat_le.mpr (hnat ▸ hle)⟩

end Rows

/-- **The report is the merge** of the registry and the expected list. -/
theorem status_merges {env : Env} {conf : String} {W : List (String × NodeCapability)}
    (h : Listed env W) (hconf : env.conf = some conf) :
    ∃ report, run env = some (.emitted report) ∧ Merged env conf W report := by
  refine ⟨mergedReport env W, ?_, sortByName_strict (names_nodup h.distinct), merged_names hconf,
    fun row hrow => merged_down hconf hrow,
    fun row hrow cap hcap => merged_age h.distinct hconf hrow hcap,
    fun row hrow => merged_stale hconf hrow, fun row hrow => merged_up hconf hrow,
    merged_zero h.distinct hconf, ?_⟩
  · rw [run, if_pos h.connects, readRegistry_listed h]
    rfl
  · show exitCodeForReport _ ≠ 0 → exitCodeForReport _ = 1
    unfold exitCodeForReport
    split <;> simp

/-- A worker's record, ten seconds old at second 1000. -/
def recordBytesEx : Bytes :=
  ("\x7b\"cores\":8,\"ram_gb\":32,\"gpu\":false,\"vram_gb\":0,\"load1\":0.0," ++
    "\"queue_depth\":0,\"ts\":990,\"no_build\":false\x7d").toUTF8.data.toList

def recordEx : NodeCapability :=
  { cores := 8, ramGb := 32, gpu := false, vramGb := 0, load1 := .fin 0, queueDepth := 0, ts := 990,
    noBuild := false, role := none }

/-- `forge` has a record; the list has `forge`, a comment and `nomad`. -/
def mergeEx : Env where
  connects := true
  lookup := true
  listing := true
  bucket := [("node.forge", .entry recordBytesEx)]
  decode b := if b = recordBytesEx then some recordEx else none
  conf := some "forge\n# spare\n nomad \n"
  clock := some 1000
  staleAfterSecs := 30
  messages := some 0

theorem mergeEx_decode : mergeEx.decode recordBytesEx = some recordEx := by simp [mergeEx]

theorem mergeEx_merged : ∃ report, run mergeEx = some (.emitted report) ∧
    Merged mergeEx "forge\n# spare\n nomad \n" [("forge", recordEx)] report :=
  status_merges
    { connects := rfl, lookup := rfl, listing := rfl, distinct := List.nodup_singleton _
      bucket := .cons ⟨by decide, recordBytesEx, rfl, mergeEx_decode⟩ .nil } rfl

end WmBusbridge.L6
