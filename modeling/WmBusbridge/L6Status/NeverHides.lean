import Mathlib.Data.List.Perm.Subperm
import WmBusbridge.L6Status.Report

/-!
# What a status report hides

`NeverHides env`: each key with an entry has a row of its own, a `DOWN` row is
for an expected name without an entry, and exit code 0 vouches for every entry.

* `never_hides_exact`: exactly when every entry could be read. A bucket that
  could not be opened is covered only when it is empty and some node is expected.
* `undecodable_exits_zero`: a record that does not decode, and all is well.
-/
namespace WmBusbridge.L6
open L0 L1

/-- The keys that have an entry. -/
def Env.present (env : Env) : List (String × Fetch) := env.bucket.filter fun e => e.2 ≠ .gone

def Env.presentNames (env : Env) : List String := env.present.map fun e => nodeNameFromKey e.1

/-- The entry can be fetched and is a record. -/
def Readable (env : Env) (e : String × Fetch) : Prop :=
  ∃ bytes cap, e.2 = .entry bytes ∧ env.decode bytes = some cap

/-- It is, moreover, recent. -/
def Recent (env : Env) (e : String × Fetch) : Prop :=
  ∃ bytes cap, e.2 = .entry bytes ∧ env.decode bytes = some cap ∧
    cap.isStale env.nowSecs env.staleAfterSecs = false

/-- The rows account for every entry. -/
structure Shows (env : Env) (nodes : List NodeRow) : Prop where
  /-- counted: two keys of one name need two rows -/
  each : env.presentNames.Subperm (nodes.map NodeRow.name)
  down : ∀ row ∈ nodes, row.status = .down →
    row.name ∈ env.expected ∧ row.name ∉ env.presentNames

structure NeverHides (env : Env) : Prop where
  shows : ∀ report, run env = some (.emitted report) → Shows env report.nodes
  zero : ∀ o, run env = some o → o.exitCode = 0 →
    env.lookup = true ∧ ∀ e ∈ env.present, Recent env e

/-! ## Reading -/

theorem readEntry_isSome {env : Env} {e : String × Fetch} :
    (readEntry env e).isSome = true ↔ Readable env e := by
  rw [Option.isSome_iff_exists]
  constructor
  · rintro ⟨row, h⟩
    obtain ⟨bytes, cap, hb, hc, -⟩ := readEntry_some.mp h
    exact ⟨bytes, cap, hb, hc⟩
  · rintro ⟨bytes, cap, hb, hc⟩
    exact ⟨_, readEntry_some.mpr ⟨bytes, cap, hb, hc, rfl⟩⟩

/-- A key that is gone gives no row. -/
theorem filterMap_present (env : Env) :
    env.bucket.filterMap (readEntry env) = env.present.filterMap (readEntry env) := by
  rw [Env.present, List.filterMap_filter]
  refine List.filterMap_congr fun e _ => ?_
  obtain ⟨key, f⟩ := e
  cases f <;> simp [readEntry]

/-- The rows of a registry all of which can be read carry its names. -/
theorem names_of_readable {env : Env} (hr : ∀ e ∈ env.present, Readable env e) :
    (env.present.filterMap (readEntry env)).map NodeRow.name = env.presentNames := by
  rw [List.map_filterMap, Env.presentNames, List.filterMap_eq_map_iff_forall_eq_some]
  intro e he
  obtain ⟨row, hrow⟩ := Option.isSome_iff_exists.mp (readEntry_isSome.mpr (hr e he))
  rw [hrow, Option.map_some, readEntry_name hrow]

/-- When every entry has its own row and none of them is `DOWN`, every entry
was read: the read ones are too few otherwise. -/
theorem readable_of_shows {env : Env}
    (h : Shows env (buildReport env (env.present.filterMap (readEntry env))).nodes) :
    ∀ e ∈ env.present, Readable env e := by
  have hfresh : ∀ name ∈ env.absent (env.present.filterMap (readEntry env)),
      name ∉ env.presentNames := fun name hname =>
    (h.down _ (mem_nodes.mpr (.inr ⟨name, hname, rfl⟩)) rfl).2
  -- drop the absent names on both sides
  have hsub := ((names_perm _ _).subperm_left.mp h.each).filter (· ∈ env.presentNames)
  have hleft : env.presentNames.filter (· ∈ env.presentNames) = env.presentNames :=
    List.filter_eq_self.mpr fun name hname => by simpa using hname
  have hright : (env.absent (env.present.filterMap (readEntry env))).filter
      (· ∈ env.presentNames) = [] :=
    List.filter_eq_nil_iff.mpr fun name hname => by simpa using hfresh name hname
  rw [List.filter_append, hleft, hright, List.append_nil] at hsub
  have hle : env.present.length ≤ (env.present.filterMap (readEntry env)).length := by
    calc env.present.length = env.presentNames.length := (List.length_map _).symm
      _ ≤ _ := hsub.length_le
      _ ≤ _ := List.length_filter_le _ _
      _ = _ := List.length_map _
  intro e he
  exact readEntry_isSome.mp
    (List.filterMap_length_eq_length.mp (le_antisymm (List.length_filterMap_le _ _) hle) e he)

theorem shows_of_readable {env : Env} (hr : ∀ e ∈ env.present, Readable env e) :
    Shows env (buildReport env (env.present.filterMap (readEntry env))).nodes where
  each := by
    rw [(names_perm _ _).subperm_left, names_of_readable hr]
    exact (List.sublist_append_left _ _).subperm
  down := by
    intro row hrow hdown
    rcases mem_nodes.mp hrow with hrow | ⟨name, hname, rfl⟩
    · obtain ⟨e, -, he⟩ := List.mem_filterMap.mp hrow
      exact absurd hdown (readEntry_not_down he)
    · rw [mem_absent, names_of_readable hr] at hname
      exact hname

/-- Exit code 0 over rows that were all read: no record is stale. -/
theorem recent_of_zero {env : Env} (hr : ∀ e ∈ env.present, Readable env e)
    (h0 : exitCodeForReport (buildReport env (env.present.filterMap (readEntry env))) = 0) :
    ∀ e ∈ env.present, Recent env e := by
  intro e he
  obtain ⟨bytes, cap, hb, hc⟩ := hr e he
  have hrow := readEntry_some.mpr ⟨bytes, cap, hb, hc, rfl⟩
  have hup := exitCodeForReport_zero.mp h0 _
    (mem_nodes.mpr (.inl (List.mem_filterMap.mpr ⟨e, he, hrow⟩)))
  refine ⟨bytes, cap, hb, hc, ?_⟩
  rw [makeNodeRow_status] at hup
  split at hup
  · cases hup
  · rename_i hs
    simpa using hs

/-! ## A registry that cannot be opened -/

/-- Its report has a `DOWN` row for each expected name and nothing else. -/
theorem mem_nodes_nil {env : Env} {row : NodeRow} :
    row ∈ (buildReport env []).nodes ↔ ∃ name ∈ env.expected, makeDownRow name = row := by
  simp [mem_nodes, mem_absent]

theorem shows_nil_iff {env : Env} : Shows env (buildReport env []).nodes ↔ env.present = [] := by
  constructor
  · intro h
    refine List.eq_nil_iff_forall_not_mem.mpr fun e he => ?_
    have hname : nodeNameFromKey e.1 ∈ env.presentNames := List.mem_map_of_mem he
    obtain ⟨row, hrow, hn⟩ := List.mem_map.mp (h.each.subset hname)
    obtain ⟨name, -, rfl⟩ := mem_nodes_nil.mp hrow
    exact (h.down _ hrow rfl).2 (hn ▸ hname)
  · intro hp
    have hnames : env.presentNames = [] := by rw [Env.presentNames, hp, List.map_nil]
    refine ⟨hnames ▸ List.nil_subperm, fun row hrow _ => ?_⟩
    obtain ⟨name, hname, rfl⟩ := mem_nodes_nil.mp hrow
    exact ⟨hname, by simp [hnames]⟩

/-- With no node expected, nothing read is nothing wrong. -/
theorem exitCode_nil_iff {env : Env} :
    exitCodeForReport (buildReport env []) = 0 ↔ env.expected = [] := by
  rw [exitCodeForReport_zero]
  constructor
  · intro h
    refine List.eq_nil_iff_forall_not_mem.mpr fun name hname => ?_
    have hup := h _ (mem_nodes_nil.mpr ⟨name, hname, rfl⟩)
    cases hup
  · intro he row hrow
    obtain ⟨name, hname, -⟩ := mem_nodes_nil.mp hrow
    rw [he] at hname
    cases hname

/-! ## The exact condition -/

theorem neverHides_emitted {env : Env} {report : StatusReport}
    (h : run env = some (.emitted report)) :
    NeverHides env ↔ Shows env report.nodes ∧
      (exitCodeForReport report = 0 → env.lookup = true ∧ ∀ e ∈ env.present, Recent env e) := by
  constructor
  · intro hn
    exact ⟨hn.shows report h, hn.zero _ h⟩
  · rintro ⟨hs, hz⟩
    refine ⟨fun r hr => ?_, fun o ho => ?_⟩
    · rw [h] at hr
      cases hr
      exact hs
    · rw [h] at ho
      cases ho
      exact hz

/-- A run without a report has nothing to hide. -/
theorem neverHides_silent {env : Env} (h : ∀ report, run env ≠ some (.emitted report)) :
    NeverHides env where
  shows report hr := absurd hr (h report)
  zero o ho h0 := by
    cases o with
    | hubUnreachable => cases h0
    | emitted report => exact absurd ho (h report)

/-- **When `status` hides no registered node**: the hub is not reached, or the
listing breaks off, or every entry can be read; or the bucket could not be
opened but has no entry, and some node is expected. -/
theorem never_hides_exact (env : Env) :
    NeverHides env ↔ env.connects = false ∨
      (env.lookup = true ∧ (env.listing = false ∨ ∀ e ∈ env.present, Readable env e)) ∨
      (env.lookup = false ∧ env.present = [] ∧ env.expected ≠ []) := by
  cases hc : env.connects with
  | false =>
    have hrun : run env = some .hubUnreachable := by rw [run, hc]; rfl
    refine iff_of_true (neverHides_silent fun report hr => ?_) (.inl rfl)
    rw [hrun] at hr
    cases hr
  | true =>
    cases hl : env.lookup with
    | false =>
      have hrun : run env = some (.emitted (buildReport env [])) := by
        simp [run, readRegistry, hc, hl]
      rw [neverHides_emitted hrun, shows_nil_iff, exitCode_nil_iff]
      simp [hl]
    | true =>
      cases hk : env.listing with
      | false =>
        have hrun : run env = none := by simp [run, readRegistry, hc, hl, hk]
        refine iff_of_true (neverHides_silent fun report hr => ?_) (.inr (.inl ⟨rfl, .inl rfl⟩))
        rw [hrun] at hr
        cases hr
      | true =>
        have hrun : run env =
            some (.emitted (buildReport env (env.present.filterMap (readEntry env)))) := by
          simp [run, readRegistry, hc, hl, hk, filterMap_present]
        rw [neverHides_emitted hrun]
        constructor
        · rintro ⟨hs, -⟩
          exact .inr (.inl ⟨rfl, .inr (readable_of_shows hs)⟩)
        · rintro (h | ⟨-, h | hr⟩ | ⟨h, -⟩)
          · cases h
          · cases h
          · exact ⟨shows_of_readable hr, fun h0 => ⟨hl, recent_of_zero hr h0⟩⟩
          · cases h

/-- One key, whose value is not a record. -/
def undecodableEx : Env where
  connects := true
  lookup := true
  listing := true
  bucket := [("node.forge", .entry [0x78])]
  decode _ := none
  conf := none
  clock := some 1000
  staleAfterSecs := 30
  messages := some 0

/-- `status` reports no node and exits 0. -/
theorem undecodable_exits_zero : ¬ ∀ env : Env, NeverHides env := by
  intro h
  have hrun : run undecodableEx = some (.emitted { nodes := [], workQueue := ⟨0, 0⟩ }) := by
    simp [run, readRegistry, readEntry, buildReport, addExpected, Env.expected, fillMissing,
      sortByName, readWorkQueueStats, undecodableEx, List.filterMap_cons]
  obtain ⟨-, hall⟩ := (h undecodableEx).zero _ hrun (by decide)
  obtain ⟨bytes, cap, -, hcap, -⟩ := hall ("node.forge", .entry [0x78]) (by decide)
  cases hcap

end WmBusbridge.L6
