import WmBusbridge.L0Core.Missing
import WmBusbridge.L1Encoding.Json
import WmBusbridge.L6Status.Capability

/-!
# The status report (`src/status.rs`)

`run` reads the `WM_NODES` bucket, adds a row for each expected node that got
none, sorts, and reads the queue depth. `Env` is what it gets to see; printing
is left out, so its result is the report itself.
-/
namespace WmBusbridge.L6
open L0 L1 L1.Str

/-! ## The report -/

/-- mirrors src/status.rs:55-62 -/
inductive NodeStatus where
  | up
  | stale
  | down
  deriving DecidableEq, Repr

/-- mirrors src/status.rs:76-93 -/
structure NodeRow where
  name : String
  role : String
  cores : UInt32
  ramGb : UInt32
  load1 : F64
  gpu : Bool
  hbAgeSecs : Option UInt64
  status : NodeStatus
  deriving DecidableEq, Repr

/-- mirrors src/status.rs:97-102 -/
structure WorkQueueStats where
  pending : UInt64
  inFlight : UInt64
  deriving DecidableEq, Repr

/-- mirrors src/status.rs:106-111 -/
structure StatusReport where
  nodes : List NodeRow
  workQueue : WorkQueueStats
  deriving DecidableEq, Repr

/-- mirrors src/status.rs:115-126 -/
def roleDisplay (cap : NodeCapability) : String :=
  (cap.role.map fun r => match r with
    | .localLlm => "local_llm"
    | .cloudWorker => "cloud_worker"
    | .laptop => "laptop"
    | .gpuInfer => "gpu_infer").getD "unknown"

/-- mirrors src/status.rs:135-152 -/
def makeNodeRow (name : String) (cap : NodeCapability) (nowSecs staleAfterSecs : UInt64) :
    NodeRow where
  name := name
  role := roleDisplay cap
  cores := cap.cores
  ramGb := cap.ramGb
  load1 := cap.load1
  gpu := cap.gpu
  hbAgeSecs := some (satSub nowSecs cap.ts)
  status := if cap.isStale nowSecs staleAfterSecs then .stale else .up

/-- mirrors src/status.rs:156-167 -/
def makeDownRow (name : String) : NodeRow where
  name := name
  role := "unknown"
  cores := 0
  ramGb := 0
  load1 := .fin 0
  gpu := false
  hbAgeSecs := none
  status := .down

/-- mirrors src/status.rs:215-221 -/
def exitCodeForReport (report : StatusReport) : Int :=
  if report.nodes.any (fun n => n.status = .stale ∨ n.status = .down) then 1 else 0

@[simp] theorem makeDownRow_name (name : String) : (makeDownRow name).name = name := rfl

/-- A row made from a record is up or stale. -/
theorem makeNodeRow_status {name : String} {cap : NodeCapability} {now max : UInt64} :
    (makeNodeRow name cap now max).status = if cap.isStale now max then .stale else .up := rfl

theorem makeNodeRow_not_down {name : String} {cap : NodeCapability} {now max : UInt64} :
    (makeNodeRow name cap now max).status ≠ .down := by
  rw [makeNodeRow_status]
  split <;> simp

/-- All is well exactly when every row is up. -/
theorem exitCodeForReport_zero {report : StatusReport} :
    exitCodeForReport report = 0 ↔ ∀ row ∈ report.nodes, row.status = .up := by
  have hbad : ∀ row : NodeRow, (row.status = .stale ∨ row.status = .down) ↔ row.status ≠ .up := by
    intro row
    cases row.status <;> decide
  have hany : (report.nodes.any fun n => n.status = .stale ∨ n.status = .down) = true ↔
      ∃ row ∈ report.nodes, row.status ≠ .up := by
    simp only [List.any_eq_true, decide_eq_true_eq, hbad]
  rw [exitCodeForReport]
  split
  · rename_i h
    obtain ⟨row, hrow, hne⟩ := hany.mp h
    exact iff_of_false (by decide) fun hall => hne (hall row hrow)
  · rename_i h
    refine iff_of_true rfl fun row hrow => ?_
    by_contra hne
    exact h (hany.mpr ⟨row, hrow, hne⟩)

/-! ## Reading the registry -/

/-- What `kv.get` answers for a listed key: the entry, `Ok(None)` (the key is
gone by then), or an error. -/
inductive Fetch where
  | entry (bytes : Bytes)
  | gone
  | failed
  deriving DecidableEq, Repr

/-- What one run of `status` sees. -/
structure Env where
  /-- the connection is up within the timeout -/
  connects : Bool
  /-- `get_key_value` on the bucket is `Ok` -/
  lookup : Bool
  /-- `kv.keys()` and every item of its stream are `Ok` -/
  listing : Bool
  /-- the keys of the bucket in listing order, with the answer for each -/
  bucket : List (String × Fetch)
  /-- `serde_json::from_slice` at `NodeCapability` -/
  decode : Bytes → Option NodeCapability
  /-- the text of the expected-node list, when a path is given and can be read -/
  conf : Option String
  /-- seconds since the epoch, when the clock is past it -/
  clock : Option UInt64
  staleAfterSecs : UInt64
  /-- `state.messages` of the work stream, when it and its info can be read -/
  messages : Option UInt64

def Env.nowSecs (env : Env) : UInt64 := env.clock.getD 0

/-- A failed get and a record that does not decode give no row.
mirrors src/status.rs:271-282 -/
def readEntry (env : Env) (e : String × Fetch) : Option NodeRow :=
  match e.2 with
  | .entry bytes =>
    (env.decode bytes).map fun cap =>
      makeNodeRow (nodeNameFromKey e.1) cap env.nowSecs env.staleAfterSecs
  | .gone | .failed => none

/-- The rows the bucket gives; `none`: `run` returns `Err`.
mirrors src/status.rs:264-288 -/
def readRegistry (env : Env) : Option (List NodeRow) :=
  if env.lookup then
    if env.listing then some (env.bucket.filterMap (readEntry env)) else none
  else some []

/-- The lines of the expected-node list that name a node.
mirrors src/status.rs:293-297 -/
def expectedNames (conf : String) : List String :=
  ((lines conf).map trim).filter fun name => !(name = "" || startsWith name "#")

/-- No list to read, no expected name. -/
def Env.expected (env : Env) : List String := (env.conf.map expectedNames).getD []

/-- mirrors src/status.rs:291-303 -/
def addExpected (env : Env) (rows : List NodeRow) : List NodeRow :=
  fillMissing NodeRow.name makeDownRow rows env.expected

/-- mirrors src/status.rs:306 -/
def sortByName (rows : List NodeRow) : List NodeRow :=
  rows.mergeSort fun a b => a.name ≤ b.name

/-- mirrors src/status.rs:330-354 -/
def readWorkQueueStats (env : Env) : WorkQueueStats where
  pending := env.messages.getD 0
  inFlight := 0

/-- How `run` ends when it does not fail. -/
inductive Outcome where
  | hubUnreachable
  | emitted (report : StatusReport)
  deriving DecidableEq, Repr

/-- The returned exit code. -/
def Outcome.exitCode : Outcome → Int
  | .hubUnreachable => 2
  | .emitted report => exitCodeForReport report

/-- What `run` makes of the registry's rows.
mirrors src/status.rs:290-312 -/
def buildReport (env : Env) (rows : List NodeRow) : StatusReport where
  nodes := sortByName (addExpected env rows)
  workQueue := readWorkQueueStats env

/-- `none`: `Err`.
mirrors src/status.rs:232-325 -/
def run (env : Env) : Option Outcome :=
  if env.connects then (readRegistry env).map fun rows => .emitted (buildReport env rows)
  else some .hubUnreachable

/-! ## What the rows are -/

theorem readEntry_some {env : Env} {e : String × Fetch} {row : NodeRow} :
    readEntry env e = some row ↔ ∃ bytes cap, e.2 = .entry bytes ∧ env.decode bytes = some cap ∧
      makeNodeRow (nodeNameFromKey e.1) cap env.nowSecs env.staleAfterSecs = row := by
  obtain ⟨key, f⟩ := e
  cases f <;> simp [readEntry]

theorem readEntry_name {env : Env} {e : String × Fetch} {row : NodeRow}
    (h : readEntry env e = some row) : row.name = nodeNameFromKey e.1 := by
  obtain ⟨bytes, cap, -, -, rfl⟩ := readEntry_some.mp h
  rfl

theorem readEntry_not_down {env : Env} {e : String × Fetch} {row : NodeRow}
    (h : readEntry env e = some row) : row.status ≠ .down := by
  obtain ⟨bytes, cap, -, -, rfl⟩ := readEntry_some.mp h
  exact makeNodeRow_not_down

theorem sortByName_perm (rows : List NodeRow) : (sortByName rows).Perm rows :=
  List.mergeSort_perm rows _

/-- The expected names that no row has, in order. -/
def Env.absent (env : Env) (rows : List NodeRow) : List String :=
  missing (rows.map NodeRow.name) env.expected

theorem addExpected_eq (env : Env) (rows : List NodeRow) :
    addExpected env rows = rows ++ (env.absent rows).map makeDownRow :=
  fillMissing_eq makeDownRow_name rows env.expected

/-- A reported row comes from the registry or stands for an absent name. -/
theorem mem_nodes {env : Env} {rows : List NodeRow} {row : NodeRow} :
    row ∈ (buildReport env rows).nodes ↔
      row ∈ rows ∨ ∃ name ∈ env.absent rows, makeDownRow name = row := by
  rw [buildReport, (sortByName_perm _).mem_iff, addExpected_eq, List.mem_append, List.mem_map]

theorem names_perm (env : Env) (rows : List NodeRow) :
    ((buildReport env rows).nodes.map NodeRow.name).Perm
      (rows.map NodeRow.name ++ env.absent rows) := by
  have hnames : (addExpected env rows).map NodeRow.name =
      rows.map NodeRow.name ++ env.absent rows := by
    simp [addExpected_eq, Function.comp_def]
  rw [← hnames]
  exact (sortByName_perm _).map NodeRow.name

theorem mem_absent {env : Env} {rows : List NodeRow} {name : String} :
    name ∈ env.absent rows ↔ name ∈ env.expected ∧ name ∉ rows.map NodeRow.name :=
  mem_missing

end WmBusbridge.L6
