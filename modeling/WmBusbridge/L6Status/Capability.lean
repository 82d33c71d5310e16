import WmBusbridge.L1Encoding.Float
import WmBusbridge.L1Encoding.Str

/-!
# Capability records and their keys (`src/dispatch.rs`)
-/
namespace WmBusbridge.L6
open L1 L1.Str

/-- mirrors src/dispatch.rs:52 -/
def NODE_KEY_PREFIX : String := "node."

/-- mirrors src/dispatch.rs:83-85 -/
def nodeKey (name : String) : String := NODE_KEY_PREFIX ++ name

/-- mirrors src/dispatch.rs:89-91 -/
def nodeNameFromKey (key : String) : String := (stripPrefix key NODE_KEY_PREFIX).getD key

/-- Stripping the prefix undoes adding it. -/
theorem nodeNameFromKey_nodeKey (name : String) : nodeNameFromKey (nodeKey name) = name := by
  have hp : startsWith (nodeKey name) NODE_KEY_PREFIX = true := by
    rw [startsWith_iff, nodeKey, String.toList_append]
    exact List.prefix_append _ _
  rw [nodeNameFromKey, stripPrefix, if_pos hp, nodeKey, String.toList_append, List.drop_left]
  simp

/-- mirrors src/dispatch.rs:100-112 -/
inductive NodeRole where
  | localLlm
  | cloudWorker
  | laptop
  | gpuInfer
  deriving DecidableEq, Repr

/-- mirrors src/dispatch.rs:129-155 -/
structure NodeCapability where
  cores : UInt32
  ramGb : UInt32
  gpu : Bool
  vramGb : UInt32
  load1 : F64
  queueDepth : UInt32
  ts : UInt64
  noBuild : Bool
  role : Option NodeRole
  deriving DecidableEq, Repr

/-- mirrors src/dispatch.rs:182-184 -/
def NodeCapability.isStale (cap : NodeCapability) (nowSecs maxAgeSecs : UInt64) : Bool :=
  maxAgeSecs < satSub nowSecs cap.ts

/-- mirrors src/dispatch.rs:165-171 -/
def NodeCapability.isAvailable (cap : NodeCapability) : Bool :=
  if cap.cores = 0 then false
  else decide (cap.load1.divU32 cap.cores < .fin 2)

/-- mirrors src/dispatch.rs:175-177 -/
def NodeCapability.hasGpu (cap : NodeCapability) : Bool := cap.gpu && decide (0 < cap.vramGb)

/-- mirrors src/dispatch.rs:195-200 -/
def NodeCapability.isBuildEligible (cap : NodeCapability) : Bool :=
  if cap.noBuild then false else cap.role ≠ some .localLlm

/-- An available node has cores, and its load is a number. -/
theorem NodeCapability.isAvailable_iff {cap : NodeCapability} :
    cap.isAvailable = true ↔ cap.cores ≠ 0 ∧ cap.load1.divU32 cap.cores < .fin 2 := by
  rw [isAvailable]
  split
  · rename_i h
    simp [h]
  · rename_i h
    simp [h]

/-- It has a load below two for each core. -/
theorem NodeCapability.isAvailable_load {cap : NodeCapability} :
    cap.isAvailable = true ↔ cap.cores ≠ 0 ∧ cap.load1 < .fin (2 * cap.cores.toNat) := by
  rw [isAvailable_iff]
  exact and_congr_right fun h => F64.divU32_lt_fin h

end WmBusbridge.L6
