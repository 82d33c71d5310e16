import WmBusbridge.L1Encoding.JsonText
import WmBusbridge.L1Encoding.Serde
import WmBusbridge.L6Status.Capability

/-!
# Capability records as JSON (`src/dispatch.rs:100-155`)

What the heartbeat puts into the bucket and `status` reads back.

* `deserialize_exact`: which objects are read, and as what.
* `deserialize_robust`, `deserialize_old`: a document with the fields of a record reads as
  it, if its load is a finite double; without `no_build` and `role`, as a worker's.
* `record_read_back`: from the text that a writer of this or of a later version prints,
  the record is read but for the digits of its load.
-/
namespace WmBusbridge.L6
open L1

/-! ## Roles -/

/-- `rename_all = "snake_case"`
mirrors src/dispatch.rs:100-112 -/
def NodeRole.toName : NodeRole → String
  | .localLlm => "local_llm"
  | .cloudWorker => "cloud_worker"
  | .laptop => "laptop"
  | .gpuInfer => "gpu_infer"

def NodeRole.ofName (name : String) : Option NodeRole :=
  if name = "local_llm" then some .localLlm
  else if name = "cloud_worker" then some .cloudWorker
  else if name = "laptop" then some .laptop
  else if name = "gpu_infer" then some .gpuInfer
  else none

@[simp] theorem NodeRole.ofName_toName (r : NodeRole) : ofName r.toName = some r := by
  cases r <;> decide

/-! ## Reading -/

/-- The fields in the order of declaration. -/
def NodeCapability.FIELDS : List String :=
  ["cores", "ram_gb", "gpu", "vram_gb", "load1", "queue_depth", "ts", "no_build", "role"]

/-- mirrors src/dispatch.rs:129-155 -/
def NodeCapability.ofSource (get : Record.Source Json) : Option NodeCapability := do
  let cores ← Json.required Json.asU32 (get "cores")
  let ramGb ← Json.required Json.asU32 (get "ram_gb")
  let gpu ← Json.required Json.asBool (get "gpu")
  let vramGb ← Json.required Json.asU32 (get "vram_gb")
  let load1 ← Json.required Json.asF64 (get "load1")
  let queueDepth ← Json.required Json.asU32 (get "queue_depth")
  let ts ← Json.required Json.asU64 (get "ts")
  let noBuild ← Json.defaulted false Json.asBool (get "no_build")
  let role ← Json.defaulted none (Json.asOption (Json.asUnitVariant NodeRole.ofName)) (get "role")
  return { cores, ramGb, gpu, vramGb, load1, queueDepth, ts, noBuild, role }

/-- `serde_json::from_slice::<NodeCapability>`, of a document. -/
def NodeCapability.deserialize (doc : Json) : Option NodeCapability :=
  (doc.source FIELDS).bind ofSource

/-- The fields as they are read into a record. -/
structure Binds (get : Record.Source Json) (cap : NodeCapability) : Prop where
  cores : Json.required Json.asU32 (get "cores") = some cap.cores
  ramGb : Json.required Json.asU32 (get "ram_gb") = some cap.ramGb
  gpu : Json.required Json.asBool (get "gpu") = some cap.gpu
  vramGb : Json.required Json.asU32 (get "vram_gb") = some cap.vramGb
  load1 : Json.required Json.asF64 (get "load1") = some cap.load1
  queueDepth : Json.required Json.asU32 (get "queue_depth") = some cap.queueDepth
  ts : Json.required Json.asU64 (get "ts") = some cap.ts
  noBuild : Json.defaulted false Json.asBool (get "no_build") = some cap.noBuild
  role : Json.defaulted none (Json.asOption (Json.asUnitVariant NodeRole.ofName)) (get "role") =
    some cap.role

theorem ofSource_some {get : Record.Source Json} {cap : NodeCapability} :
    NodeCapability.ofSource get = some cap ↔ Binds get cap := by
  constructor
  · intro h
    simp only [NodeCapability.ofSource, bind, pure, Option.bind_eq_some_iff, Option.some.injEq] at h
    obtain ⟨cores, h1, ramGb, h2, gpu, h3, vramGb, h4, load1, h5, queueDepth, h6, ts, h7, noBuild,
      h8, role, h9, rfl⟩ := h
    exact ⟨h1, h2, h3, h4, h5, h6, h7, h8, h9⟩
  · rintro ⟨h1, h2, h3, h4, h5, h6, h7, h8, h9⟩
    simp [NodeCapability.ofSource, h1, h2, h3, h4, h5, h6, h7, h8, h9]

/-- **What is read of an object**: each field at most once, all but the last two there,
each of its type. -/
theorem deserialize_exact (fields : List (String × Json)) (cap : NodeCapability) :
    NodeCapability.deserialize (.obj fields) = some cap ↔
      ((Record.ofKnown NodeCapability.FIELDS fields).map Prod.fst).Nodup ∧
        Binds (fun k => (Record.ofKnown NodeCapability.FIELDS fields).lookup k) cap := by
  rw [NodeCapability.deserialize, Json.source, Record.source_eq]
  split
  · rename_i h
    rw [Option.bind_some, ofSource_some]
    exact ⟨fun hb => ⟨h, hb⟩, fun hb => hb.2⟩
  · rename_i h
    exact iff_of_false (by simp) fun hb => h hb.1

/-! ## Writing -/

/-- A record as a node holds it: its load is a double. -/
structure Snapshot where
  cap : NodeCapability
  bits : UInt64
  load : F64.ofBits bits = cap.load1
  deriving DecidableEq

namespace Snapshot

/-- The same but for the load. -/
def withLoad (s : Snapshot) (bits : UInt64) : Snapshot where
  cap := { s.cap with load1 := F64.ofBits bits }
  bits := bits
  load := rfl

/-- `role` is left out when there is none.
mirrors src/dispatch.rs:129-155 -/
def fields (s : Snapshot) : List (String × Json) :=
  [("cores", .ofU32 s.cap.cores), ("ram_gb", .ofU32 s.cap.ramGb), ("gpu", .bool s.cap.gpu),
    ("vram_gb", .ofU32 s.cap.vramGb), ("load1", .ofF64 s.bits),
    ("queue_depth", .ofU32 s.cap.queueDepth), ("ts", .num (.posInt s.cap.ts)),
    ("no_build", .bool s.cap.noBuild)] ++ s.cap.role.toList.map fun r => ("role", .str r.toName)

/-- `serde_json::to_vec`, as a document. -/
def serialize (s : Snapshot) : Json := .obj s.fields

end Snapshot

section RoundTrip
variable {s : Snapshot} {fs unknown : List (String × Json)}

theorem fields_nodup (s : Snapshot) : (s.fields.map Prod.fst).Nodup := by
  unfold Snapshot.fields
  cases s.cap.role with
  | none => exact (by decide : (NodeCapability.FIELDS.dropLast).Nodup)
  | some r => exact (by decide : NodeCapability.FIELDS.Nodup)

theorem fields_known (s : Snapshot) : ∀ f ∈ s.fields, f.1 ∈ NodeCapability.FIELDS := by
  intro f hf
  have hmem : f.1 ∈ s.fields.map Prod.fst := List.mem_map_of_mem hf
  unfold Snapshot.fields at hmem
  cases hr : s.cap.role with
  | none =>
    rw [hr] at hmem
    exact List.mem_append_left ["role"] hmem
  | some r =>
    rw [hr] at hmem
    exact hmem

/-- The fields every version has decide all but the last two. -/
theorem ofSource_hardware {get : Record.Source Json} {noBuild : Bool} {role : Option NodeRole}
    (h : ∀ k ∈ NodeCapability.FIELDS.take 7, get k = s.fields.lookup k)
    (hb : Json.defaulted false Json.asBool (get "no_build") = some noBuild)
    (hr : Json.defaulted none (Json.asOption (Json.asUnitVariant NodeRole.ofName)) (get "role") =
      some role) :
    NodeCapability.ofSource get =
      if F64.isFinite s.bits then some { s.cap with noBuild, role } else none := by
  have hload : Json.required Json.asF64 (get "load1") =
      if F64.isFinite s.bits then some s.cap.load1 else none := by
    rw [h "load1" (by decide), ← s.load]
    exact Json.asF64_ofF64 s.bits
  split
  · rename_i hfin
    rw [if_pos hfin] at hload
    refine ofSource_some.mpr ⟨?_, ?_, ?_, ?_, hload, ?_, ?_, hb, hr⟩
    · rw [h "cores" (by decide)]
      exact Json.asU32_ofU32 _
    · rw [h "ram_gb" (by decide)]
      exact Json.asU32_ofU32 _
    · rw [h "gpu" (by decide)]
      rfl
    · rw [h "vram_gb" (by decide)]
      exact Json.asU32_ofU32 _
    · rw [h "queue_depth" (by decide)]
      exact Json.asU32_ofU32 _
    · rw [h "ts" (by decide)]
      rfl
  · rename_i hfin
    rw [if_neg hfin] at hload
    refine Option.eq_none_iff_forall_ne_some.mpr fun cap hcap => ?_
    have hbinds := (ofSource_some.mp hcap).load1
    rw [hload] at hbinds
    cases hbinds

theorem ofSource_fields (s : Snapshot) : NodeCapability.ofSource (fun k => s.fields.lookup k) =
    if F64.isFinite s.bits then some s.cap else none := by
  apply ofSource_hardware (fun k _ => rfl) rfl
  unfold Snapshot.fields
  cases s.cap.role with
  | none => rfl
  | some r => simp [List.lookup_cons, Json.defaulted, Json.asOption, Json.asUnitVariant]

/-- A document with the fields of a record, in whatever order and among whatever others,
reads as the record when its load is finite; else it is never read. -/
theorem deserialize_robust (hu : ∀ f ∈ unknown, f.1 ∉ NodeCapability.FIELDS)
    (hp : fs.Perm (s.fields ++ unknown)) : NodeCapability.deserialize (.obj fs) =
      if F64.isFinite s.bits then some s.cap else none := by
  rw [NodeCapability.deserialize, Json.source, Record.source_perm hp, Record.source_unknown hu,
    Record.source_of_nodup (fields_known s) (fields_nodup s), Option.bind_some]
  exact ofSource_fields s

/-- The fields there were before `no_build` and `role`. -/
def Snapshot.oldFields (s : Snapshot) : List (String × Json) := s.fields.take 7

/-- **A document without the two latest fields** reads as the record of a worker without
a role. -/
theorem deserialize_old (hu : ∀ f ∈ unknown, f.1 ∉ NodeCapability.FIELDS)
    (hp : fs.Perm (s.oldFields ++ unknown)) : NodeCapability.deserialize (.obj fs) =
      if F64.isFinite s.bits then some { s.cap with noBuild := false, role := none } else none := by
  have hsub : s.oldFields.Sublist s.fields := List.take_sublist 7 _
  rw [NodeCapability.deserialize, Json.source, Record.source_perm hp, Record.source_unknown hu,
    Record.source_of_nodup (fun f hf => fields_known s f (hsub.subset hf))
      ((fields_nodup s).sublist (hsub.map _)), Option.bind_some]
  refine ofSource_hardware ?_ rfl rfl
  simp only [NodeCapability.FIELDS, List.take_succ_cons, List.take_zero, List.forall_mem_cons]
  exact ⟨rfl, rfl, rfl, rfl, rfl, rfl, rfl, fun k hk => (nomatch hk)⟩

/-! ## As text -/

/-- The record whose load is what the text of this one's is read as. -/
def Snapshot.reread (s : Snapshot) (T : NumberText) : Snapshot :=
  if F64.isFinite s.bits then s.withLoad (T.reread s.bits) else s

theorem isFinite_reread (s : Snapshot) (T : NumberText) :
    F64.isFinite (s.reread T).bits = F64.isFinite s.bits := by
  unfold Snapshot.reread
  split
  · rename_i hfin
    rw [hfin]
    exact T.finite _ hfin
  · rfl

/-- Only the load is a double. -/
theorem rereadFields_fields (s : Snapshot) (T : NumberText) :
    Json.rereadFields T.reread s.fields = (s.reread T).fields := by
  have hrole : ∀ o : Option NodeRole,
      (o.toList.map fun r => ("role", Json.str r.toName)).map
        (fun f => (f.1, f.2.reread T.reread)) =
        o.toList.map fun r => ("role", Json.str r.toName) := by
    intro o
    cases o <;> rfl
  rw [Json.rereadFields_eq, Snapshot.fields, List.map_append, hrole]
  unfold Snapshot.reread
  split
  · rename_i hfin
    have hfin' := T.finite _ hfin
    simp [Snapshot.fields, Snapshot.withLoad, Json.ofF64, Json.ofU32, Json.reread, Number.reread,
      hfin, hfin']
  · rename_i hfin
    simp [Snapshot.fields, Json.ofF64, Json.ofU32, Json.reread, Number.reread, hfin]

/-- What `serde_json` prints of a record it reads. -/
theorem serialize_printable (s : Snapshot) : s.serialize.printable = true := by
  have hwhole : ∀ n, (Number.posInt n).wf = true := fun _ => rfl
  have hload : F64.isFinite s.bits = true → (Number.float s.bits).wf = true := fun h => h
  unfold Snapshot.serialize Snapshot.fields Json.ofF64
  cases s.cap.role <;> by_cases hfin : F64.isFinite s.bits = true <;>
    simp [Json.printable, Json.depth, Json.depthFields, Json.numbers, Json.numbersFields,
      Json.ofU32, hwhole, hload, hfin]

/-- `serde_json::from_slice::<NodeCapability>` -/
def NodeCapability.fromSlice (T : JsonText) (b : Bytes) : Option NodeCapability :=
  (T.fromSlice b).bind deserialize

/-- `exact`: a load of few digits comes back as it was. -/
structure ReadBack (T : JsonText) (s : Snapshot) (b : Bytes) : Prop where
  read : NodeCapability.fromSlice T b = if F64.isFinite s.bits then
    some { s.cap with load1 := F64.ofBits (T.reread s.bits) } else none
  exact : F64.Short s.bits →
    NodeCapability.fromSlice T b = if F64.isFinite s.bits then some s.cap else none

/-- The text of a document is read as the record that its doubles are read as. -/
theorem fromSlice_fields {T : JsonText} {b : Bytes}
    (hu : ∀ f ∈ unknown, f.1 ∉ NodeCapability.FIELDS) (hp : fs.Perm (s.fields ++ unknown))
    (hdoc : (Json.obj fs).printable = true) (hb : T.toVec (.obj fs) = some b) :
    NodeCapability.fromSlice T b = if F64.isFinite s.bits then
      some { s.cap with load1 := F64.ofBits (T.reread s.bits) } else none := by
  have hfields : (Json.rereadFields T.reread fs).Perm
      ((s.reread T.toNumberText).fields ++ Json.rereadFields T.reread unknown) :=
    rereadFields_fields s T.toNumberText ▸ Json.rereadFields_perm hp
  rw [NodeCapability.fromSlice, T.fromSlice_toVec _ b hdoc hb, Option.bind_some, Json.reread,
    deserialize_robust (Json.rereadFields_names hu) hfields, isFinite_reread]
  refine if_ctx_congr Iff.rfl (fun hfin => ?_) fun _ => rfl
  rw [Snapshot.reread, if_pos hfin, Snapshot.withLoad]

/-- A load of few digits is its own text's double. -/
theorem ReadBack.of_read {T : JsonText} {b : Bytes}
    (h : NodeCapability.fromSlice T b = if F64.isFinite s.bits then
      some { s.cap with load1 := F64.ofBits (T.reread s.bits) } else none) : ReadBack T s b where
  read := h
  exact hshort := by rw [h, T.short _ hshort, s.load]

/-- The text that a node of this version prints. -/
theorem serialize_read_back {T : JsonText} {b : Bytes} (hb : T.toVec s.serialize = some b) :
    ReadBack T s b := by
  have hp : s.fields.Perm (s.fields ++ []) := .of_eq (List.append_nil _).symm
  exact .of_read (fromSlice_fields (List.forall_mem_nil _) hp (serialize_printable s) hb)

end RoundTrip

def snapshotEx : Snapshot where
  cap :=
    { cores := 8, ramGb := 32, gpu := false, vramGb := 0, load1 := F64.ofBits 0x3FF0000000000000,
      queueDepth := 0, ts := 1000, noBuild := true, role := some .localLlm }
  bits := 0x3FF0000000000000
  load := rfl

/-- A field of a later version. -/
def archEx : String × Json := ("arch", .str "x86_64")

theorem snapshotEx_old :
    NodeCapability.deserialize (.obj (archEx :: snapshotEx.oldFields.reverse)) =
      some { snapshotEx.cap with noBuild := false, role := none } :=
  (@deserialize_old snapshotEx _ [archEx] (by decide +kernel)
    ((List.reverse_perm _).cons archEx |>.trans (List.perm_append_singleton archEx _).symm)).trans
    (if_pos rfl)

end WmBusbridge.L6
