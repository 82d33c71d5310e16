import WmBusbridge.L1Encoding.JsonText
import WmBusbridge.L1Encoding.Serde
import WmBusbridge.L1Encoding.Subject
import WmBusbridge.L4Bridge.Loops
import WmBusbridge.L7Dispatch.Placement

/-!
# Jobs on the wire (`src/dispatch.rs:206-281`)

A job is published as JSON on a subject of its own making.

* `deserialize_fieldsAs`: a document with the fields of a job, in any order and among
  others, reads as it; a class that is not known reads as the catch-all.
* `job_read_back`: from its text a job is read but for the digits of its payload.
* `subject_names`: a subject names the class and the detail and nothing else, is valid when
  the detail is, and does not cross a bridge.
-/
namespace WmBusbridge.L7
open L1 L1.Str L2

/-! ## The record -/

/-- `rename_all = "snake_case"`
mirrors src/dispatch.rs:206-218 -/
def JobClass.toName : JobClass → String
  | .build => "build"
  | .infer => "infer"
  | .test => "test"
  | .unknown => "unknown"

/-- `#[serde(other)]`: whatever else it is called.
mirrors src/dispatch.rs:206-218 -/
def JobClass.ofName (name : String) : JobClass :=
  if name = "build" then .build
  else if name = "infer" then .infer
  else if name = "test" then .test
  else .unknown

@[simp] theorem JobClass.ofName_toName (c : JobClass) : ofName c.toName = c := by
  cases c <;> decide

/-- A job with the fields that no placement looks at.
mirrors src/dispatch.rs:243-257 -/
structure JobRecord extends Job where
  id : String
  payload : Value
  submittedAt : UInt64
  deriving DecidableEq

/-- How `serde_json` reads a `Value` out of a document; printed, a value reads as itself. -/
structure ValueReader where
  read : Json → Option Value
  read_json : ∀ v : Value, read v.json = some v

namespace JobRecord

/-- The fields in the order of declaration. -/
def FIELDS : List String := ["id", "class", "detail", "payload", "submitted_at", "pinned_node"]

/-- An `Option` that is missing is `None`.
mirrors src/dispatch.rs:243-257 -/
def ofSource (V : ValueReader) (get : Record.Source Json) : Option JobRecord := do
  let id ← Json.required Json.asStr (get "id")
  let jobClass ← Json.required (Json.asUnitVariant fun s => some (JobClass.ofName s)) (get "class")
  let detail ← Json.defaulted none (Json.asOption Json.asStr) (get "detail")
  let payload ← Json.required V.read (get "payload")
  let submittedAt ← Json.required Json.asU64 (get "submitted_at")
  let pinnedNode ← Json.defaulted none (Json.asOption Json.asStr) (get "pinned_node")
  return { id, jobClass, detail, payload, submittedAt, pinnedNode }

/-- `serde_json::from_slice::<Job>`, of a document. In an array no field may be missing. -/
def deserialize (V : ValueReader) (doc : Json) : Option JobRecord :=
  if doc.asArray.any fun items => items.length ≠ FIELDS.length then none
  else (doc.source FIELDS).bind (ofSource V)

def optionJson : Option String → Json
  | none => .null
  | some s => .str s

/-- The fields, with the class under the name that the submitter has for it.
mirrors src/dispatch.rs:243-257 -/
def fieldsAs (j : JobRecord) (className : String) : List (String × Json) :=
  [("id", .str j.id), ("class", .str className), ("detail", optionJson j.detail),
    ("payload", j.payload.json), ("submitted_at", .num (.posInt j.submittedAt)),
    ("pinned_node", optionJson j.pinnedNode)]

/-- `Job::to_bytes`, as a document.
mirrors src/dispatch.rs:277-279 -/
def serialize (j : JobRecord) : Json := .obj (j.fieldsAs j.jobClass.toName)

end JobRecord

section Reading
variable {V : ValueReader} {j : JobRecord} {className : String} {fs unknown : List (String × Json)}

theorem asOption_optionJson (o : Option String) :
    Json.defaulted none (Json.asOption Json.asStr) (some (JobRecord.optionJson o)) = some o := by
  cases o <;> rfl

theorem ofSource_fieldsAs (V : ValueReader) (j : JobRecord) (className : String) :
    JobRecord.ofSource V (fun k => (j.fieldsAs className).lookup k) =
      some { j with jobClass := JobClass.ofName className } := by
  simp [JobRecord.ofSource, JobRecord.fieldsAs, List.lookup_cons, Json.required, Json.asStr,
    Json.asUnitVariant, Json.asU64, asOption_optionJson, V.read_json]

theorem fieldsAs_names (j : JobRecord) (className : String) :
    (j.fieldsAs className).map Prod.fst = JobRecord.FIELDS := rfl

/-- A document with the fields of a job, in whatever order and among whatever others, reads
as the job; its class is the one of that name, or the catch-all. -/
theorem deserialize_fieldsAs (hu : ∀ f ∈ unknown, f.1 ∉ JobRecord.FIELDS)
    (hp : fs.Perm (j.fieldsAs className ++ unknown)) : JobRecord.deserialize V (.obj fs) =
      some { j with jobClass := JobClass.ofName className } := by
  have hknown : ∀ f ∈ j.fieldsAs className, f.1 ∈ JobRecord.FIELDS := fun f hf =>
    fieldsAs_names j className ▸ List.mem_map_of_mem hf
  have hnodup : ((j.fieldsAs className).map Prod.fst).Nodup := by
    rw [fieldsAs_names]
    decide
  have hobj : (Json.asArray (.obj fs)).any (fun items => items.length ≠ JobRecord.FIELDS.length) =
      false := rfl
  rw [JobRecord.deserialize, hobj, if_neg Bool.false_ne_true, Json.source, Record.source_perm hp,
    Record.source_unknown hu, Record.source_of_nodup hknown hnodup, Option.bind_some]
  exact ofSource_fieldsAs V j className

end Reading

/-! ## As text -/

namespace JobRecord

/-- mirrors src/dispatch.rs:277-279 -/
def toBytes (T : JsonText) (j : JobRecord) : Option Bytes := T.toVec j.serialize

/-- `serde_json::from_slice::<Job>` -/
def fromSlice (T : JsonText) (V : ValueReader) (b : Bytes) : Option JobRecord :=
  (T.fromSlice b).bind (deserialize V)

end JobRecord

section Text
variable {T : JsonText} {V : ValueReader} {j : JobRecord} {className : String}
  {fs unknown : List (String × Json)} {b : Bytes}

/-- `exact`: a payload whose doubles have few digits comes back as it was. -/
structure JobReadBack (T : JsonText) (V : ValueReader) (j : JobRecord) (className : String)
    (b : Bytes) : Prop where
  read : JobRecord.fromSlice T V b =
    some { j with jobClass := JobClass.ofName className, payload := T.value j.payload }
  exact : j.payload.json.Short →
    JobRecord.fromSlice T V b = some { j with jobClass := JobClass.ofName className }

/-- Only the payload has doubles. -/
theorem rereadFields_fieldsAs (T : NumberText) (j : JobRecord) (className : String) :
    Json.rereadFields T.reread (j.fieldsAs className) =
      { j with payload := T.value j.payload : JobRecord }.fieldsAs className := by
  have hopt : ∀ o, (JobRecord.optionJson o).reread T.reread = JobRecord.optionJson o := by
    intro o
    cases o <;> rfl
  simp [JobRecord.fieldsAs, Json.rereadFields, Json.reread, Number.reread, hopt, NumberText.value]

/-- The text of a document is read as the job that its doubles are read as. -/
theorem fromSlice_fieldsAs (hu : ∀ f ∈ unknown, f.1 ∉ JobRecord.FIELDS)
    (hp : fs.Perm (j.fieldsAs className ++ unknown)) (hdoc : (Json.obj fs).printable = true)
    (hb : T.toVec (.obj fs) = some b) : JobRecord.fromSlice T V b =
      some { j with jobClass := JobClass.ofName className, payload := T.value j.payload } := by
  have hfields : (Json.rereadFields T.reread fs).Perm
      ({ j with payload := T.value j.payload : JobRecord }.fieldsAs className ++
        Json.rereadFields T.reread unknown) :=
    rereadFields_fieldsAs T.toNumberText j className ▸ Json.rereadFields_perm hp
  rw [JobRecord.fromSlice, T.fromSlice_toVec _ b hdoc hb, Option.bind_some, Json.reread]
  exact deserialize_fieldsAs (Json.rereadFields_names hu) hfields

/-- Doubles of few digits are their own texts' doubles. -/
theorem JobReadBack.of_read (h : JobRecord.fromSlice T V b =
    some { j with jobClass := JobClass.ofName className, payload := T.value j.payload }) :
    JobReadBack T V j className b where
  read := h
  exact hshort := by rw [h, NumberText.value_short hshort]

/-- What `to_bytes` prints, if the payload is not nested too deep to be read. -/
theorem toBytes_read_back (hd : j.payload.json.depth < 127) (hb : j.toBytes T = some b) :
    JobReadBack T V j j.jobClass.toName b := by
  have hopt : ∀ o, (JobRecord.optionJson o).depth = 0 ∧ (JobRecord.optionJson o).numbers = [] := by
    intro o
    cases o <;> exact ⟨rfl, rfl⟩
  have hwhole : (Number.posInt j.submittedAt).wf = true := rfl
  have hdoc : j.serialize.printable = true := by
    have hnum := Json.numbers_wf _ j.payload.wf
    simp only [JobRecord.serialize, JobRecord.fieldsAs, Json.printable, Json.depth,
      Json.depthFields, Json.numbers, Json.numbersFields, hopt, List.nil_append, List.append_nil,
      List.all_append, List.all_cons, List.all_nil, hnum, hwhole]
    simp
    omega
  have hp : (j.fieldsAs j.jobClass.toName).Perm (j.fieldsAs j.jobClass.toName ++ []) :=
    .of_eq (List.append_nil _).symm
  exact .of_read (fromSlice_fieldsAs (List.forall_mem_nil _) hp hdoc hb)

end Text

/-- The detail, unless it is empty. -/
def Job.tag (job : Job) : Option String := job.detail.filter (· ≠ "")

/-- What a tag adds to a subject. -/
def tagText : Option String → String
  | none => ""
  | some d => "." ++ d

section Subject
variable {s s' : String} {t t' : Option String} {job job' : Job}

theorem subject_eq (job : Job) :
    job.subject = "wm.work." ++ job.jobClass.subjectSuffix ++ tagText job.tag := by
  unfold Job.subject Job.tag
  cases job.detail with
  | none => simp [tagText, WORK_SUBJECT_PREFIX]
  | some d =>
    by_cases hd : d = ""
    · subst hd
      simp [Option.filter, tagText, WORK_SUBJECT_PREFIX]
    · simp [Option.filter, hd, tagText, WORK_SUBJECT_PREFIX, String.append_assoc]

/-- Up to the first dot. -/
theorem takeWhile_tagText (hs : '.' ∉ s.toList) (t : Option String) :
    (s ++ tagText t).toList.takeWhile (· ≠ '.') = s.toList := by
  have hall : ∀ c ∈ s.toList, decide (c ≠ '.') = true := fun c hc =>
    decide_eq_true fun he => hs (he ▸ hc)
  rw [String.toList_append, List.takeWhile_append_of_pos hall]
  cases t with
  | none => simp [tagText]
  | some d => simp [tagText]

theorem tagText_inj (h : tagText t = tagText t') : t = t' := by
  rw [← String.toList_inj] at h
  cases t <;> cases t' <;> simp_all [tagText, String.toList_inj]

/-- A word without a dot and a tag can be told apart again. -/
theorem word_tag_inj (hs : '.' ∉ s.toList) (hs' : '.' ∉ s'.toList)
    (h : s ++ tagText t = s' ++ tagText t') : s = s' ∧ t = t' := by
  have hword : s = s' := by
    rw [← String.toList_inj, ← takeWhile_tagText hs t, h, takeWhile_tagText hs' t']
  subst hword
  refine ⟨rfl, tagText_inj ?_⟩
  rw [← String.toList_inj] at h ⊢
  simpa using h

theorem dot_notMem_suffix (c : JobClass) : '.' ∉ c.subjectSuffix.toList := by
  cases c <;> decide

theorem subjectSuffix_inj {c c' : JobClass} (h : c.subjectSuffix = c'.subjectSuffix) : c = c' := by
  cases c <;> cases c' <;> first | rfl | exact absurd h (by decide)

/-- No blocked prefix starts a job's subject, and neither does the fleet's. -/
theorem not_startsWith_subject {p : String} (job : Job) (h : startsWith "wm.work." p = false)
    (h' : startsWith p "wm.work." = false) : startsWith job.subject p = false := by
  rw [subject_eq, String.append_assoc, ← Bool.not_eq_true]
  intro hs
  rcases startsWith_of_append hs with hs | hs
  · exact Bool.false_ne_true (h.symm.trans hs)
  · exact Bool.false_ne_true (h'.symm.trans hs)

/-- `same`: nothing else in the job matters. `crosses`: only an item of the allow text
lets a job through the bridge. -/
structure SubjectNames (job : Job) : Prop where
  same : ∀ job' : Job, job'.subject = job.subject ↔
    job'.jobClass = job.jobClass ∧ job'.tag = job.tag
  valid : validSubject job.subject = true ↔ ∀ d, job.tag = some d → validSubject d = true
  crosses : ∀ allow, shouldForward job.subject (L4.allowList allow) = true ↔
    ∃ item ∈ L4.extraAllow allow, startsWith job.subject item = true

/-- **What a job's subject says**: the class and the detail. -/
theorem subject_names (job : Job) : SubjectNames job := by
  refine ⟨fun job' => ⟨fun h => ?_, fun h => ?_⟩, ?_, fun allow => ?_⟩
  · rw [subject_eq, subject_eq, String.append_assoc, String.append_assoc] at h
    have h := word_tag_inj (dot_notMem_suffix _) (dot_notMem_suffix _) (by simpa using h)
    exact ⟨subjectSuffix_inj h.1, h.2⟩
  · rw [subject_eq, subject_eq, h.1, h.2]
  · have hbase : validSubject ("wm.work." ++ job.jobClass.subjectSuffix) = true := by
      cases job.jobClass <;> decide
    rw [subject_eq]
    cases job.tag with
    | none => simp [tagText, hbase]
    | some d => simp [tagText, ← String.append_assoc, validSubject_dot, hbase]
  · rw [shouldForward_iff]
    constructor
    · rintro ⟨-, p, hp, hs⟩
      rcases List.mem_cons.mp hp with rfl | hp
      · rw [not_startsWith_subject job (by decide) (by decide)] at hs
        cases hs
      · exact ⟨p, hp, hs⟩
    · rintro ⟨p, hp, hs⟩
      refine ⟨?_, p, List.mem_cons_of_mem _ hp, hs⟩
      simp only [BLOCKED_PREFIXES, List.forall_mem_cons]
      exact ⟨not_startsWith_subject job (by decide) (by decide),
        not_startsWith_subject job (by decide) (by decide), fun b hb => (nomatch hb)⟩

end Subject
end WmBusbridge.L7
