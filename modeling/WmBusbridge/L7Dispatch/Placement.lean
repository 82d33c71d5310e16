import WmBusbridge.L6Status.Capability

/-!
# Placing a job (`src/dispatch.rs:202-417`)

`placeJob` filters the nodes of the fleet, in whatever order the map gives them,
and picks one with `min_by`. Of a job it reads the class, the detail and the pin;
the id, the payload and the submission time are left out.

* `place_job_exact`: it routes exactly when some node is eligible, and the node it
  picks is eligible with a least score.
* `pin_never_carried`: the subject of a routed job does not depend on its pin.
-/
namespace WmBusbridge.L7
open L1 L6

/-! ## Jobs -/

/-- mirrors src/dispatch.rs:206-218 -/
inductive JobClass where
  | build
  | infer
  | test
  | unknown
  deriving DecidableEq, Repr

/-- mirrors src/dispatch.rs:223-230 -/
def JobClass.subjectSuffix : JobClass → String
  | .build => "build"
  | .infer => "infer"
  | .test => "test"
  | .unknown => "unknown"

/-- mirrors src/dispatch.rs:54 -/
def WORK_SUBJECT_PREFIX : String := "wm.work."

/-- `jobClass` is the field `class`.
mirrors src/dispatch.rs:243-257 -/
structure Job where
  jobClass : JobClass
  detail : Option String
  pinnedNode : Option String
  deriving DecidableEq, Repr

/-- mirrors src/dispatch.rs:264-270 -/
def Job.subject (job : Job) : String :=
  let base := WORK_SUBJECT_PREFIX ++ job.jobClass.subjectSuffix
  match job.detail with
  | some d => if d = "" then base else base ++ "." ++ d
  | none => base

/-! ## Placement -/

/-- mirrors src/dispatch.rs:322-332 -/
inductive PlacementDecision where
  | route (subject : String)
  | unplaceable (reason : String)
  deriving DecidableEq, Repr

/-- An entry of the fleet map. -/
abbrev FleetNode := String × NodeCapability

/-- mirrors src/dispatch.rs:354 -/
def Job.isBuildClass (job : Job) : Bool := job.jobClass = .build ∨ job.jobClass = .test

/-- mirrors src/dispatch.rs:359-371 -/
def isCandidate (job : Job) (n : FleetNode) : Bool :=
  if job.pinnedNode.any (fun pin => n.1 ≠ pin) then false
  else if job.isBuildClass && !n.2.isBuildEligible then false
  else n.2.isAvailable

/-- mirrors src/dispatch.rs:403-406 -/
def saturation (cap : NodeCapability) : F64 :=
  if 0 < cap.cores then cap.load1.divU32 cap.cores else F64.MAX

/-- The node that is picked, or why none is.
mirrors src/dispatch.rs:357-415 -/
def selectNode (job : Job) (nodes : List FleetNode) : Except String FleetNode := do
  let candidates := nodes.filter (isCandidate job)
  if candidates = [] then
    match job.pinnedNode with
    | some pin => throw ("pinned node '" ++ pin ++ "' is not available")
    | none => throw "no available nodes in fleet"
  let best ← match job.jobClass with
    | .infer =>
      let gpuCandidates := candidates.filter fun n => n.2.hasGpu
      if gpuCandidates = [] then throw "no GPU-capable node available for infer job"
      else pure (minBy (byScore fun n => n.2.load1) gpuCandidates)
    | .build | .test | .unknown => pure (minBy (byScore fun n => saturation n.2) candidates)
  match best with
  | some n => pure n
  | none => throw "internal: candidate selection failed"

/-- mirrors src/dispatch.rs:352-417 -/
def placeJob (job : Job) (nodes : List FleetNode) : PlacementDecision :=
  match selectNode job nodes with
  | .ok _ => .route job.subject
  | .error reason => .unplaceable reason

/-! ## Eligibility -/

/-- The job may be placed on the node. -/
structure Eligible (job : Job) (n : FleetNode) : Prop where
  pin : ∀ pin, job.pinnedNode = some pin → n.1 = pin
  available : n.2.isAvailable = true
  build : job.jobClass = .build ∨ job.jobClass = .test → n.2.isBuildEligible = true
  infer : job.jobClass = .infer → n.2.hasGpu = true

/-- What the job's class ranks nodes by. -/
def score (job : Job) (n : FleetNode) : F64 :=
  if job.jobClass = .infer then n.2.load1 else n.2.load1.divU32 n.2.cores

theorem isCandidate_iff {job : Job} {n : FleetNode} :
    isCandidate job n = true ↔ (∀ pin, job.pinnedNode = some pin → n.1 = pin) ∧
      (job.jobClass = .build ∨ job.jobClass = .test → n.2.isBuildEligible = true) ∧
      n.2.isAvailable = true := by
  have hpin : job.pinnedNode.any (fun pin => n.1 ≠ pin) = false ↔
      ∀ pin, job.pinnedNode = some pin → n.1 = pin := by
    cases job.pinnedNode <;> simp
  have hbuild : (job.isBuildClass && !n.2.isBuildEligible) = false ↔
      (job.jobClass = .build ∨ job.jobClass = .test → n.2.isBuildEligible = true) := by
    unfold Job.isBuildClass
    cases n.2.isBuildEligible <;> simp
  rw [isCandidate, ← hpin, ← hbuild]
  generalize job.pinnedNode.any (fun pin => n.1 ≠ pin) = other
  generalize (job.isBuildClass && !n.2.isBuildEligible) = barred
  cases other <;> cases barred <;> simp

/-- The nodes among which the class picks. -/
def ranked (job : Job) (nodes : List FleetNode) : List FleetNode :=
  if job.jobClass = .infer then (nodes.filter (isCandidate job)).filter fun n => n.2.hasGpu
  else nodes.filter (isCandidate job)

theorem mem_ranked {job : Job} {nodes : List FleetNode} {n : FleetNode} :
    n ∈ ranked job nodes ↔ n ∈ nodes ∧ Eligible job n := by
  have helig : Eligible job n ↔ isCandidate job n = true ∧
      (job.jobClass = .infer → n.2.hasGpu = true) := by
    rw [isCandidate_iff]
    constructor
    · rintro ⟨hp, ha, hb, hi⟩
      exact ⟨⟨hp, hb, ha⟩, hi⟩
    · rintro ⟨⟨hp, hb, ha⟩, hi⟩
      exact ⟨hp, ha, hb, hi⟩
  rw [ranked, helig]
  split
  · rename_i hc
    simp only [List.mem_filter, hc, forall_const, and_assoc]
  · rename_i hc
    simp [hc]

/-- What `min_by` compares them by. -/
def rankedBy (job : Job) (n : FleetNode) : F64 :=
  if job.jobClass = .infer then n.2.load1 else saturation n.2

/-- An eligible node is ranked by its score, and that is a number. -/
theorem Eligible.rankedBy_eq {job : Job} {n : FleetNode} (h : Eligible job n) :
    rankedBy job n = score job n ∧ score job n ≠ .nan := by
  obtain ⟨hcores, hlt⟩ := NodeCapability.isAvailable_iff.mp h.available
  have hnum := F64.ne_nan_of_lt hlt
  have hsat : saturation n.2 = n.2.load1.divU32 n.2.cores :=
    if_pos (UInt32.pos_iff_ne_zero.mpr hcores)
  rw [rankedBy, score, hsat]
  split
  · exact ⟨rfl, F64.divU32_ne_nan hnum⟩
  · exact ⟨rfl, hnum⟩

theorem pinned_ne_internal (pin : String) :
    "pinned node '" ++ pin ++ "' is not available" ≠ "internal: candidate selection failed" := by
  intro h
  have hhead := congrArg (fun s => s.toList.head?) h
  simp at hhead

/-- `selectNode` gives the least of the ranked nodes, or an error when there is
none. -/
theorem selectNode_eq (job : Job) (nodes : List FleetNode) :
    (ranked job nodes = [] ∧ ∃ reason, selectNode job nodes = .error reason ∧
        reason ≠ "internal: candidate selection failed") ∨
      ∃ best, (ranked job nodes).argmin (rankedBy job) = some best ∧
        selectNode job nodes = .ok best := by
  have hargmin : ranked job nodes ≠ [] →
      ∃ best, (ranked job nodes).argmin (rankedBy job) = some best := fun hne =>
    Option.ne_none_iff_exists'.mp fun h => hne (List.argmin_eq_none.mp h)
  by_cases hc : nodes.filter (isCandidate job) = []
  · refine .inl ⟨by simp [ranked, hc], ?_⟩
    cases hp : job.pinnedNode with
    | none => exact ⟨_, by simp [selectNode, hc, hp]; rfl, by decide⟩
    | some pin => exact ⟨_, by simp [selectNode, hc, hp]; rfl, pinned_ne_internal pin⟩
  · by_cases hi : job.jobClass = .infer
    · have hranked : ranked job nodes =
          (nodes.filter (isCandidate job)).filter fun n => n.2.hasGpu := if_pos hi
      by_cases hg : (nodes.filter (isCandidate job)).filter (fun n => n.2.hasGpu) = []
      · exact .inl ⟨hranked.trans hg, _, by simp only [selectNode, hc, hi, hg]; rfl, by decide⟩
      · obtain ⟨best, hbest⟩ := hargmin (by rwa [hranked])
        refine .inr ⟨best, hbest, ?_⟩
        have hby : rankedBy job = fun n => n.2.load1 := funext fun n => if_pos hi
        rw [hranked, hby, ← minBy_eq] at hbest
        simp only [selectNode, hc, hi, hg, hbest]
        rfl
    · have hranked : ranked job nodes = nodes.filter (isCandidate job) := if_neg hi
      obtain ⟨best, hbest⟩ := hargmin (by rwa [hranked])
      refine .inr ⟨best, hbest, ?_⟩
      have hby : rankedBy job = fun n => saturation n.2 := funext fun n => if_neg hi
      rw [hranked, hby, ← minBy_eq] at hbest
      cases hcl : job.jobClass with
      | infer => exact absurd hcl hi
      | _ =>
        simp only [selectNode, hc, hcl, hbest]
        rfl

/-! ## The decision -/

theorem placeJob_ok {job : Job} {nodes : List FleetNode} {best : FleetNode}
    (h : selectNode job nodes = .ok best) : placeJob job nodes = .route job.subject := by
  rw [placeJob, h]

theorem placeJob_error {job : Job} {nodes : List FleetNode} {reason : String}
    (h : selectNode job nodes = .error reason) : placeJob job nodes = .unplaceable reason := by
  rw [placeJob, h]

/-- `least`: with its score, which is a number, no larger than any other. -/
structure PlacesBest (job : Job) (nodes : List FleetNode) : Prop where
  route : placeJob job nodes = .route job.subject ↔ ∃ n ∈ nodes, Eligible job n
  unplaceable : (∃ reason, placeJob job nodes = .unplaceable reason) ↔
    ¬ ∃ n ∈ nodes, Eligible job n
  no_internal : placeJob job nodes ≠ .unplaceable "internal: candidate selection failed"
  picked : ∀ best, selectNode job nodes = .ok best → best ∈ nodes ∧ Eligible job best
  minimal : ∀ best, selectNode job nodes = .ok best →
    ∀ n ∈ nodes, Eligible job n → ¬ score job n < score job best
  least : ∀ best, selectNode job nodes = .ok best → score job best ≠ .nan ∧
    ∀ n ∈ nodes, Eligible job n → score job best ≤ score job n

/-- **Placement**, for every job and every fleet in every order: sound, complete,
and a true minimum. -/
theorem place_job_exact (job : Job) (nodes : List FleetNode) : PlacesBest job nodes := by
  rcases selectNode_eq job nodes with ⟨hnone, reason, hsel, hreason⟩ | ⟨best, hbest, hsel⟩
  · have hno : ¬ ∃ n ∈ nodes, Eligible job n := by
      rintro ⟨n, hn, he⟩
      have hmem := mem_ranked.mpr ⟨hn, he⟩
      rw [hnone] at hmem
      cases hmem
    have hplace := placeJob_error hsel
    have hnot : ∀ b, selectNode job nodes ≠ .ok b := fun b hb => by rw [hsel] at hb; cases hb
    refine ⟨iff_of_false (by rw [hplace]; simp) hno, iff_of_true ⟨reason, hplace⟩ hno, ?_,
      fun b hb => absurd hb (hnot b), fun b hb => absurd hb (hnot b),
      fun b hb => absurd hb (hnot b)⟩
    rw [hplace]
    simpa using hreason
  · obtain ⟨hmem, helig⟩ := mem_ranked.mp (List.argmin_mem hbest)
    have hplace := placeJob_ok hsel
    have hsome : ∃ n ∈ nodes, Eligible job n := ⟨best, hmem, helig⟩
    have hpick : ∀ b, selectNode job nodes = .ok b → b = best := by
      intro b hb
      rw [hsel] at hb
      cases hb
      rfl
    -- `min_by` compares numbers, so nothing it passes over is less
    have hmin : ∀ n ∈ nodes, Eligible job n → ¬ score job n < score job best := by
      intro n hn he
      have hlt := List.not_lt_of_mem_argmin (mem_ranked.mpr ⟨hn, he⟩) hbest
      rwa [he.rankedBy_eq.1, helig.rankedBy_eq.1] at hlt
    refine ⟨iff_of_true hplace hsome, iff_of_false (by rw [hplace]; simp) (not_not.mpr hsome), ?_,
      ?_, ?_, ?_⟩
    · rw [hplace]
      simp
    · intro b hb
      rw [hpick b hb]
      exact ⟨hmem, helig⟩
    · intro b hb
      rw [hpick b hb]
      exact hmin
    · intro b hb
      rw [hpick b hb]
      exact ⟨helig.rankedBy_eq.2, fun n hn he =>
        F64.le_of_not_lt helig.rankedBy_eq.2 he.rankedBy_eq.2 (hmin n hn he)⟩

/-! ## The pin -/

theorem placeJob_subject {job : Job} {nodes : List FleetNode} {s : String}
    (h : placeJob job nodes = .route s) : s = job.subject := by
  unfold placeJob at h
  split at h <;> cases h
  rfl

/-- **A placement never carries its pin**: two jobs that differ in nothing else
are routed to one subject. -/
theorem pin_never_carried (job : Job) (nodes : List FleetNode) (p q : Option String) {s t : String}
    (hs : placeJob { job with pinnedNode := p } nodes = .route s)
    (ht : placeJob { job with pinnedNode := q } nodes = .route t) : s = t := by
  rw [placeJob_subject hs, placeJob_subject ht]
  rfl

/-- A node with eight cores at load one. -/
def workerEx : NodeCapability :=
  { cores := 8, ramGb := 32, gpu := false, vramGb := 0, load1 := .fin 1, queueDepth := 0, ts := 0,
    noBuild := false, role := none }

/-- A build job pinned to one of two nodes, or to none. -/
def pinnedEx (pin : Option String) : Job :=
  { jobClass := .build, detail := none, pinnedNode := pin }

def twoNodesEx : List FleetNode := [("alpha", workerEx), ("beta", workerEx)]

theorem pinnedEx_shares : "wm.work.build" = (pinnedEx (some "alpha")).subject :=
  pin_never_carried (pinnedEx none) twoNodesEx none (some "alpha") (by decide +kernel)
    (by decide +kernel)

/-- Pinned to `alpha` or to `beta`, the job goes to the same subject. -/
theorem pins_share_a_subject : ¬ ∀ (job : Job) (nodes : List FleetNode) (p q : Option String)
    (s t : String), p ≠ q → placeJob { job with pinnedNode := p } nodes = .route s →
      placeJob { job with pinnedNode := q } nodes = .route t → s ≠ t := by
  intro h
  exact h (pinnedEx none) twoNodesEx (some "alpha") (some "beta") "wm.work.build" "wm.work.build"
    (by decide) (by decide +kernel) (by decide +kernel) rfl

end WmBusbridge.L7
