import WmBusbridge.L6Status.Sample
import WmBusbridge.L7Dispatch.Placement

/-!
# What a placement depends on (`src/dispatch.rs:334-417`)

The fleet is a hash map, so its order is any order. Its records come from the nodes'
environments, over the wire.

* `placement_order_free`: only the candidates matter, and not their order; the picks of
  two orders have the same score.
* `builds_kept_off`: a node whose environment keeps builds off is never picked for one,
  and whether it is in the fleet makes no difference to builds.
-/
namespace WmBusbridge.L7
open L1 L6

section Decision
variable {job : Job} {nodes nodes' : List FleetNode}

/-- Why a job is not placed, from the candidates there are.
mirrors src/dispatch.rs:374-394 -/
def refusal (job : Job) (candidates : List FleetNode) : String :=
  if candidates = [] then
    match job.pinnedNode with
    | some pin => "pinned node '" ++ pin ++ "' is not available"
    | none => "no available nodes in fleet"
  else "no GPU-capable node available for infer job"

/-- The decision in one formula. -/
theorem placeJob_eq (job : Job) (nodes : List FleetNode) : placeJob job nodes =
    if ranked job nodes = [] then .unplaceable (refusal job (nodes.filter (isCandidate job)))
    else .route job.subject := by
  by_cases hr : ranked job nodes = []
  · rw [if_pos hr]
    apply placeJob_error
    by_cases hc : nodes.filter (isCandidate job) = []
    · rw [refusal, if_pos hc]
      cases hp : job.pinnedNode with
      | none => simp [selectNode, hc, hp]; rfl
      | some pin => simp [selectNode, hc, hp]; rfl
    · -- there are candidates, so the job asks for a GPU that none has
      have hi : job.jobClass = .infer := by
        by_contra hi
        rw [ranked, if_neg hi] at hr
        exact hc hr
      have hg : (nodes.filter (isCandidate job)).filter (fun n => n.2.hasGpu) = [] := by
        rwa [ranked, if_pos hi] at hr
      rw [refusal, if_neg hc]
      simp only [selectNode, hc, hi, hg]
      rfl
  · rw [if_neg hr]
    rcases selectNode_eq job nodes with ⟨hnone, -⟩ | ⟨best, -, hsel⟩
    · exact absurd hnone hr
    · exact placeJob_ok hsel

theorem ranked_perm (h : (nodes.filter (isCandidate job)).Perm (nodes'.filter (isCandidate job))) :
    (ranked job nodes).Perm (ranked job nodes') := by
  unfold ranked
  split
  · exact h.filter _
  · exact h

/-- A pick is eligible, and no eligible node ranks below it. -/
theorem selectNode_ok {best : FleetNode} (h : selectNode job nodes = .ok best) :
    best ∈ ranked job nodes ∧ ∀ n ∈ ranked job nodes, ¬ score job n < score job best := by
  rcases selectNode_eq job nodes with ⟨-, reason, herr, -⟩ | ⟨b, hb, hsel⟩
  · rw [h] at herr
    cases herr
  · rw [h] at hsel
    cases hsel
    have hmem := List.argmin_mem hb
    refine ⟨hmem, fun n hn => ?_⟩
    have hlt := List.not_lt_of_mem_argmin hn hb
    rwa [(mem_ranked.mp hn).2.rankedBy_eq.1, (mem_ranked.mp hmem).2.rankedBy_eq.1] at hlt

theorem eq_of_not_lt {a b : F64} (ha : a ≠ .nan) (hb : b ≠ .nan) (hab : ¬ a < b) (hba : ¬ b < a) :
    a = b := by
  rcases F64.le_iff.mp (F64.le_of_not_lt ha hb hba) with h | h
  · exact h
  · exact absurd h hab

/-- `decision`: the subject, or the same reason. -/
structure SamePlacement (job : Job) (nodes nodes' : List FleetNode) : Prop where
  decision : placeJob job nodes = placeJob job nodes'
  score : ∀ best best', selectNode job nodes = .ok best → selectNode job nodes' = .ok best' →
    score job best = score job best'

/-- **Only the candidates matter**: two fleets with the same candidates, in whatever
order and among whatever other nodes, get the same decision, and picks of equal score. -/
theorem placement_order_free
    (h : (nodes.filter (isCandidate job)).Perm (nodes'.filter (isCandidate job))) :
    SamePlacement job nodes nodes' := by
  have hranked := ranked_perm h
  constructor
  · have hempty : ranked job nodes = [] ↔ ranked job nodes' = [] :=
      ⟨fun hr => (hr ▸ hranked).nil_eq.symm, fun hr => (hr ▸ hranked.symm).nil_eq.symm⟩
    have hrefusal : refusal job (nodes.filter (isCandidate job)) =
        refusal job (nodes'.filter (isCandidate job)) := by
      by_cases hc : nodes.filter (isCandidate job) = []
      · rw [hc] at h ⊢
        rw [← h.nil_eq]
      · have hc' : nodes'.filter (isCandidate job) ≠ [] := fun hc' =>
          hc (hc' ▸ h.symm).nil_eq.symm
        rw [refusal, refusal, if_neg hc, if_neg hc']
    rw [placeJob_eq, placeJob_eq, hrefusal]
    exact if_congr hempty rfl rfl
  · intro best best' hb hb'
    obtain ⟨hmem, hleast⟩ := selectNode_ok hb
    obtain ⟨hmem', hleast'⟩ := selectNode_ok hb'
    exact eq_of_not_lt (mem_ranked.mp hmem).2.rankedBy_eq.2 (mem_ranked.mp hmem').2.rankedBy_eq.2
      (hleast' best (hranked.mem_iff.mp hmem)) (hleast best' (hranked.mem_iff.mpr hmem'))

end Decision

/-- The other order. -/
theorem twoNodesEx_order_free : SamePlacement (pinnedEx none) twoNodesEx twoNodesEx.reverse :=
  placement_order_free ((List.reverse_perm twoNodesEx).symm.filter _)

/-! ## Builds and the local model -/

/-- An entry of the fleet map as a coordinator reads it: the name of a node and what it
last said of itself. -/
def FromHost (T : JsonText) (h : Host) (n : FleetNode) : Prop :=
  n.1 = h.localNodeName ∧
    ∃ queueDepth b, h.heartbeatPayload T queueDepth = some b ∧
      NodeCapability.fromSlice T b = some n.2

section Builds
variable {T : JsonText} {h : Host} {n : FleetNode} {job : Job}

/-- The mark survives the wire. -/
theorem FromHost.eligible (hn : FromHost T h n) : n.2.isBuildEligible = true ↔ ¬ h.Marked := by
  obtain ⟨-, queueDepth, b, hb, hd⟩ := hn
  have hread := (serialize_read_back hb).read
  rw [hd] at hread
  split at hread
  · rw [← isBuildEligible_sample h queueDepth, Option.some.inj hread]
    rfl
  · cases hread

theorem isCandidate_marked (hb : job.jobClass = .build ∨ job.jobClass = .test)
    (hn : FromHost T h n) (hm : h.Marked) : isCandidate job n = false := by
  rw [← Bool.not_eq_true]
  intro hc
  exact hn.eligible.mp ((isCandidate_iff.mp hc).2.1 hb) hm

/-- A placement looks at nothing but the candidates. -/
theorem selectNode_congr {nodes nodes' : List FleetNode}
    (hf : nodes.filter (isCandidate job) = nodes'.filter (isCandidate job)) :
    selectNode job nodes = selectNode job nodes' := by
  simp only [selectNode, hf]

/-- `job` leaves the nodes that are marked alone. -/
structure KeptOff (T : JsonText) (job : Job) (nodes : List FleetNode) : Prop where
  never : ∀ n h, selectNode job nodes = .ok n → FromHost T h n → ¬ h.Marked
  alone : (∀ n ∈ nodes, ∃ h, FromHost T h n ∧ h.Marked) →
    placeJob job nodes = .unplaceable (refusal job [])
  apart : ∀ xs n ys h, nodes = xs ++ n :: ys → FromHost T h n → h.Marked →
    selectNode job nodes = selectNode job (xs ++ ys)

/-- **Builds and tests stay off a node that serves the local model**, from its
environment over the wire to the placement: it is never picked, alone it leaves the job
unplaced, and its presence changes nothing. -/
theorem builds_kept_off (T : JsonText) (nodes : List FleetNode)
    (hb : job.jobClass = .build ∨ job.jobClass = .test) : KeptOff T job nodes := by
  refine ⟨fun n h hsel hn => ?_, fun hall => ?_, fun xs n ys h hsplit hn hm => ?_⟩
  · have helig := (mem_ranked.mp (selectNode_ok hsel).1).2
    exact hn.eligible.mp (helig.build hb)
  · have hnone : nodes.filter (isCandidate job) = [] := by
      refine List.filter_eq_nil_iff.mpr fun n hn => ?_
      obtain ⟨h, hfrom, hm⟩ := hall n hn
      rw [isCandidate_marked hb hfrom hm]
      exact Bool.false_ne_true
    have hranked : ranked job nodes = [] := by
      unfold ranked
      rw [hnone]
      split <;> rfl
    rw [placeJob_eq, if_pos hranked, hnone]
  · apply selectNode_congr
    rw [hsplit, List.filter_append, List.filter_append,
      List.filter_cons_of_neg (by rw [isCandidate_marked hb hn hm]; exact Bool.false_ne_true)]

end Builds

/-- The node that serves the model is marked, and over the wire it is in the fleet. -/
theorem llmEx_fromHost :
    FromHost textEx llmEx ("llm", (llmEx.sample 0).cap) ∧ llmEx.Marked := by
  have hread := (serialize_read_back
    (JsonText.only_toVec (llmEx.sample 0).serialize llmBytesEx)).read
  have hfin : F64.isFinite (llmEx.sample 0).bits = true := by decide +kernel
  rw [if_pos hfin] at hread
  exact ⟨⟨by decide +kernel, 0, llmBytesEx, JsonText.only_toVec _ _, hread⟩,
    .inl ⟨"1", rfl, .inl (by decide +kernel)⟩⟩

/-- It keeps builds off when it is next to the workers. -/
theorem builds_kept_off_llm :
    KeptOff textEx (pinnedEx none) [("alpha", workerEx), ("llm", (llmEx.sample 0).cap)] :=
  builds_kept_off textEx _ (.inl rfl)

end WmBusbridge.L7
