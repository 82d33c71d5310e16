import Mathlib.Data.Fintype.Card
import WmBusbridge.L5Fleet.NodeInv

/-!
# The loop guard over a fleet

A copy of a message is in a node's inbox, in its NATS→agorabus loop, or was
injected; `copies` lists the origins of all three. No node ever has two copies
of one origin, and no injected copy leaves again.

* `loop_guard`: no marked payload leaves or is buffered, every bus entry is
  handed to NATS at most once and by its own node, and every node injects it at
  most once.
-/
namespace WmBusbridge.L5
open L0 L1 L1.Str L2 L3 L4

variable {ι : Type}

/-! ## Copies at one node -/

def NPc.carried : NPc ι → List (ι × Nat)
  | .inject _ _ origin => [origin]
  | .idle => []

/-- The origins a node injected, or tried to. -/
def injectedBy (tr : List (NodeObs ι)) : List (ι × Nat) :=
  tr.filterMap fun
    | .injected origin _ => some origin
    | _ => none

@[simp] theorem injectedBy_append (a b : List (NodeObs ι)) :
    injectedBy (a ++ b) = injectedBy a ++ injectedBy b := List.filterMap_append

theorem injectedBy_shown (taken : List Nat) (os : List OutObs) :
    injectedBy (os.flatMap (shown taken : OutObs → List (NodeObs ι))) = [] :=
  filterMap_shown (fun _ => rfl) (fun _ _ _ => rfl) taken os

def copies (nd : Node ι) (tr : List (NodeObs ι)) : List (ι × Nat) :=
  nd.inbox.map Post.origin ++ (nd.n.carried ++ injectedBy tr)

section Step
variable {C : FleetConfig ι} {i : ι} {nd nd' : Node ι} {a : NodeAct} {os tr : List (NodeObs ι)}
  {posts : List (Post ι)}

/-- A node's own step makes no copy. -/
theorem copies_step (hst : NodeStep C i nd a nd' os posts) :
    (copies nd' (tr ++ os)).Subperm (copies nd tr) := by
  unfold copies
  -- the message moves from the loop to those injected, written or not
  have hmove : ∀ origin : ι × Nat, (nd.inbox.map Post.origin ++ (injectedBy tr ++ [origin])).Subperm
      (nd.inbox.map Post.origin ++ ([origin] ++ injectedBy tr)) := fun origin =>
    (List.Perm.append_left _ List.perm_append_comm).subperm
  cases hst with
  | client topic data sender =>
    have hnone : injectedBy (tr ++ [.client ⟨topic, data, sender, .client⟩]) = injectedBy tr := by
      simp [injectedBy]
    rw [hnone]
    exact .refl _
  | read k b ev out hf he ho =>
    rw [List.append_nil]
  | out a out os hr ho =>
    rw [injectedBy_append, injectedBy_shown, List.append_nil, pushAll_inbox, pushAll_n]
  | pass k p hn hp hw =>
    rw [List.append_nil]
    exact (((List.eraseIdx_sublist ..).map _).append_right _).subperm
  | take k p wrapped hn hp hw =>
    -- the message moves from the inbox to the loop
    obtain ⟨hk, hpk⟩ := List.getElem?_eq_some_iff.mp hp
    have hperm := (List.getElem_cons_eraseIdx_perm hk).map Post.origin
    rw [hpk, List.map_cons] at hperm
    rw [List.append_nil, hn]
    refine List.Perm.subperm ?_
    simp only [NPc.carried, List.nil_append, List.singleton_append]
    exact List.perm_middle.trans (hperm.append_right _)
  | inject topic wrapped origin hn =>
    rw [hn, injectedBy_append]
    exact hmove origin
  | unwritten topic wrapped origin hn =>
    rw [hn, injectedBy_append]
    exact hmove origin

/-- A step's messages carry the bus entries it handed over. -/
theorem posts_origin (hst : NodeStep C i nd a nd' os posts) :
    (posts.map Post.origin).Sublist ((handedBy os).map fun p => (i, p.1)) := by
  cases hst with
  | out a out os hr ho =>
    clear ho
    rw [handedBy_shown]
    induction os with
    | nil => exact .slnil
    | cons o os ih =>
      cases hh : o.handed with
      | none => simpa [post, handedOf, hh] using ih
      | some p =>
        obtain ⟨e, ok⟩ := p
        have hrest : handedOf (o :: os) = e :: handedOf os := by simp [handedOf, hh]
        rw [hrest, List.map_cons, List.map_cons]
        cases hp : post C i nd.taken o with
        | none =>
          rw [List.filterMap_cons_none hp]
          exact ih.cons _
        | some q =>
          have hq : q.origin = (i, (withIdx nd.taken e).1) := by
            unfold post at hp
            rw [hh] at hp
            cases ok with
            | false => cases hp
            | true =>
              obtain ⟨m, -, rfl⟩ := Option.map_eq_some_iff.mp hp
              rfl
          rw [List.filterMap_cons_some hp, List.map_cons, hq]
          exact ih.cons_cons _
  | _ => exact List.nil_sublist _

end Step

/-- Copies at a node after it received `posts`. -/
theorem copies_receive {nd : Node ι} {tr : List (NodeObs ι)} (posts : List (Post ι)) :
    (copies (nd.receive posts) tr).Perm (copies nd tr ++ posts.map Post.origin) := by
  unfold copies Node.receive
  rw [List.map_append, List.append_assoc, List.append_assoc]
  exact .append_left _ List.perm_append_comm

/-! ## The fleet -/

section Guard
variable [DecidableEq ι] {C : FleetConfig ι}

structure GuardInv (C : FleetConfig ι) (s : ι → Node ι) (tr : List (ι × NodeObs ι)) : Prop where
  nodes : ∀ i, NodeInv C i (s i) (shownBy i tr)
  once : ∀ j, (copies (s j) (shownBy j tr)).Nodup
  posted : ∀ j, ∀ o ∈ copies (s j) (shownBy j tr), Posted tr o

/-- Copies that arrive from one step are new and distinct. -/
theorem arrivals {s : ι → Node ι} {tr : List (ι × NodeObs ι)} {i : ι} {nd : Node ι} {a : NodeAct}
    {os : List (NodeObs ι)} {posts : List (Post ι)} (hI : GuardInv C s tr)
    (hst : NodeStep C i (s i) a nd os posts) :
    (posts.map Post.origin).Nodup ∧ ∀ o ∈ posts.map Post.origin,
      ¬ Posted tr o ∧ Posted (tr ++ os.map fun x => (i, x)) o := by
  have hsub := posts_origin hst
  have honce := handed_once (nodeInv_step (hI.nodes i) hst)
  rw [handedBy_append, List.map_append, List.nodup_append'] at honce
  obtain ⟨-, hnew, hdisj⟩ := honce
  constructor
  · refine List.Nodup.sublist hsub ?_
    have hmap : (handedBy os).map (fun p => (i, p.1)) =
        ((handedBy os).map Prod.fst).map fun k => (i, k) := by
      rw [List.map_map]
      rfl
    rw [hmap]
    exact hnew.map fun k k' h => (Prod.mk.inj h).2
  · intro o ho
    obtain ⟨p, hp, rfl⟩ := List.mem_map.mp (hsub.subset ho)
    have hk : p.1 ∈ (handedBy os).map Prod.fst := List.mem_map_of_mem hp
    constructor
    · exact fun hold => hdisj hold hk
    · unfold Posted
      rw [shownBy_append, shownBy_self, handedBy_append, List.map_append]
      exact List.mem_append_right _ hk

theorem guardInv_step {s s' : ι → Node ι} {tr os : List (ι × NodeObs ι)} {p : ι × NodeAct}
    (hI : GuardInv C s tr) (hst : fleetStep C s p = some (s', os)) : GuardInv C s' (tr ++ os) := by
  obtain ⟨i, a⟩ := p
  obtain ⟨nd, os', posts, hnd, rfl, hself, hother⟩ := fleetStep_cases hst
  obtain ⟨hnew, hfresh⟩ := arrivals hI hnd
  -- before the arrivals, every node has at most the copies it had
  have hlocal : ∀ j, ∃ m, s' j = m.receive posts ∧
      NodeInv C j m (shownBy j (tr ++ os'.map fun o => (i, o))) ∧
      (copies m (shownBy j (tr ++ os'.map fun o => (i, o)))).Subperm
        (copies (s j) (shownBy j tr)) := by
    intro j
    rw [shownBy_append]
    by_cases hj : j = i
    · subst hj
      rw [shownBy_self]
      exact ⟨nd, hself, nodeInv_step (hI.nodes j) hnd, copies_step hnd⟩
    · rw [shownBy_other (Ne.symm hj), List.append_nil]
      exact ⟨s j, hother j hj, hI.nodes j, .refl _⟩
  constructor
  · intro j
    obtain ⟨m, hm, hnode, -⟩ := hlocal j
    rw [hm]
    exact hnode.receive posts
  · intro j
    obtain ⟨m, hm, -, l, hl, hsub⟩ := hlocal j
    rw [hm, (copies_receive posts).nodup_iff, List.nodup_append']
    refine ⟨hl.nodup_iff.mp ((hI.once j).sublist hsub), hnew, fun o ho ho' => ?_⟩
    exact (hfresh o ho').1 (hI.posted j o (hsub.subset (hl.mem_iff.mpr ho)))
  · intro j o ho
    obtain ⟨m, hm, -, hsub⟩ := hlocal j
    rw [hm, (copies_receive posts).mem_iff] at ho
    rcases List.mem_append.mp ho with ho | ho
    · exact (hI.posted j o (hsub.subset ho)).mono
    · exact (hfresh o ho).2

theorem guardInv_inductive (C : FleetConfig ι) :
    (fleet C).Inductive Mach.free (fun _ s tr => GuardInv C s tr) where
  init := by
    intro s h0
    have hstart : ∀ i, ∃ connected now, s i = .start connected now := h0
    refine ⟨(nodeInv_inductive C).init s h0, fun j => ?_, fun j o ho => ?_⟩
    · obtain ⟨connected, now, hs⟩ := hstart j
      rw [hs]
      exact List.nodup_nil
    · obtain ⟨connected, now, hs⟩ := hstart j
      rw [hs] at ho
      cases ho
  step as s tr p s' os hI _ hst := guardInv_step hI hst

/-! ## The guard -/

/-- The nodes at which `o` was injected. -/
def injectorsOf (o : ι × Nat) (tr : List (ι × NodeObs ι)) : List ι :=
  tr.filterMap fun
    | (j, .injected o' _) => if o' = o then some j else none
    | _ => none

/-- `bounded`: one bus entry is injected at most once per node. -/
structure LoopGuarded (C : FleetConfig ι) (s : ι → Node ι) (tr : List (ι × NodeObs ι)) : Prop where
  unmarked : ∀ i k e, (k, e) ∈ handedBy (shownBy i tr) → ∀ v, C.serde.fromSlice e.payload = some v →
    BridgedPayload.isBridged v = false
  unmarked_buffered : ∀ i, ∀ e ∈ (s i).out.hub.live.buffer, ∀ v,
    C.serde.fromSlice e.payload = some v → BridgedPayload.isBridged v = false
  handed_local : ∀ i k e, (k, e) ∈ handedBy (shownBy i tr) →
    ∃ ev, (s i).bus[k]? = some ev ∧ (∀ o, ev.src ≠ .bridge o) ∧ ev.topic = e.topic ∧
      C.serde.toVec ev.data = some e.payload
  handed_once : ∀ i, ((handedBy (shownBy i tr)).map Prod.fst).Nodup
  injected_once : ∀ j, (injectedBy (shownBy j tr)).Nodup
  injected_posted : ∀ j, ∀ o ∈ injectedBy (shownBy j tr), Posted tr o
  bounded : ∀ [Fintype ι] (o : ι × Nat), (injectorsOf o tr).length ≤ Fintype.card ι

theorem injectorsOf_append (o : ι × Nat) (a b : List (ι × NodeObs ι)) :
    injectorsOf o (a ++ b) = injectorsOf o a ++ injectorsOf o b := List.filterMap_append

theorem count_injectors (o : ι × Nat) (j : ι) (tr : List (ι × NodeObs ι)) :
    (injectorsOf o tr).count j = (injectedBy (shownBy j tr)).count o := by
  induction tr with
  | nil => rfl
  | cons p tr ih =>
    obtain ⟨i, x⟩ := p
    have hl : injectorsOf o ((i, x) :: tr) = injectorsOf o [(i, x)] ++ injectorsOf o tr :=
      injectorsOf_append o [(i, x)] tr
    have hr : injectedBy (shownBy j ((i, x) :: tr)) =
        injectedBy (shownBy j [(i, x)]) ++ injectedBy (shownBy j tr) := by
      rw [← injectedBy_append, ← shownBy_append]
      rfl
    rw [hl, hr, List.count_append, List.count_append, ih]
    congr 1
    cases x with
    | injected o' ok =>
      by_cases ho : o' = o <;> by_cases hi : i = j <;>
        simp [injectorsOf, shownBy, injectedBy, ho, hi]
    | _ => by_cases hi : i = j <;> simp [injectorsOf, shownBy, injectedBy, hi]

/-- **The loop guard**, for any number of nodes, any allow lists, and every
interleaving, delivery order and loss. -/
theorem loop_guard (C : FleetConfig ι) {as : List (ι × NodeAct)} {s : ι → Node ι}
    {tr : List (ι × NodeObs ι)} (hr : (fleet C).Reaches Mach.free as s tr) :
    LoopGuarded C s tr := by
  have hI := (guardInv_inductive C).reaches hr
  have hinj : ∀ j, (injectedBy (shownBy j tr)).Sublist (copies (s j) (shownBy j tr)) := by
    intro j
    unfold copies
    rw [← List.append_assoc]
    exact List.sublist_append_right _ _
  have honce : ∀ j, (injectedBy (shownBy j tr)).Nodup := fun j => (hI.once j).sublist (hinj j)
  refine ⟨?_, ?_, ?_, fun i => handed_once (hI.nodes i), honce, ?_, ?_⟩
  · intro i k e he v hv
    obtain ⟨ev, -, -, -, hp⟩ := handed_left (hI.nodes i) he
    exact a2nPayload_unmarked hp hv
  · intro i e he v hv
    have hmem : e ∈ ledger (s i).out (outOf (shownBy i tr)) := by simp [ledger, he]
    obtain ⟨data, -, hp⟩ := (hI.nodes i).out.source e hmem
    exact a2nPayload_unmarked hp hv
  · intro i k e he
    obtain ⟨ev, hev, ht, -, hp⟩ := handed_left (hI.nodes i) he
    obtain ⟨hm, -, hb⟩ := a2nPayload_some.mp hp
    refine ⟨ev, hev, fun o ho => ?_, ht, hb⟩
    rw [(hI.nodes i).injected_marked ev (List.mem_of_getElem? hev) o ho] at hm
    cases hm
  · exact fun j o ho => hI.posted j o ((hinj j).subset ho)
  · intro _ o
    refine List.Nodup.length_le_card (List.nodup_iff_count_le_one.mpr fun j => ?_)
    rw [count_injectors]
    exact List.nodup_iff_count_le_one.mp (honce j) o

end Guard

/-- The members of a small fleet. -/
inductive Member where
  | nomad
  | forge
  deriving DecidableEq

def fleetEx : FleetConfig Member where
  cfg _ := cfgEx
  allow _ := allowList ""
  serde := .only .null [0x6E, 0x75, 0x6C, 0x6C]
  nats := .subjects

def startEx : Member → Node Member := fun _ => .start true 0

/-- An event crosses from `nomad` and is injected at both nodes; the bridge of `forge`
reads its own injection. -/
def crossEx : List (Member × NodeAct) :=
  [(.nomad, .client "wm.fleet.presence" .null "session"), (.nomad, .read 0), (.nomad, .out .offer),
   (.nomad, .out (.direct true)), (.forge, .take 0), (.forge, .inject true), (.nomad, .take 0),
   (.nomad, .inject true), (.forge, .read 0)]

def crossTraceEx : List (Member × NodeObs Member) :=
  let e : BufferedEvent := ⟨"wm.fleet.presence", [0x6E, 0x75, 0x6C, 0x6C], 0⟩
  [(.nomad, .client ⟨"wm.fleet.presence", .null, "session", .client⟩),
   (.nomad, .out (.hub (.refused e))), (.nomad, .out (.direct e true)), (.nomad, .handed 0 e true),
   (.forge, .injected (.nomad, 0) true), (.nomad, .injected (.nomad, 0) true)]

theorem crossEx_guarded : ∃ s, LoopGuarded fleetEx s crossTraceEx := by
  obtain ⟨s, hs⟩ : ∃ s, (fleet fleetEx).exec Mach.free startEx crossEx = some (s, crossTraceEx) :=
    ⟨_, rfl⟩
  exact ⟨s, loop_guard fleetEx ⟨startEx, fun _ => ⟨true, 0, rfl⟩, Mach.run_of_exec hs⟩⟩

end WmBusbridge.L5
