import WmBusbridge.L1Encoding.Subject
import WmBusbridge.L4Bridge.Outbound

/-!
# A fleet of bridges

Each node has a local bus, clients that publish on it, and one bridge: the
outbound half, and the NATS→agorabus loop (`src/bridge.rs:288-325`). The two
brokers are outside the repository and appear as what they deliver:

* a local bus appends every publish and feeds the bridge's subscriber the events
  whose topic starts with `wm.`, each at most once, in any order;
* NATS puts the message it makes of a publish, if it makes one, in the inbox of
  every node, the publisher's own included; a node takes from its inbox in any
  order, or never.

`Src`, the `origin` of a message and `taken` are ghosts: no step reads them.

* `nodeStep_cases`: what a step of one node can do.
* `node_inductive`: an invariant of each node by itself holds in every run.
* `fleet_simulates`: each node's outbound half moves as `outMach` does.
-/
namespace WmBusbridge.L5
open L0 L1 L1.Str L3 L4

/-! ## Nodes -/

/-- Who put an event on a local bus. A bridge injects a copy of the entry
`origin.2` of the bus of `origin.1`. -/
inductive Src (ι : Type) where
  | client
  | watcher
  | bridge (origin : ι × Nat)
  deriving DecidableEq

/-- One entry of a local bus; `sender` is the field `from`. -/
structure BusEvent (ι : Type) where
  topic : String
  data : Value
  sender : String
  src : Src ι
  deriving DecidableEq

/-- A NATS message on its way to one node. -/
structure Post (ι : Type) where
  subject : String
  payload : Bytes
  origin : ι × Nat
  deriving DecidableEq

/-- Where the NATS→agorabus loop stands. -/
inductive NPc (ι : Type) where
  /-- waiting for `sub.next` -/
  | idle
  /-- waiting for the publisher's lock; about to inject -/
  | inject (topic : String) (wrapped : Value) (origin : ι × Nat)
  deriving DecidableEq

/-- `feed`: the bus entries the bridge's subscriber has still to be given.
`taken`: those it was given, in the order of `out.reads`. -/
structure Node (ι : Type) where
  out : Outbound
  n : NPc ι
  bus : List (BusEvent ι)
  feed : List Nat
  taken : List Nat
  inbox : List (Post ι)
  deriving DecidableEq

variable {ι : Type}

/-- A publish on the local bus. -/
def Node.push (nd : Node ι) (ev : BusEvent ι) : Node ι :=
  { nd with
    bus := nd.bus ++ [ev]
    feed := if startsWith ev.topic "wm." then nd.feed ++ [nd.bus.length] else nd.feed }

def Node.pushAll (nd : Node ι) (evs : List (BusEvent ι)) : Node ι := evs.foldl Node.push nd

/-- NATS messages arrive. -/
def Node.receive (nd : Node ι) (posts : List (Post ι)) : Node ι :=
  { nd with inbox := nd.inbox ++ posts }

def Node.start (connected : Bool) (now : UInt64) : Node ι where
  out := .start connected now
  n := .idle
  bus := []
  feed := []
  taken := []
  inbox := []

/-- What each bridge of the fleet is started with. -/
structure FleetConfig (ι : Type) where
  cfg : ι → HubWatcherConfig
  allow : ι → List String
  serde : SerdeJson
  nats : Nats

def FleetConfig.out (C : FleetConfig ι) (i : ι) : OutConfig where
  cfg := C.cfg i
  allow := C.allow i
  serde := C.serde

/-- `read k` and `take k` give a loop the `k`-th entry of `feed` or `inbox`. -/
inductive NodeAct where
  | client (topic : String) (data : Value) (sender : String)
  | read (k : Nat)
  | out (a : OutAct)
  | take (k : Nat)
  | inject (ok : Bool)
  deriving DecidableEq

inductive NodeObs (ι : Type) where
  | client (ev : BusEvent ι)
  | out (o : OutObs)
  /-- the bus entry `k` was handed to NATS as `e` -/
  | handed (k : Nat) (e : BufferedEvent) (ok : Bool)
  /-- `origin` was injected, and whether it was written to the bus -/
  | injected (origin : ι × Nat) (ok : Bool)
  deriving DecidableEq

/-! ## Steps -/

/-- An announcement that was written is on the bus. -/
def notice : OutObs → Option (BusEvent ι)
  | .hub (.announced topic data true) => some
    { topic, data, sender := "wm-busbridge-hub-watcher", src := .watcher }
  | _ => none

/-- What a step of the outbound half shows, with the bus entry an event handed
to NATS came from. -/
def shown (taken : List Nat) (o : OutObs) : List (NodeObs ι) :=
  .out o :: match o.handed with
    | some (e, ok) => [.handed (taken.getD e.seq 0) e ok]
    | none => []

/-- What NATS makes of a successful publish. -/
def post (C : FleetConfig ι) (i : ι) (taken : List Nat) (o : OutObs) : Option (Post ι) :=
  match o.handed with
  | some (e, true) =>
    (C.nats.carry e.topic e.payload).map fun m => ⟨m.1, m.2, (i, taken.getD e.seq 0)⟩
  | _ => none

/-- mirrors src/bridge.rs:237-274,299-322 -/
def nodeStep (C : FleetConfig ι) (i : ι) (nd : Node ι) :
    NodeAct → Option (Node ι × List (NodeObs ι) × List (Post ι))
  | .client topic data sender =>
    let ev := { topic, data, sender, src := .client }
    some (nd.push ev, [.client ev], [])
  | .read k =>
    match nd.feed[k]? with
    | none => none
    | some b =>
      match nd.bus[b]? with
      | none => none
      | some ev =>
        match outStep (C.out i) nd.out (.read ev.topic ev.data) with
        | none => none
        | some (out, _) =>
          some ({ nd with out := out, feed := nd.feed.eraseIdx k, taken := nd.taken ++ [b] },
            [], [])
  | .out (.read _ _) => none
  | .out a =>
    match outStep (C.out i) nd.out a with
    | none => none
    | some (out, os) =>
      some ({ nd with out := out }.pushAll (os.filterMap notice), os.flatMap (shown nd.taken),
        os.filterMap (post C i nd.taken))
  | .take k =>
    match nd.n, nd.inbox[k]? with
    | .idle, some p =>
      let n := match n2aEnvelope C.serde (C.allow i) p.subject p.payload with
        | none => .idle
        | some wrapped => .inject p.subject wrapped p.origin
      some ({ nd with n := n, inbox := nd.inbox.eraseIdx k }, [], [])
    | _, _ => none
  | .inject ok =>
    match nd.n with
    | .inject topic wrapped origin =>
      let ev := { topic, data := wrapped, sender := "wm-busbridge-pub", src := .bridge origin }
      let nd := { nd with n := .idle }
      some (if ok then nd.push ev else nd, [.injected origin ok], [])
    | .idle => none

section Fleet
variable [DecidableEq ι]

def fleetStep (C : FleetConfig ι) (s : ι → Node ι) :
    ι × NodeAct → Option ((ι → Node ι) × List (ι × NodeObs ι))
  | (i, a) =>
    match nodeStep C i (s i) a with
    | none => none
    | some (nd, os, posts) =>
      some (fun j => (if j = i then nd else s j).receive posts, os.map fun o => (i, o))

/-- Any number of nodes, each with its own bridge, clients and local bus. -/
def fleet (C : FleetConfig ι) : Mach (ι → Node ι) (ι × NodeAct) (ι × NodeObs ι) where
  init s := ∀ i, ∃ connected now, s i = .start connected now
  step := fleetStep C

end Fleet

/-! ## What a step can do -/

inductive NodeStep (C : FleetConfig ι) (i : ι) (nd : Node ι) :
    NodeAct → Node ι → List (NodeObs ι) → List (Post ι) → Prop where
  | client (topic : String) (data : Value) (sender : String) :
      NodeStep C i nd (.client topic data sender) (nd.push ⟨topic, data, sender, .client⟩)
        [.client ⟨topic, data, sender, .client⟩] []
  | read (k b : Nat) (ev : BusEvent ι) (out : Outbound) (hf : nd.feed[k]? = some b)
      (he : nd.bus[b]? = some ev) (ho : OutStep (C.out i) nd.out (.read ev.topic ev.data) out []) :
      NodeStep C i nd (.read k)
        { nd with out := out, feed := nd.feed.eraseIdx k, taken := nd.taken ++ [b] } [] []
  | out (a : OutAct) (out : Outbound) (os : List OutObs) (hr : out.reads = nd.out.reads)
      (ho : OutStep (C.out i) nd.out a out os) :
      NodeStep C i nd (.out a) ({ nd with out := out }.pushAll (os.filterMap notice))
        (os.flatMap (shown nd.taken)) (os.filterMap (post C i nd.taken))
  | pass (k : Nat) (p : Post ι) (hn : nd.n = .idle) (hp : nd.inbox[k]? = some p)
      (hw : n2aEnvelope C.serde (C.allow i) p.subject p.payload = none) :
      NodeStep C i nd (.take k) { nd with inbox := nd.inbox.eraseIdx k } [] []
  | take (k : Nat) (p : Post ι) (wrapped : Value) (hn : nd.n = .idle) (hp : nd.inbox[k]? = some p)
      (hw : n2aEnvelope C.serde (C.allow i) p.subject p.payload = some wrapped) :
      NodeStep C i nd (.take k)
        { nd with n := .inject p.subject wrapped p.origin, inbox := nd.inbox.eraseIdx k } [] []
  | inject (topic : String) (wrapped : Value) (origin : ι × Nat)
      (hn : nd.n = .inject topic wrapped origin) :
      NodeStep C i nd (.inject true)
        ({ nd with n := .idle }.push ⟨topic, wrapped, "wm-busbridge-pub", .bridge origin⟩)
        [.injected origin true] []
  | unwritten (topic : String) (wrapped : Value) (origin : ι × Nat)
      (hn : nd.n = .inject topic wrapped origin) :
      NodeStep C i nd (.inject false) { nd with n := .idle } [.injected origin false] []

/-- A step of the loop's own, or of the watcher. -/
theorem nodeStep_own (C : FleetConfig ι) (i : ι) (nd : Node ι) {a : OutAct}
    (ha : ∀ topic data, a ≠ .read topic data) :
    nodeStep C i nd (.out a) = match outStep (C.out i) nd.out a with
      | none => none
      | some (out, os) =>
        some ({ nd with out := out }.pushAll (os.filterMap notice), os.flatMap (shown nd.taken),
          os.filterMap (post C i nd.taken)) := by
  cases a with
  | read topic data => exact absurd rfl (ha topic data)
  | _ => rfl

theorem nodeStep_out {C : FleetConfig ι} {i : ι} {nd nd' : Node ι} {a : OutAct}
    {os : List (NodeObs ι)} {posts : List (Post ι)}
    (hst : nodeStep C i nd (.out a) = some (nd', os, posts)) :
    NodeStep C i nd (.out a) nd' os posts := by
  have hne : ∀ topic data, a ≠ .read topic data := by
    rintro topic data rfl
    cases hst
  rw [nodeStep_own C i nd hne] at hst
  split at hst
  · cases hst
  · rename_i out os' ho
    cases hst
    have hcase := outStep_cases ho
    refine .out a out os' ?_ hcase
    cases hcase with
    | skip topic data ha hp => exact absurd rfl (hne topic data)
    | read topic data payload ha hp => exact absurd rfl (hne topic data)
    | _ => rfl

theorem nodeStep_cases {C : FleetConfig ι} {i : ι} {nd nd' : Node ι} {a : NodeAct}
    {os : List (NodeObs ι)} {posts : List (Post ι)}
    (hst : nodeStep C i nd a = some (nd', os, posts)) : NodeStep C i nd a nd' os posts := by
  cases a with
  | client topic data sender =>
    cases hst
    exact .client topic data sender
  | read k =>
    simp only [nodeStep] at hst
    split at hst
    · cases hst
    · rename_i b hf
      split at hst
      · cases hst
      · rename_i ev he
        split at hst
        · cases hst
        · rename_i out os' ho
          cases hst
          have hcase := outStep_cases ho
          have hos : os' = [] := by cases hcase <;> rfl
          subst hos
          exact .read k b ev out hf he hcase
  | out a => exact nodeStep_out hst
  | take k =>
    simp only [nodeStep] at hst
    split at hst
    · rename_i p hn hp
      cases hw : n2aEnvelope C.serde (C.allow i) p.subject p.payload with
      | none =>
        simp only [hw] at hst
        cases hst
        rw [← hn]
        exact .pass k p hn hp hw
      | some wrapped =>
        simp only [hw] at hst
        cases hst
        exact .take k p wrapped hn hp hw
    · cases hst
  | inject ok =>
    simp only [nodeStep] at hst
    split at hst
    · rename_i topic wrapped origin hn
      cases ok with
      | true =>
        cases hst
        exact .inject topic wrapped origin hn
      | false =>
        cases hst
        exact .unwritten topic wrapped origin hn
    · cases hst

/-! ## The outbound half -/

/-- What the outbound half of a node showed. -/
def NodeObs.asOut : NodeObs ι → Option OutObs
  | .out o => some o
  | _ => none

def outOf (tr : List (NodeObs ι)) : List OutObs := tr.filterMap NodeObs.asOut

@[simp] theorem outOf_append (a b : List (NodeObs ι)) : outOf (a ++ b) = outOf a ++ outOf b :=
  List.filterMap_append

/-- A projection that sees neither kind of outbound observation sees nothing of
an outbound step. -/
theorem filterMap_shown {β : Type} {f : NodeObs ι → Option β} (hout : ∀ o, f (.out o) = none)
    (hhanded : ∀ k e ok, f (.handed k e ok) = none) (taken : List Nat) (os : List OutObs) :
    (os.flatMap (shown taken)).filterMap f = [] := by
  refine List.filterMap_eq_nil_iff.mpr fun o ho => ?_
  obtain ⟨o', -, hmem⟩ := List.mem_flatMap.mp ho
  rcases List.mem_cons.mp hmem with rfl | hmem
  · exact hout o'
  · split at hmem
    · rw [List.mem_singleton] at hmem
      rw [hmem]
      exact hhanded ..
    · cases hmem

theorem outOf_shown (taken : List Nat) (os : List OutObs) :
    outOf (os.flatMap (shown taken : OutObs → List (NodeObs ι))) = os := by
  induction os with
  | nil => rfl
  | cons o os ih =>
    rw [List.flatMap_cons, outOf_append, ih]
    unfold shown outOf
    cases o.handed <;> rfl

/-- What a publish on the bus leaves alone, several leave alone. -/
theorem pushAll_frame {β : Type} {f : Node ι → β} (hf : ∀ nd ev, f (nd.push ev) = f nd)
    (evs : List (BusEvent ι)) (nd : Node ι) : f (nd.pushAll evs) = f nd := by
  unfold Node.pushAll
  induction evs generalizing nd with
  | nil => rfl
  | cons ev evs ih => exact (ih (nd.push ev)).trans (hf nd ev)

@[simp] theorem pushAll_out (evs : List (BusEvent ι)) (nd : Node ι) :
    (nd.pushAll evs).out = nd.out := pushAll_frame (fun _ _ => rfl) evs nd

@[simp] theorem pushAll_inbox (evs : List (BusEvent ι)) (nd : Node ι) :
    (nd.pushAll evs).inbox = nd.inbox := pushAll_frame (fun _ _ => rfl) evs nd

@[simp] theorem pushAll_n (evs : List (BusEvent ι)) (nd : Node ι) :
    (nd.pushAll evs).n = nd.n := pushAll_frame (fun _ _ => rfl) evs nd

/-- A step of a node is a step of its outbound half or leaves it alone. -/
theorem nodeStep_out_half {i : ι} {nd nd' : Node ι} {a : NodeAct} {os : List (NodeObs ι)}
    {posts : List (Post ι)} (hst : NodeStep C i nd a nd' os posts) :
    nd'.out = nd.out ∧ outOf os = [] ∨ ∃ b, OutStep (C.out i) nd.out b nd'.out (outOf os) := by
  cases hst with
  | read k b ev out hf he ho => exact .inr ⟨_, ho⟩
  | out a out os hr ho =>
    rw [outOf_shown, pushAll_out]
    exact .inr ⟨_, ho⟩
  | _ => exact .inl ⟨rfl, rfl⟩

/-! ## One node of a run -/

section Runs
variable [DecidableEq ι] {C : FleetConfig ι}

/-- What node `i` showed. -/
def shownBy (i : ι) (tr : List (ι × NodeObs ι)) : List (NodeObs ι) :=
  tr.filterMap fun p => if p.1 = i then some p.2 else none

@[simp] theorem shownBy_append (i : ι) (a b : List (ι × NodeObs ι)) :
    shownBy i (a ++ b) = shownBy i a ++ shownBy i b := List.filterMap_append

theorem shownBy_self (i : ι) (os : List (NodeObs ι)) : shownBy i (os.map fun o => (i, o)) = os := by
  simp [shownBy, List.filterMap_map]

theorem shownBy_other {i j : ι} (h : i ≠ j) (os : List (NodeObs ι)) :
    shownBy j (os.map fun o => (i, o)) = [] := by
  simp [shownBy, List.filterMap_map, h]

/-- Every step meets the guard of the node that takes it. -/
def onNodes (H : ι → Node ι → NodeAct → Prop) : (ι → Node ι) → ι × NodeAct → Prop :=
  fun s p => H p.1 (s p.1) p.2

instance (H : ι → Node ι → NodeAct → Prop) [∀ i nd a, Decidable (H i nd a)] (s : ι → Node ι)
    (p : ι × NodeAct) : Decidable (onNodes H s p) :=
  inferInstanceAs (Decidable (H p.1 (s p.1) p.2))

theorem fleetStep_cases {s s' : ι → Node ι} {i : ι} {a : NodeAct} {os : List (ι × NodeObs ι)}
    (hst : fleetStep C s (i, a) = some (s', os)) :
    ∃ nd os' posts, NodeStep C i (s i) a nd os' posts ∧ os = os'.map (fun o => (i, o)) ∧
      s' i = nd.receive posts ∧ ∀ j, j ≠ i → s' j = (s j).receive posts := by
  simp only [fleetStep] at hst
  split at hst
  · cases hst
  · rename_i nd os' posts hnd
    cases hst
    exact ⟨nd, os', posts, nodeStep_cases hnd, rfl, by simp, fun j hj => by simp [hj]⟩

/-- An invariant of a node and what it showed, kept by its own steps and by
arrivals, holds of every node in every run. -/
theorem node_inductive {H : ι → Node ι → NodeAct → Prop} {I : ι → Node ι → List (NodeObs ι) → Prop}
    (hinit : ∀ i connected now, I i (.start connected now) [])
    (hstep : ∀ i nd tr a nd' os posts, I i nd tr → H i nd a → NodeStep C i nd a nd' os posts →
      I i nd' (tr ++ os))
    (hrecv : ∀ i nd tr posts, I i nd tr → I i (nd.receive posts) tr) :
    (fleet C).Inductive (onNodes H) (fun _ s tr => ∀ i, I i (s i) (shownBy i tr)) where
  init := by
    intro s h0 i
    obtain ⟨connected, now, hs⟩ := h0 i
    rw [hs]
    exact hinit i connected now
  step := by
    rintro as s tr ⟨i, a⟩ s' os hI hg hst j
    obtain ⟨nd, os', posts, hnd, rfl, hself, hother⟩ := fleetStep_cases hst
    rw [shownBy_append]
    by_cases hj : j = i
    · subst hj
      rw [shownBy_self, hself]
      exact hrecv j nd _ posts (hstep j (s j) _ a nd os' posts (hI j) hg hnd)
    · rw [shownBy_other (Ne.symm hj), List.append_nil, hother j hj]
      exact hrecv j (s j) _ posts (hI j)

/-- What the outbound half of node `i` showed. -/
def outAt (i : ι) (tr : List (ι × NodeObs ι)) : List OutObs := outOf (shownBy i tr)

/-- Each node's outbound half moves as `outMach` does. -/
theorem fleet_simulates (C : FleetConfig ι) (i : ι) :
    Mach.Simulates (fleet C) Mach.free (outMach (C.out i)) Mach.free (fun s => (s i).out)
      (fun p => if p.1 = i then p.2.asOut else none) := by
  rintro s ⟨j, a⟩ s' os _ hst
  obtain ⟨nd, os', posts, hnd, rfl, hself, hother⟩ := fleetStep_cases hst
  by_cases hj : j = i
  · subst hj
    have hos : (os'.map fun o => (j, o)).filterMap
        (fun p => if p.1 = j then p.2.asOut else none) = outOf os' := by
      simp [List.filterMap_map, outOf]
    rw [hos]
    simp only [hself]
    show ∃ bs, (outMach (C.out j)).Run Mach.free (s j).out bs nd.out (outOf os')
    rcases nodeStep_out_half hnd with ⟨he, hn⟩ | ⟨b, hb⟩
    · rw [he, hn]
      exact ⟨[], .nil⟩
    · exact ⟨[b], .single trivial hb.enabled⟩
  · have hos : (os'.map fun o => (j, o)).filterMap
        (fun p => if p.1 = i then p.2.asOut else none) = [] := by
      simp [List.filterMap_map, hj]
    rw [hos]
    simp only [hother i (Ne.symm hj)]
    exact ⟨[], .nil⟩

/-- In a run of the fleet, each outbound half makes a run of its own. -/
theorem out_reaches {i : ι} {G : (ι → Node ι) → ι × NodeAct → Prop} {as : List (ι × NodeAct)}
    {s : ι → Node ι} {tr : List (ι × NodeObs ι)} (hr : (fleet C).Reaches G as s tr) :
    ∃ bs, (outMach (C.out i)).Reaches Mach.free bs (s i).out (outAt i tr) := by
  have htr : tr.filterMap (fun p => if p.1 = i then p.2.asOut else none) = outAt i tr := by
    unfold outAt outOf shownBy
    rw [List.filterMap_filterMap]
    congr 1
    funext p
    by_cases hp : p.1 = i <;> simp [hp]
  rw [← htr]
  refine (fleet_simulates C i).reaches (fun s₀ h0 => ?_) hr
  obtain ⟨connected, now, hs₀⟩ := h0 i
  rw [hs₀]
  exact ⟨connected, now, rfl⟩

end Runs

end WmBusbridge.L5
