import WmBusbridge.L3Watcher.Announce
import WmBusbridge.L5Fleet.Copies
import WmBusbridge.L5Fleet.LoopGuard

/-!
# Hub events on a local bus

`wm.fleet.hub.down` and `wm.fleet.hub.up` cross the bridges like any other fleet
event, so a bus also shows the transitions of other members. Those carry the
bridge's marker; a node's own do not.

* `hub_events_own`: the unmarked hub events on a bus are the node's own
  transitions, in order, and the marked ones are copies of some member's.
* `foreign_hub_event`: taken together they are not the node's own.
-/
namespace WmBusbridge.L5
open L0 L1 L1.Str L2 L3 L4

variable {ι : Type}

/-! ## Assumptions -/

def isHubTopic (topic : String) : Bool := topic == specTopic .down || topic == specTopic .up

/-- Writes to the local bus succeed, and only watchers publish hub events: a client neither
publishes one nor an event that NATS would bring as one. -/
def BusOk (C : FleetConfig ι) (i : ι) (nd : Node ι) : NodeAct → Prop
  | .client topic data _ =>
    isHubTopic topic = false ∧ ((C.message i topic data).all fun m => !isHubTopic m.1) = true
  | .out (.watch (.emit env)) => (emitLocal nd.out.hub.w.busPub env).1 = true
  | .inject ok => ok = true
  | _ => True

instance (C : FleetConfig ι) (i : ι) (nd : Node ι) (a : NodeAct) : Decidable (BusOk C i nd a) := by
  unfold BusOk
  split <;> infer_instance

/-! ## The node's own notices -/

/-- What the watcher puts on the bus to announce a transition. -/
def noticeEvent (p : String × Value) : BusEvent ι :=
  { topic := p.1, data := p.2, sender := "wm-busbridge-hub-watcher", src := .watcher }

/-- The hub events on a bus that do not carry the marker. -/
def ownHubEvents (bus : List (BusEvent ι)) : List (BusEvent ι) :=
  bus.filter fun ev => isHubTopic ev.topic && !BridgedPayload.isBridged ev.data

theorem ownHubEvents_append (a b : List (BusEvent ι)) :
    ownHubEvents (a ++ b) = ownHubEvents a ++ ownHubEvents b := List.filter_append ..

theorem hubTopic_hub (st : HubState) : isHubTopic (hubTopic st) = true := by
  cases st <;> decide

/-- Announcements are never marked. -/
theorem notice_unmarked {cfg : HubWatcherConfig} {p : String × Value} (h : IsNotice cfg p) :
    BridgedPayload.isBridged p.2 = false := by
  cases h with
  | up dur =>
    simp [BridgedPayload.isBridged, hubUpData, Json.get, BRIDGE_MARKER_KEY, List.lookup_cons]
  | down since last =>
    simp [BridgedPayload.isBridged, hubDownData, Json.get, BRIDGE_MARKER_KEY, List.lookup_cons]

/-- A bus entry that announces a transition is one of the node's own hub events. -/
theorem own_notices {cfg : HubWatcherConfig} {ps : List (String × Value)}
    (h : ∀ p ∈ ps, IsNotice cfg p) :
    ownHubEvents (ps.map (noticeEvent : String × Value → BusEvent ι)) = ps.map noticeEvent := by
  refine List.filter_eq_self.mpr fun ev hev => ?_
  obtain ⟨p, hp, rfl⟩ := List.mem_map.mp hev
  obtain ⟨st, ht⟩ := (h p hp).topic
  simp [noticeEvent, ht, hubTopic_hub, notice_unmarked (h p hp)]

/-- When the watcher's writes succeed, what it announces is what gets on the bus. -/
theorem notices_written {C : FleetConfig ι} {i : ι} {nd : Node ι} {P : OutConfig} {a : OutAct}
    {out : Outbound} {os : List OutObs} (hg : BusOk C i nd (.out a))
    (ho : OutStep P nd.out a out os) : os.filterMap notice =
      (noticesOf (hubOf os)).map (noticeEvent : String × Value → BusEvent ι) := by
  cases ho with
  | accepted e popped kept ha hs he =>
    rw [hubOf_hub]
    simp [noticesOf, List.filterMap_map, notice]
  | watch a hub os hw =>
    rw [hubOf_hub]
    cases hw with
    | emitUp dur env hpc =>
      have hw : (emitLocal nd.out.hub.w.busPub env).1 = true := hg
      rw [hw]
      rfl
    | emitDown env hpc =>
      have hw : (emitLocal nd.out.hub.w.busPub env).1 = true := hg
      rw [hw]
      rfl
    | _ => rfl
  | _ => rfl

/-! ## The invariant -/

/-- The event is no hub event, here or elsewhere. -/
structure Quiet (C : FleetConfig ι) (i : ι) (ev : BusEvent ι) : Prop where
  here : isHubTopic ev.topic = false
  brought : ∀ m, C.message i ev.topic ev.data = some m → isHubTopic m.1 = false

structure HubInv (C : FleetConfig ι) (i : ι) (nd : Node ι) (tr : List (NodeObs ι)) : Prop where
  node : NodeInv C i nd tr
  own : ownHubEvents nd.bus = (noticesOf (hubOf (outOf tr))).map noticeEvent
  client : ∀ ev ∈ nd.bus, ev.src = .client → Quiet C i ev
  watcher : ∀ ev ∈ nd.bus, ev.src = .watcher → IsNotice (C.cfg i) (ev.topic, ev.data)

/-- New entries that are neither an own hub event nor from a watcher. -/
theorem HubInv.others {C : FleetConfig ι} {i : ι} {nd nd' : Node ι} {tr os : List (NodeObs ι)}
    (hI : HubInv C i nd tr) (hnode : NodeInv C i nd' (tr ++ os)) (ho : outOf os = [])
    {more : List (BusEvent ι)} (hbus : nd'.bus = nd.bus ++ more) (hown : ownHubEvents more = [])
    (hc : ∀ ev ∈ more, ev.src = .client → Quiet C i ev)
    (hw : ∀ ev ∈ more, ev.src ≠ .watcher) : HubInv C i nd' (tr ++ os) := by
  refine ⟨hnode, ?_, ?_, ?_⟩
  · rw [hbus, ownHubEvents_append, hown, List.append_nil, outOf_append, ho, List.append_nil]
    exact hI.own
  · intro ev hev hsrc
    rw [hbus] at hev
    rcases List.mem_append.mp hev with hev | hev
    · exact hI.client ev hev hsrc
    · exact hc ev hev hsrc
  · intro ev hev hsrc
    rw [hbus] at hev
    rcases List.mem_append.mp hev with hev | hev
    · exact hI.watcher ev hev hsrc
    · exact absurd hsrc (hw ev hev)

/-- A step of the outbound half adds exactly the watcher's notices. -/
theorem HubInv.outStep {C : FleetConfig ι} {i : ι} {nd : Node ι} {tr : List (NodeObs ι)}
    (hI : HubInv C i nd tr) {a : OutAct} {out : Outbound} {os : List OutObs}
    (hg : BusOk C i nd (.out a)) (hr : out.reads = nd.out.reads)
    (ho : OutStep (C.out i) nd.out a out os) :
    HubInv C i ({ nd with out := out }.pushAll (os.filterMap notice))
      (tr ++ os.flatMap (shown nd.taken)) := by
  have hnew := notices_written hg ho
  refine ⟨nodeInv_step hI.node (.out a out os hr ho), ?_, ?_, ?_⟩
  · rw [pushAll_bus, ownHubEvents_append, hnew, own_notices (out_notices ho), hI.own,
      outOf_append, outOf_shown, hubOf_append, noticesOf_append, List.map_append]
  · intro ev hev hsrc
    rw [pushAll_bus] at hev
    rcases List.mem_append.mp hev with hev | hev
    · exact hI.client ev hev hsrc
    · rw [notice_src hev] at hsrc
      cases hsrc
  · intro ev hev hsrc
    rw [pushAll_bus] at hev
    rcases List.mem_append.mp hev with hev | hev
    · exact hI.watcher ev hev hsrc
    · exact notice_isNotice ho hev

theorem hubInv_step {C : FleetConfig ι} {i : ι} {nd nd' : Node ι} {a : NodeAct}
    {tr os : List (NodeObs ι)} {posts : List (Post ι)} (hI : HubInv C i nd tr)
    (hg : BusOk C i nd a) (hst : NodeStep C i nd a nd' os posts) : HubInv C i nd' (tr ++ os) := by
  have hnode := nodeInv_step hI.node hst
  have hnone : ∀ m : Node ι, m.bus = nd.bus ++ [] ↔ m.bus = nd.bus := by simp
  cases hst with
  | client topic data sender =>
    obtain ⟨ht, hm⟩ := hg
    refine hI.others hnode rfl (push_bus nd _) ?_ ?_ ?_
    · simp [ownHubEvents, ht]
    · intro ev hev _
      rw [List.mem_singleton] at hev
      rw [hev]
      refine ⟨ht, fun m hsome => ?_⟩
      rw [hsome, Option.all_some, Bool.not_eq_true'] at hm
      exact hm
    · intro ev hev
      rw [List.mem_singleton] at hev
      rw [hev]
      exact fun h => (nomatch h)
  | out a out os hr ho => exact hI.outStep hg hr ho
  | inject topic wrapped origin hn =>
    have hm := hI.node.pc_marked _ _ _ hn
    refine hI.others hnode rfl (push_bus _ _) ?_ ?_ ?_
    · simp [ownHubEvents, hm]
    · intro ev hev hsrc
      rw [List.mem_singleton] at hev
      rw [hev] at hsrc
      cases hsrc
    · intro ev hev
      rw [List.mem_singleton] at hev
      rw [hev]
      exact fun h => (nomatch h)
  | _ =>
    exact hI.others hnode rfl ((hnone _).mpr rfl) rfl (fun ev hev => (nomatch hev))
      fun ev hev => (nomatch hev)

section Fleet
variable [DecidableEq ι] {C : FleetConfig ι}

theorem hubInv_inductive (C : FleetConfig ι) :
    (fleet C).Inductive (onNodes (BusOk C))
      (fun _ s tr => ∀ i, HubInv C i (s i) (shownBy i tr)) := by
  refine node_inductive ?_ (fun i nd tr a nd' os posts hI hg hst => hubInv_step hI hg hst) ?_
  · intro i connected now
    exact ⟨nodeInv_start C i connected now, rfl, fun ev hev => (nomatch hev),
      fun ev hev => (nomatch hev)⟩
  · intro i nd tr posts hI
    exact ⟨hI.node.receive posts, hI.own, hI.client, hI.watcher⟩

/-! ## Hub events -/

/-- What the watcher of node `i` showed. -/
def hubAt (i : ι) (tr : List (ι × NodeObs ι)) : List Obs := hubOf (outAt i tr)

/-- The unmarked hub events on the bus of `i` are the transitions of `i`, those
announced so far; the marked ones come from a member's own. -/
structure OwnHubEvents (s : ι → Node ι) (i : ι) (tr : List (ι × NodeObs ι)) : Prop where
  announced : ownHubEvents (s i).bus = (noticesOf (hubAt i tr)).map noticeEvent
  transitions : ∃ late : List HubState, late.length ≤ 1 ∧ (flipsOf (hubAt i tr)).map specTopic =
    (noticesOf (hubAt i tr)).map Prod.fst ++ late.map specTopic
  alternate : ∃ n, (ownHubEvents (s i).bus).map BusEvent.topic = (alternating n).map specTopic
  last : (ownHubEvents (s i).bus).getLast?.map BusEvent.topic =
    (noticesOf (hubAt i tr)).getLast?.map Prod.fst
  copied : ∀ ev ∈ (s i).bus, isHubTopic ev.topic = true → BridgedPayload.isBridged ev.data = true →
    ∃ o ev₀, ev.src = .bridge o ∧ (s o.1).bus[o.2]? = some ev₀ ∧ ev₀.src = .watcher ∧
      ev₀.topic = ev.topic ∧ ev.data = (BridgedPayload.new ev.topic ev₀.data "nats").toValue

/-- A marked hub event is a copy of what some member's watcher announced. -/
theorem marked_copied {s : ι → Node ι} {tr : List (ι × NodeObs ι)} {as : List (ι × NodeAct)}
    (hr : (fleet C).Reaches (onNodes (BusOk C)) as s tr) (hI : ∀ i, HubInv C i (s i) (shownBy i tr))
    {i : ι} {ev : BusEvent ι} (hev : ev ∈ (s i).bus) (ht : isHubTopic ev.topic = true)
    (hm : BridgedPayload.isBridged ev.data = true) :
    ∃ o ev₀, ev.src = .bridge o ∧ (s o.1).bus[o.2]? = some ev₀ ∧ ev₀.src = .watcher ∧
      ev₀.topic = ev.topic ∧ ev.data = (BridgedPayload.new ev.topic ev₀.data "nats").toValue := by
  cases hsrc : ev.src with
  | client =>
    rw [((hI i).client ev hev hsrc).here] at ht
    cases ht
  | watcher =>
    rw [notice_unmarked ((hI i).watcher ev hev hsrc)] at hm
    cases hm
  | bridge o =>
    obtain ⟨-, ⟨ev₀, payload, hget, hmsg, hdata⟩, -⟩ := injected_copies C hr hev hsrc
    have hmem := List.mem_of_getElem? hget
    cases hsrc₀ : ev₀.src with
    | client =>
      rw [((hI o.1).client ev₀ hmem hsrc₀).brought _ hmsg] at ht
      cases ht
    | watcher =>
      have hnotice := (hI o.1).watcher ev₀ hmem hsrc₀
      obtain ⟨st, hst⟩ : ∃ st, ev₀.topic = hubTopic st := hnotice.topic
      have hvalid : validSubject ev₀.topic = true := hst ▸ hubTopic_valid st
      obtain ⟨htopic, hd⟩ := (unaltered_of_plain C hvalid hnotice.plain).message hmsg
      refine ⟨o, ev₀, rfl, hget, hsrc₀, htopic.symm, ?_⟩
      rw [hdata, hd, Option.getD_some]
    | bridge o' =>
      have hm₀ := message_unmarked hmsg
      rw [(hI o.1).node.injected_marked ev₀ hmem o' hsrc₀] at hm₀
      cases hm₀

/-- **Unmarked hub events are the node's own transitions**, over any fleet. -/
theorem hub_events_own (C : FleetConfig ι) {as : List (ι × NodeAct)} {s : ι → Node ι}
    {tr : List (ι × NodeObs ι)} (hr : (fleet C).Reaches (onNodes (BusOk C)) as s tr) (i : ι) :
    OwnHubEvents s i tr := by
  have hI := (hubInv_inductive C).reaches hr
  obtain ⟨bs, hbs⟩ := out_reaches (i := i) hr
  obtain ⟨cs, hcs⟩ := hub_reaches hbs
  have hann : Announces (s i).out.hub (hubAt i tr) := announces_reaches _ hcs
  have hown : ownHubEvents (s i).bus = (noticesOf (hubAt i tr)).map noticeEvent := (hI i).own
  have htopics : ∀ ps : List (String × Value),
      (ps.map (noticeEvent : String × Value → BusEvent ι)).map BusEvent.topic =
        ps.map Prod.fst := by
    intro ps
    rw [List.map_map]
    rfl
  refine ⟨hown, ⟨_, WPc.pending_length _, hann.announced⟩, ?_, ?_, fun ev hev ht hm =>
    marked_copied hr hI hev ht hm⟩
  · obtain ⟨n, hn⟩ := hann.notices_alternate
    exact ⟨n, by rw [hown, htopics, hn]⟩
  · rw [hown, List.getLast?_map, Option.map_map]
    rfl

end Fleet

/-! ## Another member's outage -/

/-- The text of `hubDownData "nomad" 10 0`. -/
def downTextEx : Bytes :=
  "\x7b\"last_ok_ts\":0,\"node\":\"nomad\",\"since_ts\":10\x7d".toList.map fun c =>
    UInt8.ofNat c.toNat

def outageFleetEx : FleetConfig Member where
  cfg _ := cfgEx
  allow _ := allowList ""
  serde := .only (hubDownData "nomad" 10 0) downTextEx
  nats := .subjects

/-- `nomad` loses the hub, and its bridge buffers the notice of it. The hub comes
back, the notice is flushed to NATS, and `forge` injects it. -/
def foreignEx : List (Member × NodeAct) :=
  [(.nomad, .out (.watch (.probe false))), (.nomad, .out (.watch (.look 10 10))),
   (.nomad, .out (.watch .flip)),
   (.nomad, .out (.watch (.emit ⟨true, true, true⟩))), (.nomad, .read 0), (.nomad, .out .offer),
   (.nomad, .out (.watch (.probe true))), (.nomad, .out (.watch (.look 15 15))),
   (.nomad, .out (.watch .flip)),
   (.nomad, .out (.watch (.sink true))), (.forge, .take 0), (.forge, .inject true)]

def foreignTraceEx : List (Member × NodeObs Member) :=
  let e : BufferedEvent := ⟨"wm.fleet.hub.down", downTextEx, 0⟩
  [(.nomad, .out (.hub (.probed false))), (.nomad, .out (.hub (.flipped .down))),
   (.nomad, .out (.hub (.announced "wm.fleet.hub.down" (hubDownData "nomad" 10 0) true))),
   (.nomad, .out (.hub (.accepted e))), (.nomad, .out (.hub (.probed true))),
   (.nomad, .out (.hub (.flipped .up))), (.nomad, .out (.hub (.flushed e true))),
   (.nomad, .handed 0 e true),
   (.forge, .injected (.nomad, 0) true)]

theorem foreignEx_run : ∃ s,
    (fleet outageFleetEx).Reaches (onNodes (BusOk outageFleetEx)) foreignEx s foreignTraceEx ∧
      (s .forge).bus.map BusEvent.topic = ["wm.fleet.hub.down"] := by
  obtain ⟨s, hs, hb⟩ : ∃ s,
      (fleet outageFleetEx).exec (onNodes (BusOk outageFleetEx)) startEx foreignEx =
        some (s, foreignTraceEx) ∧ (s .forge).bus.map BusEvent.topic = ["wm.fleet.hub.down"] :=
    ⟨_, rfl, rfl⟩
  exact ⟨s, ⟨startEx, fun _ => ⟨true, 0, rfl⟩, Mach.run_of_exec hs⟩, hb⟩

/-- `forge` made no transition. -/
theorem foreignEx_own : ∃ s, OwnHubEvents s .forge foreignTraceEx ∧
    (s .forge).bus.map BusEvent.topic = ["wm.fleet.hub.down"] := by
  obtain ⟨s, hr, hb⟩ := foreignEx_run
  exact ⟨s, hub_events_own outageFleetEx hr .forge, hb⟩

/-- All hub events on the bus of `i`, whoever put them there, are the transitions
of `i`, but for one not announced yet. -/
def HubEventsMeanOwn (s : ι → Node ι) (i : ι) (flips : List HubState) : Prop :=
  ∃ late : List HubState, late.length ≤ 1 ∧ flips.map specTopic =
    ((s i).bus.map BusEvent.topic).filter isHubTopic ++ late.map specTopic

theorem foreign_hub_event : ¬ ∀ (ι : Type) [DecidableEq ι] (C : FleetConfig ι)
    (as : List (ι × NodeAct)) (s : ι → Node ι) (tr : List (ι × NodeObs ι)),
    (fleet C).Reaches (onNodes (BusOk C)) as s tr →
      ∀ i, HubEventsMeanOwn s i (flipsOf (hubAt i tr)) := by
  intro h
  obtain ⟨s, hr, hb⟩ := foreignEx_run
  obtain ⟨late, -, hown⟩ := h Member outageFleetEx _ s _ hr .forge
  rw [hb] at hown
  have hflips : flipsOf (hubAt .forge foreignTraceEx) = [] := by decide
  rw [hflips] at hown
  exact absurd hown (by simp [isHubTopic, specTopic])

end WmBusbridge.L5
