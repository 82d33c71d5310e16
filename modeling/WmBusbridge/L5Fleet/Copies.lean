import WmBusbridge.L5Fleet.NodeInv

/-!
# What an injected entry is a copy of

Buses only grow, so a message can always be traced to the bus entry it left
from.

* `injected_copies`: in every run, each injected bus entry is the envelope of the
  message that an entry of its origin's bus became.
-/
namespace WmBusbridge.L5
open L0 L1 L1.Str L2 L3 L4

variable {ι : Type}

/-! ## Buses grow -/

theorem push_bus (nd : Node ι) (ev : BusEvent ι) : (nd.push ev).bus = nd.bus ++ [ev] := rfl

theorem pushAll_bus (evs : List (BusEvent ι)) (nd : Node ι) :
    (nd.pushAll evs).bus = nd.bus ++ evs := by
  unfold Node.pushAll
  induction evs generalizing nd with
  | nil => simp
  | cons ev evs ih =>
    rw [List.foldl_cons, ih, push_bus]
    simp

theorem bus_step {C : FleetConfig ι} {i : ι} {nd nd' : Node ι} {a : NodeAct}
    {os : List (NodeObs ι)} {posts : List (Post ι)} (hst : NodeStep C i nd a nd' os posts) :
    ∃ more, nd'.bus = nd.bus ++ more := by
  cases hst with
  | client topic data sender => exact ⟨_, push_bus nd _⟩
  | out a out os hr ho => exact ⟨_, pushAll_bus _ _⟩
  | inject topic wrapped origin hn => exact ⟨_, push_bus _ _⟩
  | _ => exact ⟨[], by simp⟩

/-- Every bus of `s'` extends that of `s`. -/
def BusesGrow (s s' : ι → Node ι) : Prop := ∀ i, ∃ more, (s' i).bus = (s i).bus ++ more

theorem BusesGrow.get {s s' : ι → Node ι} (h : BusesGrow s s') {i : ι} {k : Nat} {ev : BusEvent ι}
    (he : (s i).bus[k]? = some ev) : (s' i).bus[k]? = some ev := by
  obtain ⟨more, hm⟩ := h i
  have hlt : k < (s i).bus.length := (List.getElem?_eq_some_iff.mp he).1
  rw [hm, List.getElem?_append_left hlt]
  exact he

/-! ## Copies -/

/-- The message that NATS brings of an event on the bus of node `i`: the bridge is
given the event and lets it out, and NATS carries it. -/
def FleetConfig.message (C : FleetConfig ι) (i : ι) (topic : String) (data : Value) :
    Option (String × Bytes) :=
  if startsWith topic "wm." then
    (a2nPayload C.serde (C.allow i) topic data).bind (C.nats.carry topic)
  else none

theorem message_some {C : FleetConfig ι} {i : ι} {topic : String} {data : Value}
    {m : String × Bytes} : C.message i topic data = some m ↔ startsWith topic "wm." = true ∧
      ∃ payload, a2nPayload C.serde (C.allow i) topic data = some payload ∧
        C.nats.carry topic payload = some m := by
  unfold FleetConfig.message
  split <;> simp [*, Option.bind_eq_some_iff]

theorem message_unmarked {C : FleetConfig ι} {i : ι} {topic : String} {data : Value}
    {m : String × Bytes} (h : C.message i topic data = some m) :
    BridgedPayload.isBridged data = false := by
  obtain ⟨-, payload, hp, -⟩ := message_some.mp h
  exact (a2nPayload_some.mp hp).1

/-- The policy of node `j` for what comes in. -/
def FleetConfig.letsIn (C : FleetConfig ι) (j : ι) (subject : String) : Bool :=
  shouldForward subject (C.allow j)

theorem hubTopic_valid (st : HubState) : validSubject (hubTopic st) = true := by
  cases st <;> decide

/-- NATS brings the subject and the bytes of the event unchanged, and its data is read
back as itself. -/
structure Unaltered (C : FleetConfig ι) (topic : String) (data : Value) : Prop where
  carried : ∀ payload m, C.serde.toVec data = some payload →
    C.nats.carry topic payload = some m → m = (topic, payload)
  exact : C.serde.reads data = some data

theorem unaltered_of_plain (C : FleetConfig ι) {topic : String} {data : Value}
    (hv : validSubject topic = true) (hp : data.Plain) : Unaltered C topic data where
  carried _ _ _ hm := C.nats.carry_valid _ _ _ hv hm
  exact := hp.reads _

theorem Unaltered.message {C : FleetConfig ι} {i : ι} {topic t : String} {data : Value}
    {payload : Bytes} (h : Unaltered C topic data)
    (hm : C.message i topic data = some (t, payload)) :
    t = topic ∧ C.serde.fromSlice payload = some data := by
  obtain ⟨-, payload', hp, hc⟩ := message_some.mp hm
  have hb := (a2nPayload_some.mp hp).2.2
  cases h.carried _ _ hb hc
  exact ⟨rfl, by rw [C.serde.fromSlice_toVec _ _ hb, h.exact]⟩

/-- `w` is the envelope, on the subject `t`, of what the bus entry `o` became. -/
def CopyOf (C : FleetConfig ι) (s : ι → Node ι) (o : ι × Nat) (t : String) (w : Value) : Prop :=
  ∃ ev payload, (s o.1).bus[o.2]? = some ev ∧
    C.message o.1 ev.topic ev.data = some (t, payload) ∧
    w = (BridgedPayload.new t ((C.serde.fromSlice payload).getD .null) "nats").toValue

theorem CopyOf.mono {C : FleetConfig ι} {s s' : ι → Node ι} (h : BusesGrow s s') {o : ι × Nat}
    {t : String} {w : Value} (hc : CopyOf C s o t w) : CopyOf C s' o t w := by
  obtain ⟨ev, payload, hev, hrest⟩ := hc
  exact ⟨ev, payload, h.get hev, hrest⟩

/-- `p` is what its origin became. -/
def Sent (C : FleetConfig ι) (s : ι → Node ι) (p : Post ι) : Prop :=
  ∃ ev, (s p.origin.1).bus[p.origin.2]? = some ev ∧
    C.message p.origin.1 ev.topic ev.data = some (p.subject, p.payload)

theorem Sent.mono {C : FleetConfig ι} {s s' : ι → Node ι} (h : BusesGrow s s') {p : Post ι}
    (hp : Sent C s p) : Sent C s' p := by
  obtain ⟨ev, hev, hm⟩ := hp
  exact ⟨ev, h.get hev, hm⟩

/-- The envelope of a message is that of the entry it left from. -/
theorem Sent.copy {C : FleetConfig ι} {s : ι → Node ι} {p : Post ι} {allow : List String}
    {w : Value} (h : Sent C s p) (hw : n2aEnvelope C.serde allow p.subject p.payload = some w) :
    CopyOf C s p.origin p.subject w := by
  obtain ⟨ev, hev, hm⟩ := h
  obtain ⟨-, rfl⟩ := n2aEnvelope_some.mp hw
  exact ⟨ev, p.payload, hev, hm, rfl⟩

/-- A step sends what NATS makes of what it handed over. -/
theorem posts_handed {C : FleetConfig ι} {i : ι} {nd nd' : Node ι} {a : NodeAct}
    {os : List (NodeObs ι)} {posts : List (Post ι)} (hst : NodeStep C i nd a nd' os posts) :
    ∀ p ∈ posts, ∃ e, (p.origin.2, e) ∈ handedBy os ∧ p.origin.1 = i ∧
      C.nats.carry e.topic e.payload = some (p.subject, p.payload) := by
  cases hst with
  | out a out os hr ho =>
    intro p hp
    obtain ⟨o, ho', hpost⟩ := List.mem_filterMap.mp hp
    unfold post at hpost
    split at hpost
    · rename_i e hh
      obtain ⟨m, hm, rfl⟩ := Option.map_eq_some_iff.mp hpost
      refine ⟨e, ?_, rfl, hm⟩
      rw [handedBy_shown]
      have hmem : e ∈ handedOf os :=
        List.mem_map.mpr ⟨(e, true), List.mem_filterMap.mpr ⟨o, ho', hh⟩, rfl⟩
      exact List.mem_map.mpr ⟨e, hmem, rfl⟩
    · cases hpost
  | _ => exact fun p hp => (nomatch hp)

/-- What a step adds to the bus from the bridge is what the loop held. -/
theorem bus_new {C : FleetConfig ι} {i : ι} {nd nd' : Node ι} {a : NodeAct}
    {os : List (NodeObs ι)} {posts : List (Post ι)} (hst : NodeStep C i nd a nd' os posts)
    {ev : BusEvent ι} (hev : ev ∈ nd'.bus) {o : ι × Nat} (hsrc : ev.src = .bridge o) :
    ev ∈ nd.bus ∨ nd.n = .inject ev.topic ev.data o := by
  cases hst with
  | client topic data sender =>
    rcases List.mem_append.mp hev with hev | hev
    · exact .inl hev
    · rw [List.mem_singleton] at hev
      subst hev
      cases hsrc
  | out a out os hr ho =>
    rw [pushAll_bus] at hev
    rcases List.mem_append.mp hev with hev | hev
    · exact .inl hev
    · rw [notice_src hev] at hsrc
      cases hsrc
  | inject topic wrapped origin hn =>
    rcases List.mem_append.mp hev with hev | hev
    · exact .inl hev
    · rw [List.mem_singleton] at hev
      subst hev
      cases hsrc
      exact .inr hn
  | _ => exact .inl hev

/-- What the loop holds after a step it held before or took from the inbox. -/
theorem loop_new {C : FleetConfig ι} {i : ι} {nd nd' : Node ι} {a : NodeAct}
    {os : List (NodeObs ι)} {posts : List (Post ι)} (hst : NodeStep C i nd a nd' os posts)
    {t : String} {w : Value} {o : ι × Nat} (hn' : nd'.n = .inject t w o) :
    nd.n = .inject t w o ∨ ∃ p ∈ nd.inbox, p.subject = t ∧ p.origin = o ∧
      n2aEnvelope C.serde (C.allow i) p.subject p.payload = some w := by
  cases hst with
  | out a out os hr ho =>
    rw [pushAll_n] at hn'
    exact .inl hn'
  | take k p wrapped hn hp hw =>
    cases hn'
    exact .inr ⟨p, List.mem_of_getElem? hp, rfl, rfl, hw⟩
  | inject topic wrapped origin hn => cases hn'
  | unwritten topic wrapped origin hn => cases hn'
  | _ => exact .inl hn'

theorem inbox_step {C : FleetConfig ι} {i : ι} {nd nd' : Node ι} {a : NodeAct}
    {os : List (NodeObs ι)} {posts : List (Post ι)} (hst : NodeStep C i nd a nd' os posts) :
    nd'.inbox ⊆ nd.inbox := by
  cases hst with
  | out a out os hr ho =>
    rw [pushAll_inbox]
    exact List.Subset.refl _
  | pass k p hn hp hw => exact (List.eraseIdx_sublist ..).subset
  | take k p wrapped hn hp hw => exact (List.eraseIdx_sublist ..).subset
  | _ => exact List.Subset.refl _

section Fleet
variable [DecidableEq ι] {C : FleetConfig ι}

/-- Where a message is, and what it is a copy of. -/
structure CopiesInv (C : FleetConfig ι) (s : ι → Node ι) (tr : List (ι × NodeObs ι)) : Prop where
  nodes : ∀ i, NodeInv C i (s i) (shownBy i tr)
  inbox : ∀ j, ∀ p ∈ (s j).inbox, Posted tr p.origin ∧ Sent C s p
  loop : ∀ j t w o, (s j).n = .inject t w o →
    Posted tr o ∧ CopyOf C s o t w ∧ C.letsIn j t = true
  bus : ∀ j, ∀ ev ∈ (s j).bus, ∀ o, ev.src = .bridge o →
    Posted tr o ∧ CopyOf C s o ev.topic ev.data ∧ C.letsIn j ev.topic = true

theorem copiesInv_step {s s' : ι → Node ι} {tr os : List (ι × NodeObs ι)} {p : ι × NodeAct}
    (hI : CopiesInv C s tr) (hst : fleetStep C s p = some (s', os)) :
    CopiesInv C s' (tr ++ os) := by
  obtain ⟨i, a⟩ := p
  have hst' := hst
  obtain ⟨nd, os', posts, hnd, rfl, hself, hother⟩ := fleetStep_cases hst
  have hgrow : BusesGrow s s' := by
    intro j
    by_cases hj : j = i
    · subst hj
      rw [hself]
      obtain ⟨more, hm⟩ := bus_step hnd
      exact ⟨more, hm⟩
    · rw [hother j hj]
      exact ⟨[], by simp [Node.receive]⟩
  have hbus : (s' i).bus = nd.bus := by rw [hself]; rfl
  -- the messages this step sent left from entries of the node's own bus
  have hsent : ∀ p ∈ posts, Posted (tr ++ os'.map fun o => (i, o)) p.origin ∧ Sent C s' p := by
    intro p hp
    obtain ⟨e, hk, horigin, hm⟩ := posts_handed hnd p hp
    have hmem : (p.origin.2, e) ∈ handedBy (shownBy i tr ++ os') := by
      rw [handedBy_append]
      exact List.mem_append_right _ hk
    obtain ⟨ev, hev, ht, hwm, hpass⟩ := handed_left (nodeInv_step (hI.nodes i) hnd) hmem
    unfold Posted Sent
    rw [horigin, shownBy_append, shownBy_self, hbus]
    refine ⟨List.mem_map_of_mem hmem, ev, hev, ?_⟩
    rw [ht]
    exact message_some.mpr ⟨hwm, e.payload, hpass, hm⟩
  -- a copy stays a copy
  have hold : ∀ j t w o, Posted tr o ∧ CopyOf C s o t w ∧ C.letsIn j t = true →
      Posted (tr ++ os'.map fun o => (i, o)) o ∧ CopyOf C s' o t w ∧ C.letsIn j t = true :=
    fun j t w o ⟨hposted, hcopy, hlet⟩ => ⟨hposted.mono, hcopy.mono hgrow, hlet⟩
  constructor
  · exact (nodeInv_inductive C).step [] s tr (i, a) s' _ hI.nodes trivial hst'
  · intro j p hp
    have hstay : ∀ q ∈ (s j).inbox, Posted (tr ++ os'.map fun o => (i, o)) q.origin ∧ Sent C s' q :=
      fun q hq => ⟨(hI.inbox j q hq).1.mono, (hI.inbox j q hq).2.mono hgrow⟩
    by_cases hj : j = i
    · subst hj
      rw [hself] at hp
      rcases List.mem_append.mp hp with hp | hp
      · exact hstay p (inbox_step hnd hp)
      · exact hsent p hp
    · rw [hother j hj] at hp
      rcases List.mem_append.mp hp with hp | hp
      · exact hstay p hp
      · exact hsent p hp
  · intro j t w o hn
    by_cases hj : j = i
    · subst hj
      rw [hself] at hn
      rcases loop_new hnd hn with hn | ⟨p, hp, rfl, rfl, hw⟩
      · exact hold j t w o (hI.loop j t w o hn)
      · exact ⟨(hI.inbox j p hp).1.mono, ((hI.inbox j p hp).2.copy hw).mono hgrow,
          (n2aEnvelope_some.mp hw).1⟩
    · rw [hother j hj] at hn
      exact hold j t w o (hI.loop j t w o hn)
  · intro j ev hev o hsrc
    by_cases hj : j = i
    · subst hj
      rw [hself] at hev
      rcases bus_new hnd hev hsrc with hev | hn
      · exact hold j _ _ o (hI.bus j ev hev o hsrc)
      · exact hold j _ _ o (hI.loop j _ _ o hn)
    · rw [hother j hj] at hev
      exact hold j _ _ o (hI.bus j ev hev o hsrc)

theorem copiesInv_inductive (C : FleetConfig ι) :
    (fleet C).Inductive Mach.free (fun _ s tr => CopiesInv C s tr) where
  init := by
    intro s h0
    have hstart : ∀ i, ∃ connected now, s i = .start connected now := h0
    refine ⟨(nodeInv_inductive C).init s h0, ?_, ?_, ?_⟩
    · intro j p hp
      obtain ⟨connected, now, hs⟩ := hstart j
      rw [hs] at hp
      cases hp
    · intro j t w o hn
      obtain ⟨connected, now, hs⟩ := hstart j
      rw [hs] at hn
      cases hn
    · intro j ev hev
      obtain ⟨connected, now, hs⟩ := hstart j
      rw [hs] at hev
      cases hev
  step _ _ _ _ _ _ hI _ hst := copiesInv_step hI hst

/-- **An injected entry is a copy**: the envelope of what an entry of its origin's
bus became, which its own bridge handed to NATS, on a subject that the node lets in. -/
theorem injected_copies (C : FleetConfig ι) {G : (ι → Node ι) → ι × NodeAct → Prop}
    {as : List (ι × NodeAct)} {s : ι → Node ι} {tr : List (ι × NodeObs ι)}
    (hr : (fleet C).Reaches G as s tr) {j : ι} {ev : BusEvent ι} (hev : ev ∈ (s j).bus)
    {o : ι × Nat} (hsrc : ev.src = .bridge o) :
    Posted tr o ∧ CopyOf C s o ev.topic ev.data ∧ C.letsIn j ev.topic = true := by
  obtain ⟨s₀, h0, hrun⟩ := hr
  exact ((copiesInv_inductive C).run h0 hrun.toFree).bus j ev hev o hsrc

end Fleet
end WmBusbridge.L5
