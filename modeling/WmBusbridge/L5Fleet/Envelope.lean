import WmBusbridge.L4Bridge.Reader
import WmBusbridge.L5Fleet.Copies
import WmBusbridge.L5Fleet.LoopGuard

/-!
# What an injected envelope says

`Faithful ev topic w`: `w`, injected on `topic`, decodes to the bus event `ev` it
comes from, publisher included.

* `envelope_exact`: in every run, what a message that a node's policy accepts becomes
  is faithful only if the publisher's session id is the literal `nats`, and then it is,
  if the event came through unaltered.
* `publisher_lost`: a client `session` publishes, and the envelope is from `nats`.
-/
namespace WmBusbridge.L5
open L0 L1 L1.Str L2 L3 L4

variable {ι : Type}

/-- What decoding an envelope of the event should give. -/
def BusEvent.payload (ev : BusEvent ι) : BridgedPayload :=
  { bridged := true, topic := ev.topic, data := ev.data, sender := ev.sender }

structure Faithful (ev : BusEvent ι) (topic : String) (w : Value) : Prop where
  topic : topic = ev.topic
  decodes : BridgedPayload.fromValue w = some ev.payload

/-- The line of a bus event is read as its fields. -/
theorem BusEvent.read {ev : BusEvent ι} {line : Value}
    (ht : line.json.get "topic" = some (.str ev.topic)) (hd : line.get "data" = some ev.data)
    (hf : line.json.get "from" = some (.str ev.sender)) :
    eventOf line = some { topic := ev.topic, data := ev.data, sender := ev.sender } :=
  eventOf_eq ht hd hf

/-- Unless its publisher is called `nats`, an envelope is not faithful to the event;
`kept`: with such a publisher, an unaltered event's envelope is. -/
structure FaithfulIffNats (C : FleetConfig ι) (ev : BusEvent ι) (topic : String) (w : Value) :
    Prop where
  nats : Faithful ev topic w → ev.sender = "nats"
  kept : Unaltered C ev.topic ev.data → ev.sender = "nats" → Faithful ev topic w

/-- The publisher is always `nats`; the other fields are right if nothing altered them. -/
theorem CopyOf.faithful {C : FleetConfig ι} {s : ι → Node ι} {o : ι × Nat} {t : String}
    {w : Value} (h : CopyOf C s o t w) :
    ∃ ev, (s o.1).bus[o.2]? = some ev ∧ FaithfulIffNats C ev t w := by
  obtain ⟨ev, payload, hev, hm, rfl⟩ := h
  refine ⟨ev, hev, fun hf => ?_, fun hu hs => ?_⟩
  · have heq := hf.decodes
    rw [BridgedPayload.fromValue_toValue] at heq
    exact (congrArg BridgedPayload.sender (Option.some.inj heq)).symm
  · obtain ⟨rfl, hd⟩ := hu.message hm
    refine ⟨rfl, ?_⟩
    rw [BridgedPayload.fromValue_toValue, hd, Option.getD_some, BusEvent.payload, hs]
    rfl

section Fleet
variable [DecidableEq ι] {C : FleetConfig ι}

/-- So it is with the entry of its origin's bus that was handed to NATS. -/
def ExactlyNats (C : FleetConfig ι) (s : ι → Node ι) (tr : List (ι × NodeObs ι)) (o : ι × Nat)
    (topic : String) (w : Value) : Prop :=
  Posted tr o ∧ ∃ ev, (s o.1).bus[o.2]? = some ev ∧ FaithfulIffNats C ev topic w

/-- A message at a node, from its arrival to its envelope on the bus. -/
structure EnvelopeExact (C : FleetConfig ι) (s : ι → Node ι) (tr : List (ι × NodeObs ι)) :
    Prop where
  arrived : ∀ j, ∀ p ∈ (s j).inbox, shouldForward p.subject (C.allow j) = true →
    ∃ w, n2aEnvelope C.serde (C.allow j) p.subject p.payload = some w ∧
      ExactlyNats C s tr p.origin p.subject w
  wrapped : ∀ j t w o, (s j).n = .inject t w o → ExactlyNats C s tr o t w
  injected : ∀ j, ∀ inj ∈ (s j).bus, ∀ o, inj.src = .bridge o →
    ExactlyNats C s tr o inj.topic inj.data

/-- **When the envelope is faithful end to end**, for any fleet, interleaving,
delivery order and path through the outage buffer: of what came through unaltered,
exactly when the publisher's session id is `nats`. -/
theorem envelope_exact (C : FleetConfig ι) {as : List (ι × NodeAct)} {s : ι → Node ι}
    {tr : List (ι × NodeObs ι)} (hr : (fleet C).Reaches Mach.free as s tr) :
    EnvelopeExact C s tr := by
  have hI := (copiesInv_inductive C).reaches hr
  refine ⟨fun j p hp ha => ?_, fun j t w o hn => ?_, fun j inj hinj o hsrc => ?_⟩
  · obtain ⟨hposted, hsent⟩ := hI.inbox j p hp
    obtain ⟨w, hw⟩ : ∃ w, n2aEnvelope C.serde (C.allow j) p.subject p.payload = some w :=
      ⟨_, n2aEnvelope_some.mpr ⟨ha, rfl⟩⟩
    exact ⟨w, hw, hposted, (hsent.copy hw).faithful⟩
  · obtain ⟨hposted, hcopy, -⟩ := hI.loop j t w o hn
    exact ⟨hposted, hcopy.faithful⟩
  · obtain ⟨hposted, hcopy, -⟩ := hI.bus j inj hinj o hsrc
    exact ⟨hposted, hcopy.faithful⟩

end Fleet

/-- The event of `session` crosses to `forge`. -/
theorem crossEx_exact : ∃ s, EnvelopeExact fleetEx s crossTraceEx := by
  obtain ⟨s, hs⟩ : ∃ s, (fleet fleetEx).exec Mach.free startEx crossEx = some (s, crossTraceEx) :=
    ⟨_, rfl⟩
  exact ⟨s, envelope_exact fleetEx ⟨startEx, fun _ => ⟨true, 0, rfl⟩, Mach.run_of_exec hs⟩⟩

/-- Its envelope there is from `nats`. -/
theorem publisher_lost : ¬ ∀ as s tr, (fleet fleetEx).Reaches Mach.free as s tr →
    ∀ j, ∀ inj ∈ (s j).bus, ∀ o, inj.src = .bridge o →
      ∃ ev, (s o.1).bus[o.2]? = some ev ∧ Faithful ev inj.topic inj.data := by
  intro h
  obtain ⟨s, hs, hforge, hnomad⟩ : ∃ s,
      (fleet fleetEx).exec Mach.free startEx crossEx = some (s, crossTraceEx) ∧
      (s .forge).bus = [⟨"wm.fleet.presence",
        (BridgedPayload.new "wm.fleet.presence" .null "nats").toValue, "wm-busbridge-pub",
        .bridge (.nomad, 0)⟩] ∧
      (s .nomad).bus[0]? = some ⟨"wm.fleet.presence", .null, "session", .client⟩ :=
    ⟨_, rfl, rfl, rfl⟩
  obtain ⟨ev, hev, hf⟩ := h crossEx s crossTraceEx
    ⟨startEx, fun _ => ⟨true, 0, rfl⟩, Mach.run_of_exec hs⟩ .forge _
    (by rw [hforge]; exact List.mem_singleton_self _) (.nomad, 0) rfl
  rw [hnomad] at hev
  cases hev
  have hd := hf.decodes
  rw [BridgedPayload.fromValue_toValue] at hd
  exact absurd (congrArg BridgedPayload.sender (Option.some.inj hd)) (by decide)

end WmBusbridge.L5
