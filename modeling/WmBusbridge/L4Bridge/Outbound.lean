import Mathlib.Data.List.Nodup
import WmBusbridge.L3Watcher.Conserve
import WmBusbridge.L4Bridge.Loops

/-!
# The outbound half of a bridge (`src/bridge.rs:229-285`)

The agorabus→NATS loop beside the watcher: both hand events to the same NATS
client, and they share the outage buffer. The loop awaits between its read, its
`maybe_buffer` call and its own publish, so these are three steps.

`reads` is a ghost: what the loop read so far, in order. The `seq` of an event
is its place in that list.

* `outInv_inductive`: in every run each read is handed to NATS at most once, and
  what is handed over is what `a2nPayload` made of a read.
-/
namespace WmBusbridge.L4
open L0 L1 L3

/-- Where the agorabus→NATS loop stands. -/
inductive APc where
  /-- waiting for `next_event` -/
  | idle
  /-- about to call `maybe_buffer` -/
  | offer (e : BufferedEvent)
  /-- not buffered; about to publish -/
  | direct (e : BufferedEvent)
  deriving DecidableEq, Repr

/-- The event the loop is busy with. -/
def APc.pending : APc → List BufferedEvent
  | .idle => []
  | .offer e | .direct e => [e]

structure Outbound where
  hub : Hub
  a : APc
  reads : List (String × Value)
  deriving DecidableEq

/-- What the outbound half is started with; the loop and the watcher both build
`HubWatcherConfig::default()`. -/
structure OutConfig where
  cfg : HubWatcherConfig
  allow : List String
  serde : SerdeJson

inductive OutAct where
  | read (topic : String) (data : Value)
  | offer
  | direct (ok : Bool)
  | watch (a : WAct)
  deriving DecidableEq

inductive OutObs where
  | hub (o : Obs)
  /-- handed to `nats.publish` by the loop itself, with its result -/
  | direct (e : BufferedEvent) (ok : Bool)
  deriving DecidableEq

/-- Handed to NATS, by either task, with the result. -/
def OutObs.handed : OutObs → Option (BufferedEvent × Bool)
  | .hub (.flushed e ok) => some (e, ok)
  | .direct e ok => some (e, ok)
  | _ => none

/-- mirrors src/bridge.rs:237-274 -/
def outStep (P : OutConfig) (s : Outbound) : OutAct → Option (Outbound × List OutObs)
  | .read topic data =>
    match s.a with
    | .idle =>
      let a := match a2nPayload P.serde P.allow topic data with
        | none => .idle
        | some payload => .offer { topic, payload, seq := s.reads.length }
      some ({ s with a := a, reads := s.reads ++ [(topic, data)] }, [])
    | _ => none
  | .offer =>
    match s.a with
    | .offer e =>
      let (hub, os) := bufferStep P.cfg s.hub e
      let a := if (maybeBuffer P.cfg s.hub.live e).1 then .idle else .direct e
      some ({ s with hub := hub, a := a }, os.map .hub)
    | _ => none
  | .direct ok =>
    match s.a with
    | .direct e => some ({ s with a := .idle }, [.direct e ok])
    | _ => none
  | .watch a =>
    match watchStep P.cfg s.hub a with
    | some (hub, os) => some ({ s with hub := hub }, os.map .hub)
    | none => none

def Outbound.start (connected : Bool) (now : UInt64) : Outbound where
  hub := .start connected now
  a := .idle
  reads := []

def outMach (P : OutConfig) : Mach Outbound OutAct OutObs where
  init s := ∃ connected now, s = .start connected now
  step := outStep P

/-! ## What a step can do -/

inductive OutStep (P : OutConfig) (s : Outbound) : OutAct → Outbound → List OutObs → Prop where
  | skip (topic : String) (data : Value) (ha : s.a = .idle)
      (hp : a2nPayload P.serde P.allow topic data = none) :
      OutStep P s (.read topic data) { s with reads := s.reads ++ [(topic, data)] } []
  | read (topic : String) (data : Value) (payload : Bytes) (ha : s.a = .idle)
      (hp : a2nPayload P.serde P.allow topic data = some payload) :
      OutStep P s (.read topic data)
        { s with a := .offer { topic, payload, seq := s.reads.length },
                 reads := s.reads ++ [(topic, data)] } []
  | refused (e : BufferedEvent) (ha : s.a = .offer e) (hs : s.hub.live.state = .up) :
      OutStep P s .offer { s with a := .direct e } [.hub (.refused e)]
  | accepted (e : BufferedEvent) (popped kept : List BufferedEvent) (ha : s.a = .offer e)
      (hs : s.hub.live.state = .down) (he : evict P.cfg s.hub.live.buffer e = (popped, kept)) :
      OutStep P s .offer
        { s with hub := { s.hub with live := { s.hub.live with
                   buffer := kept ++ [e], dropped := s.hub.live.dropped + .ofNat popped.length } },
                 a := .idle }
        ((popped.map Obs.overflowed ++ [Obs.accepted e]).map .hub)
  | direct (e : BufferedEvent) (ok : Bool) (ha : s.a = .direct e) :
      OutStep P s (.direct ok) { s with a := .idle } [.direct e ok]
  | watch (a : WAct) (hub : Hub) (os : List Obs) (hst : HubStep P.cfg s.hub (.watch a) hub os) :
      OutStep P s (.watch a) { s with hub := hub } (os.map .hub)

theorem outStep_cases {P : OutConfig} {s s' : Outbound} {a : OutAct} {os : List OutObs}
    (hst : outStep P s a = some (s', os)) : OutStep P s a s' os := by
  cases a with
  | read topic data =>
    simp only [outStep] at hst
    split at hst
    · rename_i ha
      cases hp : a2nPayload P.serde P.allow topic data with
      | none =>
        simp only [hp] at hst
        cases hst
        rw [← ha]
        exact .skip topic data ha hp
      | some payload =>
        simp only [hp] at hst
        cases hst
        exact .read topic data payload ha hp
    · cases hst
  | offer =>
    simp only [outStep] at hst
    split at hst
    · rename_i e ha
      cases hs : s.hub.live.state with
      | up =>
        simp only [bufferStep, maybeBuffer_up P.cfg e hs] at hst
        cases hst
        exact .refused e ha hs
      | down =>
        simp only [bufferStep, maybeBuffer_down P.cfg e hs] at hst
        cases hst
        exact .accepted e _ _ ha hs rfl
    · cases hst
  | direct ok =>
    simp only [outStep] at hst
    split at hst
    · cases hst
      exact .direct _ ok ‹_›
    · cases hst
  | watch a =>
    simp only [outStep] at hst
    split at hst
    · rename_i hw
      cases hst
      exact .watch a _ _ (watchStep_cases hw)
    · cases hst

/-- Every listed step is enabled. -/
theorem OutStep.enabled {P : OutConfig} {s s' : Outbound} {a : OutAct} {os : List OutObs}
    (hst : OutStep P s a s' os) : outStep P s a = some (s', os) := by
  cases hst with
  | skip topic data ha hp => simp [outStep, ha, hp]
  | read topic data payload ha hp => simp [outStep, ha, hp]
  | refused e ha hs => simp [outStep, ha, bufferStep, maybeBuffer_up P.cfg e hs]
  | accepted e popped kept ha hs he =>
    simp [outStep, ha, bufferStep, maybeBuffer_down P.cfg e hs, he]
  | direct e ok ha => simp [outStep, ha]
  | watch a hub os hw =>
    have := hw.enabled
    simp only [hubStep] at this
    simp [outStep, this]

/-- An invariant of the outbound half is proved step by step through `OutStep`. -/
theorem out_inductive {P : OutConfig} {G : Outbound → OutAct → Prop}
    {I : List OutAct → Outbound → List OutObs → Prop}
    (hinit : ∀ connected now, I [] (.start connected now) [])
    (hstep : ∀ as s tr a s' os, I as s tr → G s a → OutStep P s a s' os →
      I (as ++ [a]) s' (tr ++ os)) : (outMach P).Inductive G I where
  init := by
    rintro s ⟨connected, now, rfl⟩
    exact hinit connected now
  step as s tr a s' os hI hg hst := hstep as s tr a s' os hI hg (outStep_cases hst)

/-! ## The watcher inside -/

/-- What the shared state and the watcher showed. -/
def OutObs.asHub : OutObs → Option Obs
  | .hub o => some o
  | .direct _ _ => none

def hubOf (tr : List OutObs) : List Obs := tr.filterMap OutObs.asHub

@[simp] theorem hubOf_append (a b : List OutObs) : hubOf (a ++ b) = hubOf a ++ hubOf b :=
  List.filterMap_append

@[simp] theorem hubOf_hub (os : List Obs) : hubOf (os.map .hub) = os := by
  simp [hubOf, List.filterMap_map, Function.comp_def, OutObs.asHub]

/-- The shared state and the watcher move as `hubMach` does. -/
theorem out_simulates (P : OutConfig) :
    Mach.Simulates (outMach P) Mach.free (hubMach P.cfg) Mach.free Outbound.hub OutObs.asHub := by
  intro s a s' os _ hst
  show ∃ bs, (hubMach P.cfg).Run Mach.free s.hub bs s'.hub (hubOf os)
  cases outStep_cases hst with
  | skip topic data ha hp => exact ⟨[], .nil⟩
  | read topic data payload ha hp => exact ⟨[], .nil⟩
  | refused e ha hs => exact ⟨[.buffer e], .single trivial (HubStep.refused e hs).enabled⟩
  | accepted e popped kept ha hs he =>
    rw [hubOf_hub]
    exact ⟨[.buffer e], .single trivial (HubStep.accepted e popped kept hs he).enabled⟩
  | direct e ok ha => exact ⟨[], .nil⟩
  | watch a hub os hw =>
    rw [hubOf_hub]
    exact ⟨[.watch a], .single trivial hw.enabled⟩

/-- What is proved of `hubMach` holds inside every outbound half. -/
theorem hub_reaches {P : OutConfig} {G : Outbound → OutAct → Prop} {as : List OutAct}
    {s : Outbound} {tr : List OutObs} (hr : (outMach P).Reaches G as s tr) :
    ∃ bs, (hubMach P.cfg).Reaches Mach.free bs s.hub (hubOf tr) := by
  refine (out_simulates P).reaches ?_ hr
  rintro s ⟨connected, now, rfl⟩
  exact ⟨connected, now, rfl⟩

/-! ## The ledger -/

/-- Handed to NATS by the two tasks together, in order. -/
def handedOf (tr : List OutObs) : List BufferedEvent := (tr.filterMap OutObs.handed).map Prod.fst

@[simp] theorem handedOf_append (a b : List OutObs) :
    handedOf (a ++ b) = handedOf a ++ handedOf b := by
  simp [handedOf]

theorem handedOf_hub (os : List Obs) : handedOf (os.map .hub) = (flushedOf os).map Prod.fst := by
  unfold handedOf flushedOf
  rw [List.filterMap_map]
  congr 2
  funext o
  cases o <;> rfl

/-- Every event the outbound half has, or had and handed over. -/
def ledger (s : Outbound) (tr : List OutObs) : List BufferedEvent :=
  handedOf tr ++ (drained s.hub.w.pc ++ s.hub.live.buffer) ++ s.a.pending

theorem handed_sublist (s : Outbound) (tr : List OutObs) :
    (handedOf tr).Sublist (ledger s tr) := by
  unfold ledger
  rw [List.append_assoc]
  exact List.sublist_append_left _ _

/-- `e` is what the loop made of one of its reads. -/
def FromRead (P : OutConfig) (reads : List (String × Value)) (e : BufferedEvent) : Prop :=
  ∃ data, reads[e.seq]? = some (e.topic, data) ∧
    a2nPayload P.serde P.allow e.topic data = some e.payload

theorem FromRead.seq_lt {P : OutConfig} {reads : List (String × Value)} {e : BufferedEvent}
    (h : FromRead P reads e) : e.seq < reads.length := by
  obtain ⟨data, hr, -⟩ := h
  exact (List.getElem?_eq_some_iff.mp hr).1

theorem FromRead.mono {P : OutConfig} {reads more : List (String × Value)} {e : BufferedEvent}
    (h : FromRead P reads e) : FromRead P (reads ++ more) e := by
  have hlt := h.seq_lt
  obtain ⟨data, hr, hp⟩ := h
  exact ⟨data, by rw [List.getElem?_append_left hlt]; exact hr, hp⟩

/-- The watcher moves events from the buffer to the flush and from there to
NATS, in order. -/
theorem watch_ledger {cfg : HubWatcherConfig} {h h' : Hub} {a : WAct} {os : List Obs}
    (hst : HubStep cfg h (.watch a) h' os) :
    (flushedOf os).map Prod.fst ++ (drained h'.w.pc ++ h'.live.buffer) =
      drained h.w.pc ++ h.live.buffer := by
  cases hst with
  | flipUp dur hpc => simp [flushedOf, drained, hpc]
  | flipDown hpc => simp [flushedOf, drained, hpc]
  | sink e evs dur ok hpc => simp [flushedOf, drained, hpc]
  | _ => simp [flushedOf, drained, *]

/-- What a step does to the ledger: a read that passes is added at the end; the
loop's own publish overtakes whatever is drained or buffered; no other step
reorders. -/
theorem ledger_step {P : OutConfig} {s s' : Outbound} {a : OutAct} {os : List OutObs}
    (hst : OutStep P s a s' os) (tr : List OutObs) :
    (∃ e, e.seq = s.reads.length ∧ FromRead P s'.reads e ∧
        ledger s' (tr ++ os) = ledger s tr ++ [e]) ∨
      (ledger s' (tr ++ os)).Sublist (ledger s tr) ∨
      ∃ e ok, s.a = .direct e ∧ a = .direct ok ∧ ledger s' (tr ++ os) =
        handedOf tr ++ [e] ++ (drained s.hub.w.pc ++ s.hub.live.buffer) := by
  cases hst with
  | skip topic data ha hp =>
    refine .inr (.inl ?_)
    rw [List.append_nil]
    exact .refl _
  | read topic data payload ha hp =>
    refine .inl ⟨{ topic, payload, seq := s.reads.length }, rfl, ⟨data, by simp, hp⟩, ?_⟩
    simp [ledger, APc.pending, ha]
  | refused e ha hs =>
    refine .inr (.inl ?_)
    simp [ledger, APc.pending, ha, handedOf, OutObs.handed]
  | accepted e popped kept ha hs he =>
    refine .inr (.inl ?_)
    have hsplit := evict_append P.cfg s.hub.live.buffer e
    rw [he] at hsplit
    have hnone : handedOf ((popped.map Obs.overflowed ++ [Obs.accepted e]).map .hub) = [] := by
      rw [handedOf_hub, flushedOf_append, (overflowed_reads popped).2.2]
      rfl
    unfold ledger
    rw [handedOf_append, hnone, ← hsplit, ha]
    simp [APc.pending]
  | direct e ok ha =>
    refine .inr (.inr ⟨e, ok, ha, rfl, ?_⟩)
    simp [ledger, APc.pending, handedOf, OutObs.handed]
  | watch a hub os hw =>
    refine .inr (.inl ?_)
    unfold ledger
    rw [handedOf_append, handedOf_hub, List.append_assoc (handedOf tr), watch_ledger hw]

theorem reads_step {P : OutConfig} {s s' : Outbound} {a : OutAct} {os : List OutObs}
    (hst : OutStep P s a s' os) : ∃ more, s'.reads = s.reads ++ more := by
  cases hst with
  | skip topic data ha hp => exact ⟨_, rfl⟩
  | read topic data payload ha hp => exact ⟨_, rfl⟩
  | _ => exact ⟨[], by simp⟩

/-- No read is in the ledger twice, and everything in it came from a read. -/
structure OutInv (P : OutConfig) (s : Outbound) (tr : List OutObs) : Prop where
  once : ((ledger s tr).map BufferedEvent.seq).Nodup
  source : ∀ e ∈ ledger s tr, FromRead P s.reads e

theorem outInv_step {P : OutConfig} {s s' : Outbound} {a : OutAct} {os tr : List OutObs}
    (hI : OutInv P s tr) (hst : OutStep P s a s' os) : OutInv P s' (tr ++ os) := by
  obtain ⟨more, hreads⟩ := reads_step hst
  have hsource : ∀ e ∈ ledger s tr, FromRead P s'.reads e := by
    intro e he
    rw [hreads]
    exact (hI.source e he).mono
  rcases ledger_step hst tr with ⟨e, hseq, hread, hl⟩ | hsub | ⟨e, ok, ha, -, hl⟩
  · constructor
    · rw [hl, List.map_append, List.map_singleton, List.nodup_append_comm]
      refine List.nodup_cons.mpr ⟨fun hmem => ?_, hI.once⟩
      obtain ⟨e', he', hs'⟩ := List.mem_map.mp hmem
      have := (hI.source e' he').seq_lt
      omega
    · intro e' he'
      rw [hl] at he'
      rcases List.mem_append.mp he' with he' | he'
      · exact hsource e' he'
      · rw [List.mem_singleton] at he'
        exact he' ▸ hread
  · exact ⟨hI.once.sublist (hsub.map _), fun e he => hsource e (hsub.subset he)⟩
  · have hperm : (ledger s' (tr ++ os)).Perm (ledger s tr) := by
      rw [hl, ledger, ha, List.append_assoc, List.append_assoc]
      exact .append_left _ List.perm_append_comm
    exact ⟨(hperm.map _).nodup_iff.mpr hI.once, fun e he => hsource e (hperm.subset he)⟩

theorem outInv_inductive (P : OutConfig) :
    (outMach P).Inductive Mach.free (fun _ s tr => OutInv P s tr) := by
  refine out_inductive ?_ fun as s tr a s' os hI _ hst => outInv_step hI hst
  intro connected now
  exact ⟨List.nodup_nil, fun e he => (nomatch he)⟩

end WmBusbridge.L4
