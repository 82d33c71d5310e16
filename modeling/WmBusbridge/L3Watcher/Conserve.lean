import Mathlib.Data.List.Perm.Basic
import WmBusbridge.L3Watcher.RunWatcher

/-!
# What becomes of a buffered event

`outages` cuts a trace into outages, newest first: what `maybe_buffer` accepted,
what the eviction loop popped, and what was handed to the sink.

* `buffer_conserved`: in every run, each outage's accepted events are its popped
  ones followed, in order, by those handed over, those drained and waiting, and
  those still buffered.
* `flush_accounted`: so every accepted event was published, was refused by the
  sink in its one attempt, is still held, or is counted in `dropped`.
-/
namespace WmBusbridge.L3
open L0 L1

/-! ## Reading a trace -/

def acceptedOf (tr : List Obs) : List BufferedEvent :=
  tr.filterMap fun
    | .accepted e => some e
    | _ => none

def overflowedOf (tr : List Obs) : List BufferedEvent :=
  tr.filterMap fun
    | .overflowed e => some e
    | _ => none

/-- Handed to the sink, with the sink's result. -/
def flushedOf (tr : List Obs) : List (BufferedEvent × Bool) :=
  tr.filterMap fun
    | .flushed e ok => some (e, ok)
    | _ => none

/-- One outage. `ended`: the hub came back up. -/
structure Outage where
  accepted : List BufferedEvent
  dropped : List BufferedEvent
  handed : List (BufferedEvent × Bool)
  ended : Bool

/-- One more observation. An event accepted outside an outage would belong to
none. -/
def note (ks : List Outage) (o : Obs) : List Outage :=
  match o, ks with
  | .flipped .down, ks => ⟨[], [], [], false⟩ :: ks
  | .flipped .up, k :: ks => { k with ended := true } :: ks
  | .accepted e, k :: ks =>
    if k.ended then k :: ks else { k with accepted := k.accepted ++ [e] } :: ks
  | .overflowed e, k :: ks => { k with dropped := k.dropped ++ [e] } :: ks
  | .flushed e ok, k :: ks => { k with handed := k.handed ++ [(e, ok)] } :: ks
  | _, ks => ks

/-- The outages of a trace, newest first. -/
def outages (tr : List Obs) : List Outage := tr.foldl note []

theorem outages_append (tr os : List Obs) : outages (tr ++ os) = os.foldl note (outages tr) := by
  simp [outages]

@[simp] theorem acceptedOf_append (a b : List Obs) :
    acceptedOf (a ++ b) = acceptedOf a ++ acceptedOf b := List.filterMap_append

@[simp] theorem overflowedOf_append (a b : List Obs) :
    overflowedOf (a ++ b) = overflowedOf a ++ overflowedOf b := List.filterMap_append

@[simp] theorem flushedOf_append (a b : List Obs) :
    flushedOf (a ++ b) = flushedOf a ++ flushedOf b := List.filterMap_append

theorem overflowed_reads (evs : List BufferedEvent) :
    acceptedOf (evs.map .overflowed) = [] ∧ overflowedOf (evs.map .overflowed) = evs ∧
      flushedOf (evs.map .overflowed) = [] := by
  simp [acceptedOf, overflowedOf, flushedOf, List.filterMap_map]

theorem note_overflowed (evs : List BufferedEvent) : ∀ (k : Outage) (ks : List Outage),
    (evs.map Obs.overflowed).foldl note (k :: ks) =
      { k with dropped := k.dropped ++ evs } :: ks := by
  induction evs with
  | nil => intro k ks; simp
  | cons e evs ih => intro k ks; simp [note, ih]

/-- Oldest outage first. -/
def total {α : Type} (f : Outage → List α) (ks : List Outage) : List α := ks.reverse.flatMap f

@[simp] theorem total_cons {α : Type} (f : Outage → List α) (k : Outage) (ks : List Outage) :
    total f (k :: ks) = total f ks ++ f k := by
  simp [total]

/-! ## The invariant -/

/-- The newest outage against what is in flight and buffered. -/
def HeadInv (hub : Hub) : List Outage → Prop
  | [] => hub.live.state = .up ∧ drained hub.w.pc = []
  | k :: ks => k.ended = decide (hub.live.state = .up) ∧ (hub.live.state = .down → k.handed = []) ∧
      k.accepted = k.dropped ++ k.handed.map Prod.fst ++ drained hub.w.pc ++ hub.live.buffer ∧
      ∀ p ∈ ks, p.accepted = p.dropped ++ p.handed.map Prod.fst

structure ConserveInv (cfg : HubWatcherConfig) (hub : Hub) (tr : List Obs) : Prop where
  coherent : Coherent hub
  head : HeadInv hub (outages tr)
  accepted_in : acceptedOf tr = total Outage.accepted (outages tr)
  dropped_in : overflowedOf tr = total Outage.dropped (outages tr)
  handed_in : flushedOf tr = total Outage.handed (outages tr)
  dropped : hub.live.dropped = .ofNat (overflowedOf tr).length
  capped : hub.live.buffer.length ≤ max 1 cfg.bufferMaxEvents

/-- Observations the ledger does not read. -/
structure Silent (os : List Obs) : Prop where
  note : ∀ ks, os.foldl note ks = ks
  accepted : acceptedOf os = []
  overflowed : overflowedOf os = []
  flushed : flushedOf os = []

theorem silent_nil : Silent [] := ⟨fun _ => rfl, rfl, rfl, rfl⟩

theorem silent_refused (e : BufferedEvent) : Silent [.refused e] :=
  ⟨fun ks => by cases ks <;> rfl, rfl, rfl, rfl⟩

theorem silent_probed (ok : Bool) : Silent [.probed ok] :=
  ⟨fun ks => by cases ks <;> rfl, rfl, rfl, rfl⟩

theorem silent_announced (topic : String) (data : Value) (written : Bool) :
    Silent [.announced topic data written] :=
  ⟨fun ks => by cases ks <;> rfl, rfl, rfl, rfl⟩

/-- A step the ledger does not read, on a hub with the same buffer and the same
events in flight. -/
theorem ConserveInv.frame {cfg : HubWatcherConfig} {hub hub' : Hub} {tr os : List Obs}
    (hI : ConserveInv cfg hub tr) (hq : Silent os) (hcoh : Coherent hub')
    (hlive : hub'.live = hub.live) (hdr : drained hub'.w.pc = drained hub.w.pc) :
    ConserveInv cfg hub' (tr ++ os) where
  coherent := hcoh
  head := by
    rw [outages_append, hq.note]
    have h := hI.head
    unfold HeadInv at h ⊢
    rwa [hlive, hdr]
  accepted_in := by
    rw [outages_append, hq.note, acceptedOf_append, hq.accepted, List.append_nil]
    exact hI.accepted_in
  dropped_in := by
    rw [outages_append, hq.note, overflowedOf_append, hq.overflowed, List.append_nil]
    exact hI.dropped_in
  handed_in := by
    rw [outages_append, hq.note, flushedOf_append, hq.flushed, List.append_nil]
    exact hI.handed_in
  dropped := by
    rw [overflowedOf_append, hq.overflowed, List.append_nil, hlive]
    exact hI.dropped
  capped := by
    rw [hlive]
    exact hI.capped

section Steps
variable {cfg : HubWatcherConfig} {hub : Hub} {tr : List Obs}

/-- DOWN: there is an outage, it is not over and nothing of it was handed over. -/
theorem ConserveInv.down (hI : ConserveInv cfg hub tr) (hs : hub.live.state = .down) :
    ∃ k ks, outages tr = k :: ks ∧ k.ended = false ∧ k.handed = [] ∧
      k.accepted = k.dropped ++ hub.live.buffer ∧
      ∀ p ∈ ks, p.accepted = p.dropped ++ p.handed.map Prod.fst := by
  have hh := hI.head
  have hdr := hI.coherent.drained_down hs
  cases hk : outages tr with
  | nil =>
    rw [hk] at hh
    rw [hh.1] at hs
    cases hs
  | cons k ks =>
    rw [hk] at hh
    obtain ⟨hov, hhand, hacc, hpast⟩ := hh
    refine ⟨k, ks, rfl, by simpa [hs] using hov, hhand hs, ?_, hpast⟩
    simpa [hhand hs, hdr] using hacc

theorem conserve_accepted (hI : ConserveInv cfg hub tr) {e : BufferedEvent}
    {popped kept : List BufferedEvent} (hs : hub.live.state = .down)
    (he : evict cfg hub.live.buffer e = (popped, kept))
    (hcoh : Coherent { hub with live := { hub.live with
      buffer := kept ++ [e], dropped := hub.live.dropped + .ofNat popped.length } }) :
    ConserveInv cfg { hub with live := { hub.live with
      buffer := kept ++ [e], dropped := hub.live.dropped + .ofNat popped.length } }
      (tr ++ (popped.map .overflowed ++ [.accepted e])) := by
  obtain ⟨k, ks, hk, hov, hhand, hacc, hpast⟩ := hI.down hs
  obtain ⟨ra, ro, rf⟩ := overflowed_reads popped
  have hsplit : popped ++ kept = hub.live.buffer := by
    have := evict_append cfg hub.live.buffer e
    rwa [he] at this
  have hlen : kept.length + 1 ≤ max 1 cfg.bufferMaxEvents := by
    have := evict_length cfg hub.live.buffer e
    rwa [he] at this
  have hout : outages (tr ++ (popped.map .overflowed ++ [.accepted e])) =
      { k with dropped := k.dropped ++ popped, accepted := k.accepted ++ [e] } :: ks := by
    rw [outages_append, hk, List.foldl_append, note_overflowed]
    simp [note, hov]
  refine ⟨hcoh, ?_, ?_, ?_, ?_, ?_, by simpa using hlen⟩
  · rw [hout]
    refine ⟨by simp [hov, hs], fun _ => hhand, ?_, hpast⟩
    simp [hhand, hI.coherent.drained_down hs, hacc, ← hsplit]
  · have := hI.accepted_in
    rw [hk, total_cons] at this
    rw [hout, total_cons, acceptedOf_append, acceptedOf_append, ra, this]
    simp [acceptedOf]
  · have := hI.dropped_in
    rw [hk, total_cons] at this
    rw [hout, total_cons, overflowedOf_append, overflowedOf_append, ro, this]
    simp [overflowedOf]
  · have := hI.handed_in
    rw [hk, total_cons] at this
    rw [hout, total_cons, flushedOf_append, flushedOf_append, rf, this]
    simp [flushedOf]
  · have := hI.dropped
    simp [this, overflowedOf]

theorem conserve_flipUp (hI : ConserveInv cfg hub tr) {dur : UInt64} (hpc : hub.w.pc = .goUp dur)
    (hcoh : Coherent
      { live := { hub.live with state := .up, buffer := [] },
        w := { hub.w with consecutiveSuccesses := 0, pc := .flush hub.live.buffer dur } }) :
    ConserveInv cfg
      { live := { hub.live with state := .up, buffer := [] },
        w := { hub.w with consecutiveSuccesses := 0, pc := .flush hub.live.buffer dur } }
      (tr ++ [.flipped .up]) := by
  have hs : hub.live.state = .down := by
    have := hI.coherent.pc
    rwa [hpc] at this
  obtain ⟨k, ks, hk, hov, hhand, hacc, hpast⟩ := hI.down hs
  have hout : outages (tr ++ [.flipped .up]) = { k with ended := true } :: ks := by
    rw [outages_append, hk]
    rfl
  refine ⟨hcoh, ?_, ?_, ?_, ?_, ?_, by simp⟩
  · rw [hout]
    refine ⟨rfl, fun e => (nomatch e), ?_, hpast⟩
    simp [hhand, hacc, drained]
  · have := hI.accepted_in
    rw [hk] at this
    rw [hout]
    simpa [acceptedOf] using this
  · have := hI.dropped_in
    rw [hk] at this
    rw [hout]
    simpa [overflowedOf] using this
  · have := hI.handed_in
    rw [hk] at this
    rw [hout]
    simpa [flushedOf] using this
  · simpa [overflowedOf] using hI.dropped

theorem conserve_flipDown (hI : ConserveInv cfg hub tr) (hpc : hub.w.pc = .goDown)
    (hcoh : Coherent
      { live := { hub.live with state := .down },
        w := { hub.w with consecutiveFailures := 0, pc := .emitDown } }) :
    ConserveInv cfg
      { live := { hub.live with state := .down },
        w := { hub.w with consecutiveFailures := 0, pc := .emitDown } }
      (tr ++ [.flipped .down]) := by
  have hs : hub.live.state = .up := by
    have := hI.coherent.pc
    rwa [hpc] at this
  have hbuf := hI.coherent.up_empty hs
  have hout : outages (tr ++ [.flipped .down]) = ⟨[], [], [], false⟩ :: outages tr := by
    rw [outages_append]
    rfl
  refine ⟨hcoh, ?_, ?_, ?_, ?_, ?_, hI.capped⟩
  · rw [hout]
    refine ⟨rfl, fun _ => rfl, by simp [drained, hbuf], ?_⟩
    -- the outage before this one is closed: nothing of it is in flight or buffered
    have hh := hI.head
    cases hk : outages tr with
    | nil => simp
    | cons k ks =>
      rw [hk] at hh
      obtain ⟨-, -, hacc, hpast⟩ := hh
      rw [hpc, hbuf] at hacc
      simpa [drained] using ⟨by simpa [drained] using hacc, hpast⟩
  · rw [hout]
    simpa [acceptedOf] using hI.accepted_in
  · rw [hout]
    simpa [overflowedOf] using hI.dropped_in
  · rw [hout]
    simpa [flushedOf] using hI.handed_in
  · simpa [overflowedOf] using hI.dropped

theorem conserve_sink (hI : ConserveInv cfg hub tr) {e : BufferedEvent}
    {evs : List BufferedEvent} {dur : UInt64} {ok : Bool} (hpc : hub.w.pc = .flush (e :: evs) dur)
    (hcoh : Coherent { hub with w := { hub.w with pc := .flush evs dur } }) :
    ConserveInv cfg { hub with w := { hub.w with pc := .flush evs dur } }
      (tr ++ [.flushed e ok]) := by
  have hs : hub.live.state = .up := by
    have := hI.coherent.pc
    rwa [hpc] at this
  have hh := hI.head
  cases hk : outages tr with
  | nil =>
    rw [hk] at hh
    have := hh.2
    rw [hpc] at this
    cases this
  | cons k ks =>
    rw [hk] at hh
    obtain ⟨hov, -, hacc, hpast⟩ := hh
    have hout : outages (tr ++ [.flushed e ok]) =
        { k with handed := k.handed ++ [(e, ok)] } :: ks := by
      rw [outages_append, hk]
      rfl
    refine ⟨hcoh, ?_, ?_, ?_, ?_, ?_, hI.capped⟩
    · rw [hout]
      refine ⟨hov, fun hd => ?_, ?_, hpast⟩
      · simp only at hd
        rw [hs] at hd
        cases hd
      · rw [hpc] at hacc
        simpa [drained] using hacc
    · have := hI.accepted_in
      rw [hk] at this
      rw [hout]
      simpa [acceptedOf] using this
    · have := hI.dropped_in
      rw [hk] at this
      rw [hout]
      simpa [overflowedOf] using this
    · have := hI.handed_in
      rw [hk, total_cons] at this
      rw [hout, total_cons, flushedOf_append, this]
      simp [flushedOf]
    · simpa [overflowedOf] using hI.dropped

end Steps

theorem conserve_step {cfg : HubWatcherConfig} {hub hub' : Hub} {tr os : List Obs} {a : HubAct}
    (hI : ConserveInv cfg hub tr) (hst : HubStep cfg hub a hub' os) :
    ConserveInv cfg hub' (tr ++ os) := by
  have hcoh := coherent_step hI.coherent hst
  cases hst with
  | refused e hs => exact hI.frame (silent_refused e) hcoh rfl rfl
  | accepted e popped kept hs he => exact conserve_accepted hI hs he hcoh
  | probe ok hpc => exact hI.frame (silent_probed ok) hcoh rfl (by rw [hpc]; rfl)
  | okStay now now' hpc hn => exact hI.frame silent_nil hcoh rfl (by rw [hpc]; rfl)
  | okUp now now' hpc hs ht => exact hI.frame silent_nil hcoh rfl (by rw [hpc]; rfl)
  | failStay now now' hpc hn => exact hI.frame silent_nil hcoh rfl (by rw [hpc]; rfl)
  | failDown now now' hpc hs ht => exact hI.frame silent_nil hcoh rfl (by rw [hpc]; rfl)
  | flipUp dur hpc => exact conserve_flipUp hI hpc hcoh
  | flipDown hpc => exact conserve_flipDown hI hpc hcoh
  | sink e evs dur ok hpc => exact conserve_sink hI hpc hcoh
  | emitUp dur env hpc => exact hI.frame (silent_announced _ _ _) hcoh rfl (by rw [hpc]; rfl)
  | emitDown env hpc => exact hI.frame (silent_announced _ _ _) hcoh rfl (by rw [hpc]; rfl)

theorem conserve_inductive (cfg : HubWatcherConfig) :
    (hubMach cfg).Inductive Mach.free (fun _ hub tr => ConserveInv cfg hub tr) := by
  refine hub_inductive ?_ fun as hub tr a hub' os hI _ hst => conserve_step hI hst
  intro connected now
  exact ⟨coherent_start connected now, ⟨rfl, rfl⟩, rfl, rfl, rfl, rfl,
    by simp [Hub.start, HubLivenessState.new]⟩

/-! ## Conservation -/

/-- The buffer at one point of a run. `current` and `past` are about the outage
under way (or the last one) and those before it; the three `_in` clauses say no
event escapes the split into outages. -/
structure Conserved (cfg : HubWatcherConfig) (hub : Hub) (tr : List Obs) : Prop where
  current : ∀ k ks, outages tr = k :: ks → k.accepted =
    k.dropped ++ k.handed.map Prod.fst ++ drained hub.w.pc ++ hub.live.buffer
  past : ∀ k ks, outages tr = k :: ks →
    ∀ p ∈ ks, p.accepted = p.dropped ++ p.handed.map Prod.fst
  before : outages tr = [] → drained hub.w.pc = [] ∧ hub.live.buffer = []
  accepted_in : acceptedOf tr = total Outage.accepted (outages tr)
  dropped_in : overflowedOf tr = total Outage.dropped (outages tr)
  handed_in : flushedOf tr = total Outage.handed (outages tr)
  dropped : hub.live.dropped = .ofNat ((outages tr).map fun k => k.dropped.length).sum
  up_empty : hub.live.state = .up → hub.live.buffer = []
  capped : hub.live.buffer.length ≤ max 1 cfg.bufferMaxEvents

theorem length_total {α : Type} (f : Outage → List α) (ks : List Outage) :
    (total f ks).length = (ks.map fun k => (f k).length).sum := by
  induction ks with
  | nil => rfl
  | cons k ks ih => simp [ih, Nat.add_comm]

/-- **Buffered events are conserved and stay in order**, in every run of the
watcher beside any callers of `maybe_buffer`, whatever the probes and the sink
answer. -/
theorem buffer_conserved (cfg : HubWatcherConfig) {as : List HubAct} {hub : Hub} {tr : List Obs}
    (hr : (hubMach cfg).Reaches Mach.free as hub tr) : Conserved cfg hub tr := by
  have hI := (conserve_inductive cfg).reaches hr
  have hh := hI.head
  refine ⟨?_, ?_, ?_, hI.accepted_in, hI.dropped_in, hI.handed_in, ?_, hI.coherent.up_empty,
    hI.capped⟩
  · intro k ks hk
    rw [hk] at hh
    exact hh.2.2.1
  · intro k ks hk
    rw [hk] at hh
    exact hh.2.2.2
  · intro hk
    rw [hk] at hh
    exact ⟨hh.2, hI.coherent.up_empty hh.1⟩
  · rw [hI.dropped, hI.dropped_in, length_total]

/-- One failure brings the hub down, one success brings it back; two events fit. -/
def cfgEx : HubWatcherConfig :=
  { downThreshold := 1, upThreshold := 1, bufferMaxEvents := 2, bufferMaxBytes := 1024,
    nodeId := "nomad" }

def evEx (n : UInt8) : BufferedEvent := ⟨"wm.fleet.presence", [n], n.toNat⟩

/-- An outage that overflows by one, and a flush whose second publish fails. -/
def outageEx : List HubAct :=
  [.watch (.probe false), .watch (.look 10 10), .watch .flip, .buffer (evEx 1), .buffer (evEx 2),
   .watch (.emit ⟨true, true, true⟩), .buffer (evEx 3), .watch (.probe true),
   .watch (.look 15 15), .watch .flip, .watch (.sink true), .watch (.sink false)]

def outageHubEx : Hub where
  live := { state := .up, buffer := [], dropped := 1 }
  w := { pc := .flush [] 5, consecutiveFailures := 0, consecutiveSuccesses := 0, lastOkTs := 15,
         downSinceTs := 10, busPub := true }

def outageTraceEx : List Obs :=
  [.probed false, .flipped .down, .accepted (evEx 1), .accepted (evEx 2),
   .announced "wm.fleet.hub.down" (hubDownData "nomad" 10 0) true, .overflowed (evEx 1),
   .accepted (evEx 3), .probed true, .flipped .up, .flushed (evEx 2) true, .flushed (evEx 3) false]

theorem outageEx_run : (hubMach cfgEx).Reaches Mach.free outageEx outageHubEx outageTraceEx :=
  ⟨Hub.start true 0, ⟨true, 0, rfl⟩, Mach.run_of_exec rfl⟩

theorem outageEx_conserved : (outages outageTraceEx).map Outage.accepted =
    [[evEx 1, evEx 2, evEx 3]] ∧ Conserved cfgEx outageHubEx outageTraceEx :=
  ⟨rfl, buffer_conserved cfgEx outageEx_run⟩

/-! ## Failed flushes -/

/-- Published by the flush. -/
def deliveredOf (tr : List Obs) : List BufferedEvent :=
  ((flushedOf tr).filter fun p => p.2).map Prod.fst

/-- Refused by the sink. -/
def failedOf (tr : List Obs) : List BufferedEvent :=
  ((flushedOf tr).filter fun p => !p.2).map Prod.fst

/-- Waiting for their publish, or buffered. -/
def held (hub : Hub) : List BufferedEvent := drained hub.w.pc ++ hub.live.buffer

/-- Every accepted event was published, is held, or is one of the `dropped`. -/
def FlushLosesNothing (hub : Hub) (tr : List Obs) : Prop :=
  ∃ counted : List BufferedEvent, .ofNat counted.length = hub.live.dropped ∧
    (acceptedOf tr).Perm (deliveredOf tr ++ held hub ++ counted)

/-- Every accepted event was published, was refused in its one attempt, is held
or was popped; only the popped ones are counted. -/
structure Accounted (hub : Hub) (tr : List Obs) : Prop where
  places : (acceptedOf tr).Perm (deliveredOf tr ++ failedOf tr ++ held hub ++ overflowedOf tr)
  dropped : hub.live.dropped = .ofNat (overflowedOf tr).length
  figures : (acceptedOf tr).length < 2 ^ 64 → (acceptedOf tr).length =
    (deliveredOf tr).length + (failedOf tr).length + (drained hub.w.pc).length +
      hub.live.bufferedCount + hub.live.dropped.toNat

/-- Each event handed over was published or refused. -/
theorem handed_split (tr : List Obs) :
    ((flushedOf tr).map Prod.fst).Perm (deliveredOf tr ++ failedOf tr) := by
  unfold deliveredOf failedOf
  rw [← List.map_append]
  exact ((List.filter_append_perm _ _).map _).symm

/-- Over closed outages, what was accepted is what was dropped and handed over. -/
theorem closed_total : ∀ ks : List Outage,
    (∀ p ∈ ks, p.accepted = p.dropped ++ p.handed.map Prod.fst) →
    (total Outage.accepted ks).Perm
      (total Outage.dropped ks ++ (total Outage.handed ks).map Prod.fst)
  | [], _ => .refl _
  | k :: ks, h => by
    have ih := closed_total ks fun p hp => h p (List.mem_cons_of_mem k hp)
    simp only [total_cons, List.map_append, h k List.mem_cons_self]
    have hmid : (total Outage.dropped ks ++ (total Outage.handed ks).map Prod.fst ++ k.dropped).Perm
        (total Outage.dropped ks ++ k.dropped ++ (total Outage.handed ks).map Prod.fst) := by
      rw [List.append_assoc, List.append_assoc]
      exact .append_left _ List.perm_append_comm
    rw [← List.append_assoc, ← List.append_assoc]
    exact ((ih.append_right _).trans hmid).append_right _

/-- The same with the newest outage, which may still be under way. -/
theorem head_total {hub : Hub} {ks : List Outage} (hh : HeadInv hub ks) (hcoh : Coherent hub) :
    (total Outage.accepted ks).Perm
      (total Outage.dropped ks ++ (total Outage.handed ks).map Prod.fst ++ held hub) := by
  cases ks with
  | nil =>
    have hheld : held hub = [] := by
      unfold held
      rw [hh.2, hcoh.up_empty hh.1]
      rfl
    rw [hheld]
    exact .refl _
  | cons k ks =>
    obtain ⟨-, -, hacc, hpast⟩ := hh
    -- close the newest outage by counting what is held as handed over
    have hclosed := closed_total
      ({ k with accepted := k.dropped ++ k.handed.map Prod.fst } :: ks) (by simpa using hpast)
    simp only [total_cons] at hclosed ⊢
    have h := hclosed.append_right (held hub)
    simp only [held, hacc] at h ⊢
    simpa [List.append_assoc] using h

/-- **Where an accepted event can be**, at every point of every run. -/
theorem flush_accounted (cfg : HubWatcherConfig) {as : List HubAct} {hub : Hub} {tr : List Obs}
    (hr : (hubMach cfg).Reaches Mach.free as hub tr) : Accounted hub tr := by
  have hI := (conserve_inductive cfg).reaches hr
  have hplaces : (acceptedOf tr).Perm
      (deliveredOf tr ++ failedOf tr ++ held hub ++ overflowedOf tr) := by
    have hbase : (acceptedOf tr).Perm
        (overflowedOf tr ++ (flushedOf tr).map Prod.fst ++ held hub) := by
      rw [hI.accepted_in, hI.dropped_in, hI.handed_in]
      exact head_total hI.head hI.coherent
    refine hbase.trans ?_
    rw [List.append_assoc]
    refine List.perm_append_comm.trans ?_
    exact (((handed_split tr).append_right _).append_right _)
  refine ⟨hplaces, hI.dropped, ?_⟩
  rw [hplaces.length_eq, hI.dropped]
  simp [held, HubLivenessState.bufferedCount]
  omega

/-- The sink's one failure in `outageEx` leaves an event in none of the three places. -/
theorem failed_flush_is_lost :
    ¬ ∀ (cfg : HubWatcherConfig) (as : List HubAct) (hub : Hub) (tr : List Obs),
      (hubMach cfg).Reaches Mach.free as hub tr → FlushLosesNothing hub tr := by
  intro h
  obtain ⟨counted, hlen, hperm⟩ := h cfgEx outageEx _ _ outageEx_run
  have hl : 3 = 1 + counted.length := hperm.length_eq.trans List.length_append
  have htwo : counted.length = 2 := by omega
  rw [htwo] at hlen
  exact absurd hlen (by decide)

theorem outageEx_accounted : failedOf outageTraceEx = [evEx 3] ∧
    Accounted outageHubEx outageTraceEx :=
  ⟨rfl, flush_accounted cfgEx outageEx_run⟩

end WmBusbridge.L3
