import Mathlib.Data.List.Count
import Mathlib.Data.List.Induction
import WmBusbridge.L4Bridge.Order

/-!
# Where a forwarded event can be

Of the events the loop reads, the policy passes some. Each of these is in one
place: handed to NATS, drained and waiting, buffered, in the loop's hands, or
popped by a cap.

* `outbound_conserved`: in every run of the two tasks.
-/
namespace WmBusbridge.L4
open L0 L1 L3

/-- What the policy makes of the reads, in order. -/
def passing (P : OutConfig) (reads : List (String × Value)) : List BufferedEvent :=
  reads.zipIdx.filterMap fun r =>
    (a2nPayload P.serde P.allow r.1.1 r.1.2).map fun payload =>
      { topic := r.1.1, payload, seq := r.2 }

/-- The events in the five places. -/
def places (s : Outbound) (tr : List OutObs) : List BufferedEvent :=
  ledger s tr ++ overflowedOf (hubOf tr)

section Places
variable {P : OutConfig} {s s' : Outbound} {a : OutAct} {os tr : List OutObs}

theorem passing_concat (P : OutConfig) (reads : List (String × Value)) (topic : String)
    (data : Value) : passing P (reads ++ [(topic, data)]) = passing P reads ++
      ((a2nPayload P.serde P.allow topic data).map fun payload =>
        { topic, payload, seq := reads.length : BufferedEvent }).toList := by
  rw [passing, List.zipIdx_append, List.filterMap_append]
  cases hp : a2nPayload P.serde P.allow topic data <;> simp [passing, hp]

/-- What the policy passes is numbered by its read. -/
theorem passing_seq (P : OutConfig) (reads : List (String × Value)) :
    ((passing P reads).map BufferedEvent.seq).Sublist (List.range reads.length) := by
  induction reads using List.reverseRecOn with
  | nil => exact .slnil
  | append_singleton reads r ih =>
    obtain ⟨topic, data⟩ := r
    rw [passing_concat, List.map_append, List.length_append, List.length_singleton, List.range_succ]
    cases a2nPayload P.serde P.allow topic data with
    | none =>
      rw [Option.map_none, Option.toList_none, List.map_nil, List.append_nil]
      exact ih.trans (List.sublist_append_left _ _)
    | some payload => exact ih.append (.refl _)

theorem overflowed_watch {cfg : HubWatcherConfig} {h h' : Hub} {a : WAct} {os : List Obs}
    (hst : HubStep cfg h (.watch a) h' os) : overflowedOf os = [] := by
  cases hst <;> rfl

/-- A step takes in what the policy makes of its read, and else only moves events
from place to place. -/
theorem places_step (hst : OutStep P s a s' os) (tr : List OutObs) :
    ∃ new, passing P s'.reads = passing P s.reads ++ new ∧
      (places s' (tr ++ os)).Perm (places s tr ++ new) := by
  cases hst with
  | skip topic data ha hp =>
    refine ⟨[], by rw [passing_concat, hp, Option.map_none, Option.toList_none], ?_⟩
    rw [List.append_nil, List.append_nil]
    exact .refl _
  | read topic data payload ha hp =>
    refine ⟨_, by rw [passing_concat, hp, Option.map_some, Option.toList_some], ?_⟩
    have hl : ledger { s with a := .offer ⟨topic, payload, s.reads.length⟩,
                              reads := s.reads ++ [(topic, data)] } tr =
        ledger s tr ++ [⟨topic, payload, s.reads.length⟩] := by
      simp [ledger, APc.pending, ha]
    rw [List.append_nil, places, hl, places, List.append_assoc, List.append_assoc]
    exact .append_left _ List.perm_append_comm
  | refused e ha hs =>
    refine ⟨[], (List.append_nil _).symm, ?_⟩
    have hhand : handedOf [.hub (.refused e)] = [] := rfl
    have hover : overflowedOf (hubOf [.hub (.refused e)]) = [] := rfl
    rw [List.append_nil, places, places, ledger, ledger, handedOf_append, hhand, hubOf_append,
      overflowedOf_append, hover, ha, List.append_nil, List.append_nil]
    exact .refl _
  | accepted e popped kept ha hs he =>
    refine ⟨[], (List.append_nil _).symm, ?_⟩
    have hsplit := evict_append P.cfg s.hub.live.buffer e
    rw [he] at hsplit
    have hnone : handedOf ((popped.map Obs.overflowed ++ [Obs.accepted e]).map .hub) = [] := by
      rw [handedOf_hub, flushedOf_append, (overflowed_reads popped).2.2]
      rfl
    have hover : overflowedOf (hubOf ((popped.map Obs.overflowed ++ [Obs.accepted e]).map .hub)) =
        popped := by
      rw [hubOf_hub, overflowedOf_append, (overflowed_reads popped).2.1]
      exact List.append_nil _
    -- the event in hand goes to the end of the buffer, the popped ones to the dropped
    rw [List.append_nil, places, places, ledger, ledger, handedOf_append, hnone, hubOf_append,
      overflowedOf_append, hover, ha, ← hsplit]
    refine List.perm_iff_count.mpr fun x => ?_
    simp only [List.count_append, APc.pending, List.count_nil]
    omega
  | direct e ok ha =>
    refine ⟨[], (List.append_nil _).symm, ?_⟩
    have hover : hubOf [.direct e ok] = [] := rfl
    have hhand : handedOf [.direct e ok] = [e] := rfl
    rw [List.append_nil, places, places, ledger, ledger, handedOf_append, hhand, hubOf_append,
      hover, ha]
    refine List.perm_iff_count.mpr fun x => ?_
    simp only [List.count_append, APc.pending, List.append_nil]
    omega
  | watch a hub os hw =>
    refine ⟨[], (List.append_nil _).symm, ?_⟩
    rw [List.append_nil, places, places, ledger, ledger, handedOf_append, handedOf_hub,
      List.append_assoc (handedOf tr), watch_ledger hw, hubOf_append, hubOf_hub,
      overflowedOf_append, overflowed_watch hw, List.append_nil]

end Places

/-- Each event the policy passed is in exactly one place, and numbered by the read it
came from; with nothing pending it was handed over or popped. -/
structure Placed (P : OutConfig) (s : Outbound) (tr : List OutObs) : Prop where
  places : (passing P s.reads).Perm (handedOf tr ++ (drained s.hub.w.pc ++ s.hub.live.buffer) ++
    s.a.pending ++ overflowedOf (hubOf tr))
  once : ((passing P s.reads).map BufferedEvent.seq).Nodup
  settled : s.a.pending = [] → drained s.hub.w.pc = [] → s.hub.live.state = .up →
    (passing P s.reads).Perm (handedOf tr ++ overflowedOf (hubOf tr))

theorem places_reaches {P : OutConfig} {as : List OutAct} {s : Outbound} {tr : List OutObs}
    (hr : (outMach P).Reaches Mach.free as s tr) : (passing P s.reads).Perm (places s tr) := by
  have hind : (outMach P).Inductive Mach.free
      (fun _ s tr => (passing P s.reads).Perm (places s tr)) := by
    refine out_inductive (fun connected now => .refl _) fun as s tr a s' os hI _ hst => ?_
    obtain ⟨new, hreads, hplaces⟩ := places_step hst tr
    rw [hreads]
    exact (hI.append_right new).trans hplaces.symm
  exact hind.reaches hr

/-- An UP hub has an empty buffer. -/
theorem up_empty_reaches {P : OutConfig} {as : List OutAct} {s : Outbound} {tr : List OutObs}
    (hr : (outMach P).Reaches Mach.free as s tr) (hs : s.hub.live.state = .up) :
    s.hub.live.buffer = [] := by
  obtain ⟨bs, hbs⟩ := hub_reaches hr
  exact ((conserve_inductive P.cfg).reaches hbs).coherent.up_empty hs

/-- **Nothing is lost or doubled on the way out**: the loop, the watcher and the
buffer between them have each event the policy passed in exactly one place, at
every point of every run. -/
theorem outbound_conserved (P : OutConfig) {as : List OutAct} {s : Outbound} {tr : List OutObs}
    (hr : (outMach P).Reaches Mach.free as s tr) : Placed P s tr := by
  have hperm := places_reaches hr
  refine ⟨hperm, (passing_seq P s.reads).nodup List.nodup_range, fun ha hd hs => ?_⟩
  rw [places, ledger, ha, hd, up_empty_reaches hr hs] at hperm
  simpa using hperm

theorem recoverEx_placed : Placed outEx recoveredEx (recoveredTraceEx
    [.hub (.flushed (readEx "wm.fleet.a" 0) true), .direct (readEx "wm.fleet.b" 1) true]) :=
  outbound_conserved outEx ⟨Outbound.start true 0, ⟨true, 0, rfl⟩,
    Mach.run_of_exec (show (outMach outEx).exec Mach.free (.start true 0)
      (recoverEx ++ [.watch (.sink true), .direct true]) = _ from rfl)⟩

end WmBusbridge.L4
