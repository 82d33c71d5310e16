import WmBusbridge.L4Bridge.Outbound

/-!
# Publish order across an outage

The flush runs outside the lock, after the state is already UP, so the bridge
loop may publish directly while drained events still wait for their turn.

* `publish_in_order`: in every run without such a publish, events are handed to
  NATS in the order in which the bridge read them.
* `flush_overtaken`: one direct publish during a flush breaks the order.
-/
namespace WmBusbridge.L4
open L0 L1 L3

/-- The loop does not publish past events that the flush still has to hand over. -/
def QuietDirect (s : Outbound) : OutAct → Prop
  | .direct _ => drained s.hub.w.pc = []
  | _ => True

instance (s : Outbound) : (a : OutAct) → Decidable (QuietDirect s a)
  | .direct _ => inferInstanceAs (Decidable (drained s.hub.w.pc = []))
  | .read _ _ | .offer | .watch _ => .isTrue trivial

/-- What was handed to NATS is in the order of the reads it came from. -/
structure InOrder (P : OutConfig) (s : Outbound) (tr : List OutObs) : Prop where
  order : ((handedOf tr).map BufferedEvent.seq).Pairwise (· < ·)
  source : ∀ e ∈ handedOf tr, FromRead P s.reads e

/-! ## The invariant -/

/-- The whole ledger is in read order. The loop holds an event it may publish
only while the buffer is empty: it alone fills it. -/
structure OrderInv (P : OutConfig) (s : Outbound) (tr : List OutObs) : Prop where
  out : OutInv P s tr
  coherent : Coherent s.hub
  sorted : ((ledger s tr).map BufferedEvent.seq).Pairwise (· < ·)
  direct_empty : ∀ e, s.a = .direct e → s.hub.live.buffer = []

theorem coherent_out {P : OutConfig} {s s' : Outbound} {a : OutAct} {os : List OutObs}
    (hI : Coherent s.hub) (hst : OutStep P s a s' os) : Coherent s'.hub := by
  cases hst with
  | accepted e popped kept ha hs he => exact coherent_step hI (.accepted e popped kept hs he)
  | watch a hub os hw => exact coherent_step hI hw
  | _ => exact hI

/-- No step of the watcher fills the buffer. -/
theorem watch_empty {cfg : HubWatcherConfig} {h h' : Hub} {a : WAct} {os : List Obs}
    (hst : HubStep cfg h (.watch a) h' os) (he : h.live.buffer = []) : h'.live.buffer = [] := by
  cases hst with
  | flipUp dur hpc => rfl
  | _ => exact he

theorem direct_empty_step {P : OutConfig} {s s' : Outbound} {a : OutAct} {os tr : List OutObs}
    (hI : OrderInv P s tr) (hst : OutStep P s a s' os) {e : BufferedEvent}
    (ha' : s'.a = .direct e) : s'.hub.live.buffer = [] := by
  cases hst with
  | skip topic data ha hp => exact hI.direct_empty e ha'
  | read topic data payload ha hp => cases ha'
  | refused e ha hs => exact hI.coherent.up_empty hs
  | accepted e popped kept ha hs he => cases ha'
  | direct e ok ha => cases ha'
  | watch a hub os hw => exact watch_empty hw (hI.direct_empty e ha')

/-- Only the loop's own publish can break the order, and only past drained or
buffered events. -/
theorem sorted_step {P : OutConfig} {s s' : Outbound} {a : OutAct} {os tr : List OutObs}
    (hI : OrderInv P s tr) (hg : QuietDirect s a) (hst : OutStep P s a s' os) :
    ((ledger s' (tr ++ os)).map BufferedEvent.seq).Pairwise (· < ·) := by
  rcases ledger_step hst tr with ⟨e, hseq, -, hl⟩ | hsub | ⟨e, ok, ha, rfl, hl⟩
  · rw [hl, List.map_append, List.map_singleton]
    refine List.pairwise_append.mpr ⟨hI.sorted, List.pairwise_singleton _ _, ?_⟩
    intro m hm n hn
    obtain ⟨e', he', rfl⟩ := List.mem_map.mp hm
    rw [List.mem_singleton] at hn
    rw [hn, hseq]
    exact (hI.out.source e' he').seq_lt
  · exact hI.sorted.sublist (hsub.map _)
  · have hd : drained s.hub.w.pc = [] := hg
    have hsame : ledger s' (tr ++ os) = ledger s tr := by
      rw [hl, ledger, ha, hd, hI.direct_empty e ha]
      simp [APc.pending]
    rw [hsame]
    exact hI.sorted

theorem orderInv_inductive (P : OutConfig) :
    (outMach P).Inductive QuietDirect (fun _ s tr => OrderInv P s tr) := by
  refine out_inductive ?_ fun as s tr a s' os hI hg hst => ?_
  · intro connected now
    exact ⟨⟨List.nodup_nil, fun e he => (nomatch he)⟩, coherent_start connected now, .nil,
      fun e he => (nomatch he)⟩
  · exact ⟨outInv_step hI.out hst, coherent_out hI.coherent hst, sorted_step hI hg hst,
      fun e ha' => direct_empty_step hI hst ha'⟩

/-- **Publish order is read order**, in every run in which the loop never
publishes during a flush. -/
theorem publish_in_order (P : OutConfig) {as : List OutAct} {s : Outbound} {tr : List OutObs}
    (hr : (outMach P).Reaches QuietDirect as s tr) : InOrder P s tr := by
  have hI := (orderInv_inductive P).reaches hr
  have hsub := handed_sublist s tr
  exact ⟨hI.sorted.sublist (hsub.map _), fun e he => hI.out.source e (hsub.subset he)⟩

/-! ## A direct publish during the flush -/

def outEx : OutConfig where
  cfg := cfgEx
  allow := allowList ""
  serde := .only .null [0x6E, 0x75, 0x6C, 0x6C]

/-- One event is buffered in an outage; the hub comes back, the watcher drains
it, and the loop reads a second event and finds the hub UP. -/
def recoverEx : List OutAct :=
  [.watch (.probe false), .watch (.look 10 10), .watch .flip, .read "wm.fleet.a" .null, .offer,
   .watch (.emit ⟨true, true, true⟩), .watch (.probe true), .watch (.look 15 15), .watch .flip,
   .read "wm.fleet.b" .null, .offer]

def readEx (topic : String) (seq : Nat) : BufferedEvent := ⟨topic, [0x6E, 0x75, 0x6C, 0x6C], seq⟩

/-- Both events have been handed over. -/
def recoveredEx : Outbound where
  hub := {
    live := { state := .up, buffer := [], dropped := 0 }
    w := { pc := .flush [] 5, consecutiveFailures := 0, consecutiveSuccesses := 0, lastOkTs := 15,
           downSinceTs := 10, busPub := true } }
  a := .idle
  reads := [("wm.fleet.a", .null), ("wm.fleet.b", .null)]

/-- What is seen of `recoverEx` and then of the two publishes. -/
def recoveredTraceEx (last : List OutObs) : List OutObs :=
  [.hub (.probed false), .hub (.flipped .down), .hub (.accepted (readEx "wm.fleet.a" 0)),
   .hub (.announced "wm.fleet.hub.down" (hubDownData "nomad" 10 0) true), .hub (.probed true),
   .hub (.flipped .up), .hub (.refused (readEx "wm.fleet.b" 1))] ++ last

/-- The flush hands over the first event, then the loop publishes the second. -/
theorem recoverEx_in_order : InOrder outEx recoveredEx (recoveredTraceEx
    [.hub (.flushed (readEx "wm.fleet.a" 0) true), .direct (readEx "wm.fleet.b" 1) true]) :=
  publish_in_order outEx ⟨Outbound.start true 0, ⟨true, 0, rfl⟩,
    Mach.run_of_exec (show (outMach outEx).exec QuietDirect (.start true 0)
      (recoverEx ++ [.watch (.sink true), .direct true]) = _ from rfl)⟩

/-- The other way round, the second event leaves first. -/
theorem flush_overtaken :
    ¬ ∀ (P : OutConfig) (as : List OutAct) (s : Outbound) (tr : List OutObs),
      (outMach P).Reaches Mach.free as s tr → InOrder P s tr := by
  intro h
  have hrun : (outMach outEx).Run Mach.free (.start true 0)
      (recoverEx ++ [.direct true, .watch (.sink true)]) recoveredEx (recoveredTraceEx
        [.direct (readEx "wm.fleet.b" 1) true, .hub (.flushed (readEx "wm.fleet.a" 0) true)]) :=
    Mach.run_of_exec rfl
  have ho := (h outEx _ _ _ ⟨_, ⟨true, 0, rfl⟩, hrun⟩).order
  exact absurd ho (by decide)

end WmBusbridge.L4
