import WmBusbridge.L1Encoding.JsonText
import WmBusbridge.L3Watcher.RunWatcher

/-!
# Transitions and announcements

The watcher flips the state in one step and announces the flip in a later one,
after the flush when the hub came back.

* `isNotice_reaches`: what is announced in a run is one of the two notices.
* `announces_reaches`: in every run the flips alternate from DOWN, and all but
  at most one of them have been announced, in order.
-/
namespace WmBusbridge.L3
open L0 L1

/-- The transitions of a trace. -/
def flipsOf (tr : List Obs) : List HubState :=
  tr.filterMap fun
    | .flipped st => some st
    | _ => none

/-- What `emit_local` was called with. -/
def noticesOf (tr : List Obs) : List (String × Value) :=
  tr.filterMap fun
    | .announced topic data _ => some (topic, data)
    | _ => none

/-- What sessions know the two transitions by.
mirrors README.md:56 -/
def specTopic : HubState → String
  | .down => "wm.fleet.hub.down"
  | .up => "wm.fleet.hub.up"

theorem hubTopic_eq (st : HubState) : hubTopic st = specTopic st := by cases st <;> rfl

@[simp] theorem flipsOf_append (a b : List Obs) : flipsOf (a ++ b) = flipsOf a ++ flipsOf b :=
  List.filterMap_append

@[simp] theorem noticesOf_append (a b : List Obs) :
    noticesOf (a ++ b) = noticesOf a ++ noticesOf b := List.filterMap_append

/-- One of the two notices. -/
inductive IsNotice (cfg : HubWatcherConfig) : String × Value → Prop where
  | up (dur : UInt64) : IsNotice cfg (hubTopic .up, hubUpData cfg.nodeId dur)
  | down (since last : UInt64) : IsNotice cfg (hubTopic .down, hubDownData cfg.nodeId since last)

section Notice
variable {cfg : HubWatcherConfig} {n : String × Value}

theorem IsNotice.topic (h : IsNotice cfg n) : ∃ st, n.1 = hubTopic st := by
  cases h with
  | up dur => exact ⟨.up, rfl⟩
  | down since last => exact ⟨.down, rfl⟩

theorem IsNotice.depth (h : IsNotice cfg n) : n.2.json.depth = 1 := by
  cases h with
  | up dur => rfl
  | down since last => rfl

/-- Only whole numbers are announced. -/
theorem IsNotice.short (h : IsNotice cfg n) : n.2.json.Short := by
  cases h with
  | up dur => simp [hubUpData, Json.Short, Json.numbers, Json.numbersFields, Number.Short]
  | down since last =>
    simp [hubDownData, Json.Short, Json.numbers, Json.numbersFields, Number.Short]

theorem IsNotice.plain (h : IsNotice cfg n) : n.2.Plain := ⟨by rw [h.depth]; decide, h.short⟩

end Notice

theorem isNotice_step {cfg : HubWatcherConfig} {h h' : Hub} {a : HubAct} {os : List Obs}
    (hst : HubStep cfg h a h' os) : ∀ n ∈ noticesOf os, IsNotice cfg n := by
  cases hst with
  | emitUp dur env hpc => simpa [noticesOf] using IsNotice.up dur
  | emitDown env hpc => simpa [noticesOf] using IsNotice.down h.w.downSinceTs h.w.lastOkTs
  | accepted e popped kept hs he => simp [noticesOf, List.filterMap_map]
  | _ => simp [noticesOf]

theorem isNotice_reaches {cfg : HubWatcherConfig} {as : List HubAct} {h : Hub} {tr : List Obs}
    (hr : (hubMach cfg).Reaches Mach.free as h tr) : ∀ n ∈ noticesOf tr, IsNotice cfg n := by
  have hind : (hubMach cfg).Inductive Mach.free
      (fun _ _ tr => ∀ n ∈ noticesOf tr, IsNotice cfg n) := by
    refine hub_inductive (fun connected now n hn => nomatch hn) ?_
    intro as h tr a h' os hI _ hst n hn
    rw [noticesOf_append, List.mem_append] at hn
    exact hn.elim (hI n) (isNotice_step hst n)
  exact hind.reaches hr

/-- The flip under way, announced by a later step. -/
def WPc.pending : WPc → List HubState
  | .flush _ _ => [.up]
  | .emitDown => [.down]
  | _ => []

/-- DOWN, UP, DOWN, … -/
def alternating (n : Nat) : List HubState :=
  (List.range n).map fun k => if k % 2 = 0 then .down else .up

theorem alternating_succ (n : Nat) :
    alternating (n + 1) = alternating n ++ [if n % 2 = 0 then .down else .up] := by
  simp [alternating, List.range_succ]

/-- A prefix of the alternation alternates. -/
theorem alternating_take (k n : Nat) : (alternating n).take k = alternating (min k n) := by
  rw [alternating, ← List.map_take, List.take_range, alternating]

structure Announces (h : Hub) (tr : List Obs) : Prop where
  alternate : flipsOf tr = alternating (flipsOf tr).length
  state : h.live.state = if (flipsOf tr).length % 2 = 0 then .up else .down
  announced : (flipsOf tr).map specTopic =
    (noticesOf tr).map Prod.fst ++ h.w.pc.pending.map specTopic

/-- The announcements alternate as the flips do. -/
theorem Announces.notices_alternate {h : Hub} {tr : List Obs} (hI : Announces h tr) :
    ∃ n, (noticesOf tr).map Prod.fst = (alternating n).map specTopic := by
  have ht := congrArg (List.take ((noticesOf tr).map Prod.fst).length) hI.announced
  rw [List.take_left, ← List.map_take, hI.alternate, alternating_take] at ht
  exact ⟨_, ht.symm⟩

theorem WPc.pending_length (pc : WPc) : pc.pending.length ≤ 1 := by
  cases pc <;> simp [WPc.pending]

/-- A step that neither flips nor announces. -/
theorem Announces.quiet {h h' : Hub} {tr os : List Obs} (hI : Announces h tr)
    (hf : flipsOf os = []) (hn : noticesOf os = []) (hs : h'.live.state = h.live.state)
    (hp : h'.w.pc.pending = h.w.pc.pending) : Announces h' (tr ++ os) := by
  obtain ⟨halt, hst, hann⟩ := hI
  constructor
  · rw [flipsOf_append, hf, List.append_nil]
    exact halt
  · rw [flipsOf_append, hf, List.append_nil, hs]
    exact hst
  · rw [flipsOf_append, noticesOf_append, hf, hn, List.append_nil, List.append_nil, hp]
    exact hann

/-- After `n` flips, the state that is not the current one is the next flip and
the next state. -/
theorem flip_parity {n : Nat} {st : HubState}
    (h : (if n % 2 = 0 then HubState.up else HubState.down) ≠ st) :
    st = (if n % 2 = 0 then .down else .up) ∧ st = (if (n + 1) % 2 = 0 then .up else .down) := by
  rcases Nat.mod_two_eq_zero_or_one n with h0 | h1
  · rw [if_pos h0] at h
    cases st with
    | up => exact absurd rfl h
    | down => exact ⟨(if_pos h0).symm, (if_neg (by omega)).symm⟩
  · have hne : ¬ n % 2 = 0 := by omega
    rw [if_neg hne] at h
    cases st with
    | up => exact ⟨(if_neg hne).symm, (if_pos (by omega)).symm⟩
    | down => exact absurd rfl h

/-- The watcher flips: nothing was pending, and the flip now is. -/
theorem Announces.flip {h h' : Hub} {tr : List Obs} {st : HubState} (hI : Announces h tr)
    (hs : h.live.state ≠ st) (hs' : h'.live.state = st) (hp : h.w.pc.pending = [])
    (hp' : h'.w.pc.pending = [st]) : Announces h' (tr ++ [.flipped st]) := by
  obtain ⟨halt, hst, hann⟩ := hI
  have hflips : flipsOf (tr ++ [.flipped st]) = flipsOf tr ++ [st] := by simp [flipsOf]
  have hlen : (flipsOf tr ++ [st]).length = (flipsOf tr).length + 1 := by simp
  rw [hst] at hs
  obtain ⟨hnext, hnow⟩ := flip_parity hs
  refine ⟨?_, ?_, ?_⟩
  · rw [hflips, hlen, alternating_succ, ← halt, ← hnext]
  · rw [hflips, hlen, hs']
    exact hnow
  · rw [hflips, List.map_append, noticesOf_append, hann, hp, hp']
    simp [noticesOf]

/-- The pending flip is announced. -/
theorem Announces.announce {h h' : Hub} {tr : List Obs} {st : HubState} {data : Value}
    {written : Bool} (hI : Announces h tr) (hs : h'.live.state = h.live.state)
    (hp : h.w.pc.pending = [st]) (hp' : h'.w.pc.pending = []) :
    Announces h' (tr ++ [.announced (hubTopic st) data written]) := by
  obtain ⟨halt, hst, hann⟩ := hI
  have hflips : flipsOf (tr ++ [.announced (hubTopic st) data written]) = flipsOf tr := by
    simp [flipsOf]
  refine ⟨by rw [hflips]; exact halt, by rw [hflips, hs]; exact hst, ?_⟩
  rw [hflips, hann, hp, hp', noticesOf_append, hubTopic_eq]
  simp [noticesOf]

theorem announces_step {cfg : HubWatcherConfig} {h h' : Hub} {a : HubAct} {tr os : List Obs}
    (hc : Coherent h) (hI : Announces h tr) (hst : HubStep cfg h a h' os) :
    Announces h' (tr ++ os) := by
  have hpc' := hc.pc
  cases hst with
  | refused e hs => exact hI.quiet rfl rfl rfl rfl
  | accepted e popped kept hs he =>
    refine hI.quiet ?_ ?_ rfl rfl <;> simp [flipsOf, noticesOf, List.filterMap_map]
  | probe ok hpc => exact hI.quiet rfl rfl rfl (by rw [hpc]; rfl)
  | okStay now now' hpc hn => exact hI.quiet rfl rfl rfl (by rw [hpc]; rfl)
  | okUp now now' hpc hs ht => exact hI.quiet rfl rfl rfl (by rw [hpc]; rfl)
  | failStay now now' hpc hn => exact hI.quiet rfl rfl rfl (by rw [hpc]; rfl)
  | failDown now now' hpc hs ht => exact hI.quiet rfl rfl rfl (by rw [hpc]; rfl)
  | flipUp dur hpc =>
    rw [hpc] at hpc'
    have hs : h.live.state = .down := hpc'
    exact hI.flip (by rw [hs]; decide) rfl (by rw [hpc]; rfl) rfl
  | flipDown hpc =>
    rw [hpc] at hpc'
    have hs : h.live.state = .up := hpc'
    exact hI.flip (by rw [hs]; decide) rfl (by rw [hpc]; rfl) rfl
  | sink e evs dur ok hpc => exact hI.quiet rfl rfl rfl (by rw [hpc]; rfl)
  | emitUp dur env hpc => exact hI.announce rfl (by rw [hpc]; rfl) rfl
  | emitDown env hpc => exact hI.announce rfl (by rw [hpc]; rfl) rfl

/-- **Flips alternate and are announced in order**, the last one maybe not yet. -/
theorem announces_reaches (cfg : HubWatcherConfig) {as : List HubAct} {h : Hub} {tr : List Obs}
    (hr : (hubMach cfg).Reaches Mach.free as h tr) : Announces h tr := by
  have hind : (hubMach cfg).Inductive Mach.free (fun _ h tr => Coherent h ∧ Announces h tr) := by
    refine hub_inductive ?_ fun as h tr a h' os hI _ hst =>
      ⟨coherent_step hI.1 hst, announces_step hI.1 hI.2 hst⟩
    intro connected now
    exact ⟨coherent_start connected now, rfl, rfl, rfl⟩
  exact (hind.reaches hr).2

end WmBusbridge.L3
