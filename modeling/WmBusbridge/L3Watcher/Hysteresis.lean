import WmBusbridge.L0Core.Streak
import WmBusbridge.L3Watcher.Announce

/-!
# The hysteresis counters refine the stateless specification

The watcher decides with two saturating counters that it resets on the opposite
result and on each flip. `DownSpec` (in `L0Core.Streak`) says the same of the probe
history alone. In the UP state the failure counter is the trailing run of
failures, in the DOWN state the success counter is the trailing run of
successes; the other counter runs on and is never compared.

* `loop_iteration`: from the top of the loop the watcher takes in one more probe
  and comes back to the top, whatever the probe says.
* `watcher_refines_spec`: at the top of the loop the state is `DownSpec` of the
  probes so far, and the announcements stand exactly where it changes.
-/
namespace WmBusbridge.L3
open L0 L1

/-! ## Reading a trace -/

/-- The probe history. -/
def probesOf (tr : List Obs) : List Bool :=
  tr.filterMap fun
    | .probed ok => some ok
    | _ => none

@[simp] theorem probesOf_append (a b : List Obs) : probesOf (a ++ b) = probesOf a ++ probesOf b :=
  List.filterMap_append

/-- The topics announced, each with the number of probes before it (`n` before the
trace). -/
def announcedFrom (n : Nat) : List Obs → List (Nat × String)
  | [] => []
  | .probed _ :: tr => announcedFrom (n + 1) tr
  | .announced topic _ _ :: tr => (n, topic) :: announcedFrom n tr
  | _ :: tr => announcedFrom n tr

def announcedAt (tr : List Obs) : List (Nat × String) := announcedFrom 0 tr

theorem announcedFrom_append (a b : List Obs) : ∀ n,
    announcedFrom n (a ++ b) = announcedFrom n a ++ announcedFrom (n + (probesOf a).length) b := by
  induction a with
  | nil => intro n; rfl
  | cons o a ih =>
    intro n
    cases o <;> simp [announcedFrom, probesOf, ih, Nat.add_assoc, Nat.add_comm 1]

theorem announcedAt_append (a b : List Obs) :
    announcedAt (a ++ b) = announcedAt a ++ announcedFrom (probesOf a).length b := by
  simp [announcedAt, announcedFrom_append]

/-- Observations that are neither a probe nor an announcement leave both readings alone. -/
theorem unseen (tr os : List Obs)
    (h : probesOf os = [] ∧ ∀ n, announcedFrom n os = []) :
    probesOf (tr ++ os) = probesOf tr ∧ announcedAt (tr ++ os) = announcedAt tr := by
  rw [probesOf_append, announcedAt_append, h.1, h.2, List.append_nil, List.append_nil]
  exact ⟨rfl, rfl⟩

theorem announced_seen (tr : List Obs) (topic : String) (data : Value) (written : Bool) :
    probesOf (tr ++ [.announced topic data written]) = probesOf tr ∧
      announcedAt (tr ++ [.announced topic data written]) =
        announcedAt tr ++ [((probesOf tr).length, topic)] := by
  rw [probesOf_append, announcedAt_append]
  exact ⟨List.append_nil _, rfl⟩

theorem overflow_unseen (evs : List BufferedEvent) (e : BufferedEvent) :
    probesOf (evs.map .overflowed ++ [.accepted e]) = [] ∧
      ∀ n, announcedFrom n (evs.map .overflowed ++ [.accepted e]) = [] := by
  induction evs with
  | nil => exact ⟨rfl, fun _ => rfl⟩
  | cons _ _ ih => exact ih

/-! ## Counters -/

/-- The `u32` counter `n` stands for `k` results in a row. -/
def Counts (n : UInt32) (k : Nat) : Prop := n.toNat = min k (2 ^ 32 - 1)

theorem satSucc_toNat (n : UInt32) : (satSucc n).toNat = min (n.toNat + 1) (2 ^ 32 - 1) := by
  have hlt := n.toNat_lt
  unfold satSucc
  split
  · rename_i h
    subst h
    rfl
  · rename_i h
    have hne : n.toNat ≠ 2 ^ 32 - 1 := fun e => h (UInt32.toNat_inj.mp e)
    rw [UInt32.toNat_add, UInt32.toNat_one]
    omega

theorem Counts.zero : Counts 0 0 := rfl

theorem Counts.succ {n : UInt32} {k : Nat} (h : Counts n k) : Counts (satSucc n) (k + 1) := by
  unfold Counts at *
  rw [satSucc_toNat]
  omega

/-- Saturation hides nothing from a `u32` threshold, and a threshold of 0 acts
as 1 on a counter that has just been incremented. -/
theorem Counts.reaches {n d : UInt32} {k : Nat} (h : Counts n (k + 1)) :
    d ≤ n ↔ max d.toNat 1 ≤ k + 1 := by
  have hd := d.toNat_lt
  unfold Counts at h
  rw [UInt32.le_iff_toNat_le]
  omega

/-! ## The specification of the watcher -/

/-- `down_threshold` and `up_threshold` as streak lengths. -/
def downStreak (cfg : HubWatcherConfig) : Nat := max cfg.downThreshold.toNat 1

def upStreak (cfg : HubWatcherConfig) : Nat := max cfg.upThreshold.toNat 1

/-- The specified state after the probe history `h`. -/
def specState (cfg : HubWatcherConfig) (h : List Bool) : HubState :=
  if DownSpec (downStreak cfg) (upStreak cfg) h then .down else .up

/-- What the specification announces over the history `h`: the number of probes up to
each change of state, and the topic of the new state. -/
def specAnnounced (cfg : HubWatcherConfig) (h : List Bool) : List (Nat × String) :=
  (changes (specState cfg) h).map fun c => (c.1, specTopic c.2)

theorem specState_down {cfg : HubWatcherConfig} {h : List Bool} :
    specState cfg h = .down ↔ DownSpec (downStreak cfg) (upStreak cfg) h := by
  unfold specState
  by_cases hd : DownSpec (downStreak cfg) (upStreak cfg) h <;> simp [hd]

theorem specState_nil (cfg : HubWatcherConfig) : specState cfg [] = .up :=
  if_neg (downSpec_nil (by unfold downStreak; omega))

theorem specState_of_up {cfg : HubWatcherConfig} {h : List Bool} (hup : specState cfg h = .up)
    (x : Bool) : specState cfg (h ++ [x]) = .down ↔ downStreak cfg ≤ trail false (h ++ [x]) := by
  have hn : ¬ DownSpec (downStreak cfg) (upStreak cfg) h := by
    rw [← specState_down, hup]
    simp
  rw [specState_down, downSpec_append_of_up hn, streak_iff]

theorem specState_of_down {cfg : HubWatcherConfig} {h : List Bool}
    (hdown : specState cfg h = .down) (x : Bool) :
    specState cfg (h ++ [x]) = .down ↔ ¬ upStreak cfg ≤ trail true (h ++ [x]) := by
  rw [specState_down, downSpec_append_of_down (by unfold downStreak; omega)
    (by unfold upStreak; omega) (specState_down.mp hdown), streak_iff]

theorem ne_down {st : HubState} : st ≠ .down ↔ st = .up := by cases st <;> simp

/-- A success never trips the detector. -/
theorem specState_up_success {cfg : HubWatcherConfig} {h : List Bool}
    (hup : specState cfg h = .up) : specState cfg (h ++ [true]) = .up := by
  rw [← ne_down, ne_eq, specState_of_up hup, trail_append_ne (by decide)]
  unfold downStreak
  omega

/-- A failure never resets it. -/
theorem specState_down_failure {cfg : HubWatcherConfig} {h : List Bool}
    (hdown : specState cfg h = .down) : specState cfg (h ++ [false]) = .down := by
  rw [specState_of_down hdown, trail_append_ne (by decide)]
  unfold upStreak
  omega

/-! ## The invariant -/

/-- At rest after the history `h`: the state is the specified one and the
counter that matters in it is the trailing run. -/
structure Settled (cfg : HubWatcherConfig) (st : HubState) (failures successes : UInt32)
    (h : List Bool) : Prop where
  state : st = specState cfg h
  failures : st = .up → Counts failures (trail false h)
  successes : st = .down → Counts successes (trail true h)

/-- What holds at each point of the loop, `h` being the probes so far and `ann`
the announcements so far. Nothing in it reads the buffer. -/
def AtPc (cfg : HubWatcherConfig) (st : HubState) (w : Watcher) (h : List Bool)
    (ann : List (Nat × String)) : Prop :=
  match w.pc with
  | .sleep => Settled cfg st w.consecutiveFailures w.consecutiveSuccesses h ∧
      ann = specAnnounced cfg h
  | .probed ok => ∃ h', h = h' ++ [ok] ∧
      Settled cfg st w.consecutiveFailures w.consecutiveSuccesses h' ∧
      ann = specAnnounced cfg h'
  | .goUp _ => w.consecutiveFailures = 0 ∧ trail false h = 0 ∧ specState cfg h = .up ∧
      specAnnounced cfg h = ann ++ [(h.length, specTopic .up)]
  | .flush _ _ => Settled cfg st w.consecutiveFailures w.consecutiveSuccesses h ∧
      specAnnounced cfg h = ann ++ [(h.length, specTopic .up)]
  | .goDown => w.consecutiveSuccesses = 0 ∧ trail true h = 0 ∧ specState cfg h = .down ∧
      specAnnounced cfg h = ann ++ [(h.length, specTopic .down)]
  | .emitDown => Settled cfg st w.consecutiveFailures w.consecutiveSuccesses h ∧
      specAnnounced cfg h = ann ++ [(h.length, specTopic .down)]

theorem announced_flip {cfg : HubWatcherConfig} {h : List Bool} {x : Bool} {st : HubState}
    (hne : specState cfg (h ++ [x]) ≠ specState cfg h) (hst : specState cfg (h ++ [x]) = st) :
    specAnnounced cfg (h ++ [x]) = specAnnounced cfg h ++ [((h ++ [x]).length, specTopic st)] := by
  rw [specAnnounced, changes_append, if_neg hne, hst, List.map_append, List.length_append]
  rfl

theorem announced_stay {cfg : HubWatcherConfig} {h : List Bool} {x : Bool}
    (he : specState cfg (h ++ [x]) = specState cfg h) :
    specAnnounced cfg (h ++ [x]) = specAnnounced cfg h := by
  rw [specAnnounced, changes_append, if_pos he, List.append_nil, specAnnounced]

section Look
variable {cfg : HubWatcherConfig} {st : HubState} {f s : UInt32} {h : List Bool}

/-- A success in the UP state, or one that does not meet the UP threshold. -/
theorem settled_success (hs : Settled cfg st f s h)
    (hn : ¬ (st = .down ∧ cfg.upThreshold ≤ satSucc s)) :
    specState cfg (h ++ [true]) = specState cfg h ∧
      Settled cfg st 0 (satSucc s) (h ++ [true]) := by
  have htr : trail false (h ++ [true]) = 0 := trail_append_ne (by decide) h
  obtain ⟨hst, -, hsucc⟩ := hs
  cases st with
  | up =>
    have hkeep := specState_up_success hst.symm
    exact ⟨hkeep.trans hst, hkeep.symm, fun _ => htr ▸ Counts.zero, fun e => (nomatch e)⟩
  | down =>
    have hcnt := (hsucc rfl).succ
    have hkeep : specState cfg (h ++ [true]) = .down := by
      rw [specState_of_down hst.symm, trail_append_self]
      exact fun hu => hn ⟨rfl, hcnt.reaches.mpr hu⟩
    refine ⟨hkeep.trans hst, hkeep.symm, fun e => (nomatch e), fun _ => ?_⟩
    rwa [trail_append_self]

/-- A success that meets the UP threshold in the DOWN state. -/
theorem spec_up (hs : Settled cfg .down f s h) (ht : cfg.upThreshold ≤ satSucc s) :
    specState cfg (h ++ [true]) = .up := by
  have hcnt := (hs.successes rfl).succ
  rw [← ne_down, ne_eq, specState_of_down hs.state.symm, trail_append_self, not_not]
  exact hcnt.reaches.mp ht

/-- A failure in the DOWN state, or one that does not meet the DOWN threshold. -/
theorem settled_failure (hs : Settled cfg st f s h)
    (hn : ¬ (st = .up ∧ cfg.downThreshold ≤ satSucc f)) :
    specState cfg (h ++ [false]) = specState cfg h ∧
      Settled cfg st (satSucc f) 0 (h ++ [false]) := by
  have htr : trail true (h ++ [false]) = 0 := trail_append_ne (by decide) h
  obtain ⟨hst, hfail, -⟩ := hs
  cases st with
  | down =>
    have hkeep := specState_down_failure hst.symm
    exact ⟨hkeep.trans hst, hkeep.symm, fun e => (nomatch e), fun _ => htr ▸ Counts.zero⟩
  | up =>
    have hcnt := (hfail rfl).succ
    have hkeep : specState cfg (h ++ [false]) = .up := by
      rw [← ne_down, ne_eq, specState_of_up hst.symm, trail_append_self]
      exact fun hd => hn ⟨rfl, hcnt.reaches.mpr hd⟩
    refine ⟨hkeep.trans hst, hkeep.symm, fun _ => ?_, fun e => (nomatch e)⟩
    rwa [trail_append_self]

/-- A failure that meets the DOWN threshold in the UP state. -/
theorem spec_down (hs : Settled cfg .up f s h) (ht : cfg.downThreshold ≤ satSucc f) :
    specState cfg (h ++ [false]) = .down := by
  have hcnt := (hs.failures rfl).succ
  rw [specState_of_up hs.state.symm, trail_append_self]
  exact hcnt.reaches.mp ht

end Look

theorem atPc_step (cfg : HubWatcherConfig) {hub hub' : Hub} {tr os : List Obs} {a : HubAct}
    (hI : AtPc cfg hub.live.state hub.w (probesOf tr) (announcedAt tr))
    (hst : HubStep cfg hub a hub' os) :
    AtPc cfg hub'.live.state hub'.w (probesOf (tr ++ os)) (announcedAt (tr ++ os)) := by
  have silent := unseen tr [] ⟨rfl, fun _ => rfl⟩
  cases hst with
  | refused e hs =>
    obtain ⟨hp, ha⟩ := unseen tr [.refused e] ⟨rfl, fun _ => rfl⟩
    rw [hp, ha]
    exact hI
  | accepted e popped kept hs he =>
    obtain ⟨hp, ha⟩ := unseen tr _ (overflow_unseen popped e)
    rw [hp, ha]
    exact hI
  | probe ok hpc =>
    simp only [AtPc, hpc] at hI
    have ha : announcedAt (tr ++ [.probed ok]) = announcedAt tr := by
      rw [announcedAt_append]
      exact List.append_nil _
    rw [probesOf_append, ha]
    exact ⟨probesOf tr, rfl, hI⟩
  | okStay now now' hpc hn =>
    simp only [AtPc, hpc] at hI
    obtain ⟨h', hh, hs, hann⟩ := hI
    obtain ⟨hkeep, hs'⟩ := settled_success hs hn
    rw [silent.1, silent.2, hh, hann, ← announced_stay hkeep]
    exact ⟨hs', rfl⟩
  | okUp now now' hpc hs ht =>
    simp only [AtPc, hpc] at hI
    obtain ⟨h', hh, hset, hann⟩ := hI
    rw [hs] at hset
    have hup := spec_up hset ht
    have hne : specState cfg (h' ++ [true]) ≠ specState cfg h' := by
      rw [hup, ← hset.state]
      decide
    rw [silent.1, silent.2, hh, hann]
    exact ⟨rfl, trail_append_ne (by decide) h', hup, announced_flip hne hup⟩
  | failStay now now' hpc hn =>
    simp only [AtPc, hpc] at hI
    obtain ⟨h', hh, hs, hann⟩ := hI
    obtain ⟨hkeep, hs'⟩ := settled_failure hs hn
    rw [silent.1, silent.2, hh, hann, ← announced_stay hkeep]
    exact ⟨hs', rfl⟩
  | failDown now now' hpc hs ht =>
    simp only [AtPc, hpc] at hI
    obtain ⟨h', hh, hset, hann⟩ := hI
    rw [hs] at hset
    have hdown := spec_down hset ht
    have hne : specState cfg (h' ++ [false]) ≠ specState cfg h' := by
      rw [hdown, ← hset.state]
      decide
    rw [silent.1, silent.2, hh, hann]
    exact ⟨rfl, trail_append_ne (by decide) h', hdown, announced_flip hne hdown⟩
  | flipUp dur hpc =>
    simp only [AtPc, hpc] at hI
    obtain ⟨hf, htr, hup, hch⟩ := hI
    obtain ⟨hp, ha⟩ := unseen tr [.flipped .up] ⟨rfl, fun _ => rfl⟩
    rw [hp, ha]
    exact ⟨⟨hup.symm, fun _ => by rw [hf, htr]; exact Counts.zero, fun e => (nomatch e)⟩, hch⟩
  | flipDown hpc =>
    simp only [AtPc, hpc] at hI
    obtain ⟨hs, htr, hdown, hch⟩ := hI
    obtain ⟨hp, ha⟩ := unseen tr [.flipped .down] ⟨rfl, fun _ => rfl⟩
    rw [hp, ha]
    exact ⟨⟨hdown.symm, fun e => (nomatch e), fun _ => by rw [hs, htr]; exact Counts.zero⟩, hch⟩
  | sink e evs dur ok hpc =>
    simp only [AtPc, hpc] at hI
    obtain ⟨hp, ha⟩ := unseen tr [.flushed e ok] ⟨rfl, fun _ => rfl⟩
    rw [hp, ha]
    exact hI
  | emitUp dur env hpc =>
    simp only [AtPc, hpc] at hI
    obtain ⟨hp, ha⟩ := announced_seen tr _ _ _
    rw [hp, ha, hubTopic_eq]
    exact ⟨hI.1, hI.2.symm⟩
  | emitDown env hpc =>
    simp only [AtPc, hpc] at hI
    obtain ⟨hp, ha⟩ := announced_seen tr _ _ _
    rw [hp, ha, hubTopic_eq]
    exact ⟨hI.1, hI.2.symm⟩

theorem atPc_inductive (cfg : HubWatcherConfig) :
    (hubMach cfg).Inductive Mach.free
      (fun _ hub tr => AtPc cfg hub.live.state hub.w (probesOf tr) (announcedAt tr)) := by
  refine hub_inductive ?_ fun as hub tr a hub' os hI _ hst => atPc_step cfg hI hst
  intro connected now
  exact ⟨⟨(specState_nil cfg).symm, fun _ => Counts.zero, fun e => (nomatch e)⟩, rfl⟩

/-! ## Every iteration ends -/

section Iteration
variable {cfg : HubWatcherConfig} {hub hub' : Hub}

/-- The watcher can come back to the top of the loop, taking in the probes `ps`. -/
def Finishes (cfg : HubWatcherConfig) (hub : Hub) (ps : List Bool) : Prop :=
  ∃ as hub' os, (hubMach cfg).Run Mach.free hub as hub' os ∧ hub'.w.pc = .sleep ∧ probesOf os = ps

theorem Finishes.now (hpc : hub.w.pc = .sleep) : Finishes cfg hub [] :=
  ⟨[], hub, [], .nil, hpc, rfl⟩

theorem Finishes.step {a : HubAct} {os : List Obs} {ps qs : List Bool}
    (hst : HubStep cfg hub a hub' os) (hps : probesOf os ++ ps = qs) (h : Finishes cfg hub' ps) :
    Finishes cfg hub qs := by
  obtain ⟨as, hub'', os', hr, hpc, hp⟩ := h
  refine ⟨_, _, _, (Mach.Run.single trivial hst.enabled).append hr, hpc, ?_⟩
  rw [probesOf_append, hp, hps]

/-- The flush hands over its events one by one and announces UP. -/
theorem finishes_flush (evs : List BufferedEvent) : ∀ (hub : Hub) (dur : UInt64),
    hub.w.pc = .flush evs dur → Finishes cfg hub [] := by
  induction evs with
  | nil =>
    intro hub dur hpc
    exact .step (.emitUp dur ⟨true, true, true⟩ hpc) rfl (.now rfl)
  | cons e evs ih =>
    intro hub dur hpc
    exact .step (.sink e evs dur true hpc) rfl (ih _ dur rfl)

/-- **One iteration.** Whatever the probe says, the watcher takes it in and
comes back to the top of the loop. -/
theorem loop_iteration (hpc : hub.w.pc = .sleep) (ok : Bool) : Finishes cfg hub [ok] := by
  refine .step (.probe ok hpc) rfl ?_
  cases ok with
  | true =>
    by_cases hc : hub.live.state = .down ∧ cfg.upThreshold ≤ satSucc hub.w.consecutiveSuccesses
    · exact .step (.okUp 0 0 rfl hc.1 hc.2) rfl
        (.step (.flipUp _ rfl) rfl (finishes_flush _ _ _ rfl))
    · exact .step (.okStay 0 0 rfl hc) rfl (.now rfl)
  | false =>
    by_cases hc : hub.live.state = .up ∧ cfg.downThreshold ≤ satSucc hub.w.consecutiveFailures
    · exact .step (.failDown 0 0 rfl hc.1 hc.2) rfl
        (.step (.flipDown rfl) rfl (.step (.emitDown ⟨true, true, true⟩ rfl) rfl (.now rfl)))
    · exact .step (.failStay 0 0 rfl hc) rfl (.now rfl)

/-- Every probe history can be taken in to its end. -/
theorem history_processed (cfg : HubWatcherConfig) (h : List Bool) :
    ∃ as hub tr, (hubMach cfg).Reaches Mach.free as hub tr ∧ hub.w.pc = .sleep ∧
      probesOf tr = h := by
  induction h using List.reverseRecOn with
  | nil => exact ⟨[], Hub.start true 0, [], ⟨_, ⟨true, 0, rfl⟩, .nil⟩, rfl, rfl⟩
  | append_singleton h ok ih =>
    obtain ⟨as, hub, tr, ⟨hub₀, h0, hr⟩, hpc, hp⟩ := ih
    have hnext : Finishes cfg hub [ok] := loop_iteration hpc ok
    obtain ⟨as', hub', os, hr', hpc', hp'⟩ := hnext
    exact ⟨_, _, _, ⟨hub₀, h0, hr.append hr'⟩, hpc', by rw [probesOf_append, hp, hp']⟩

end Iteration

/-- **The hysteresis machine is its stateless specification.** Every probe
history can be taken in, and however the watcher's steps and any `maybe_buffer`
calls interleaved while it was, the state at the top of the loop is DOWN exactly
when some position of the history ends `max(down_threshold, 1)` failures and no
later one ends `max(up_threshold, 1)` successes; `wm.fleet.hub.down` and
`wm.fleet.hub.up` have been announced at the positions where that changes, once each
and in order. -/
theorem watcher_refines_spec (cfg : HubWatcherConfig) :
    (∀ h, ∃ as hub tr, (hubMach cfg).Reaches Mach.free as hub tr ∧ hub.w.pc = .sleep ∧
      probesOf tr = h) ∧
    ∀ as hub tr, (hubMach cfg).Reaches Mach.free as hub tr → hub.w.pc = .sleep →
      (hub.live.state = .down ↔ DownSpec (downStreak cfg) (upStreak cfg) (probesOf tr)) ∧
      announcedAt tr = (changes (specState cfg) (probesOf tr)).map fun c =>
        (c.1, if c.2 = .down then "wm.fleet.hub.down" else "wm.fleet.hub.up") := by
  refine ⟨history_processed cfg, fun as hub tr hr hpc => ?_⟩
  have hI := (atPc_inductive cfg).reaches hr
  simp only [AtPc, hpc] at hI
  refine ⟨?_, ?_⟩
  · rw [hI.1.state, specState_down]
  · have htopic : ∀ st, specTopic st =
        if st = .down then "wm.fleet.hub.down" else "wm.fleet.hub.up" := by
      intro st
      cases st <;> rfl
    rw [hI.2, specAnnounced]
    simp only [htopic]

end WmBusbridge.L3
