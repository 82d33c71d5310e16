import WmBusbridge.L3Watcher.Announce
import WmBusbridge.L3Watcher.Conserve

/-!
# The tested watcher (`WatcherSim`, `src/hub_watcher.rs:503-595`) and the shipped one

The acceptance tests drive a copy of the watcher's loop body. `Core` is what both
are compared on: the shared state, the two counters, what the sink was called with
and what was announced. `Core.tick` is one probe taken in one step.

* `tick_core`: the copy does what `Core.tick` does.
* `core_inductive`: so does the shipped loop, tick by tick: at each of its positions
  `settle` says what is still to come of the iteration under way.
* `sim_is_shipped`: the two agree on every sequence of probes and `maybe_buffer` calls.
-/
namespace WmBusbridge.L3
open L0 L1

/-! ## One tick -/

/-- What happens at tick granularity. -/
inductive Input where
  | tick (ok : Bool)
  | buffer (e : BufferedEvent)
  deriving DecidableEq

structure Core where
  live : HubLivenessState
  failures : UInt32
  successes : UInt32
  /-- the sink's calls -/
  published : List BufferedEvent
  /-- the topics announced -/
  topics : List String
  deriving DecidableEq

namespace Core

def new : Core := { live := .new, failures := 0, successes := 0, published := [], topics := [] }

/-- The hub is back: the buffer is flushed. -/
def up (c : Core) : Core :=
  { c with
    live := { c.live with state := .up, buffer := [] }
    successes := 0
    published := c.published ++ c.live.buffer
    topics := c.topics ++ [hubTopic .up] }

def down (c : Core) : Core :=
  { c with
    live := { c.live with state := .down }
    failures := 0
    topics := c.topics ++ [hubTopic .down] }

def tick (cfg : HubWatcherConfig) (ok : Bool) (c : Core) : Core :=
  if ok then
    let c' := { c with failures := 0, successes := satSucc c.successes }
    if c.live.state = .down ∧ cfg.upThreshold ≤ c'.successes then c'.up else c'
  else
    let c' := { c with successes := 0, failures := satSucc c.failures }
    if c.live.state = .up ∧ cfg.downThreshold ≤ c'.failures then c'.down else c'

def step (cfg : HubWatcherConfig) (c : Core) : Input → Core
  | .tick ok => c.tick cfg ok
  | .buffer e => { c with live := (maybeBuffer cfg c.live e).2 }

def run (cfg : HubWatcherConfig) (ins : List Input) : Core := ins.foldl (step cfg) new

theorem run_append (cfg : HubWatcherConfig) (ins more : List Input) :
    run cfg (ins ++ more) = more.foldl (step cfg) (run cfg ins) := List.foldl_append

end Core

/-! ## The copy -/

/-- `published` and `events` are what its two mocks recorded.
mirrors src/hub_watcher.rs:503-514 -/
structure WatcherSim where
  live : HubLivenessState
  published : List BufferedEvent
  events : List (String × Value)
  consecutiveFailures : UInt32
  consecutiveSuccesses : UInt32
  lastOkTs : UInt64
  downSinceTs : UInt64

namespace WatcherSim

/-- mirrors src/hub_watcher.rs:517-532 -/
def new : WatcherSim where
  live := .new
  published := []
  events := []
  consecutiveFailures := 0
  consecutiveSuccesses := 0
  lastOkTs := 0
  downSinceTs := 0

/-- mirrors src/hub_watcher.rs:563-566 -/
def upData (node : String) (downDurationSecs : UInt64) : Value where
  json := .obj [("down_duration_secs", .num (.posInt downDurationSecs)), ("node", .str node)]
  wf := (hubUpData node downDurationSecs).wf

/-- mirrors src/hub_watcher.rs:586-590 -/
def downData (node : String) (sinceTs lastOkTs : UInt64) : Value where
  json := .obj [("last_ok_ts", .num (.posInt lastOkTs)), ("node", .str node),
    ("since_ts", .num (.posInt sinceTs))]
  wf := (hubDownData node sinceTs lastOkTs).wf

/-- `now` and `now'` are the two `unix_ts()` readings; the sink's results are
ignored.
mirrors src/hub_watcher.rs:534-594 -/
def tick (cfg : HubWatcherConfig) (ok : Bool) (now now' : UInt64) (s : WatcherSim) : WatcherSim :=
  let currentState := s.live.state
  if ok then
    let s := { s with lastOkTs := now, consecutiveFailures := 0,
                      consecutiveSuccesses := satSucc s.consecutiveSuccesses }
    if currentState = .down ∧ cfg.upThreshold ≤ s.consecutiveSuccesses then
      let downDurationSecs := satSub now' s.downSinceTs
      let s := { s with live := { s.live with state := .up } }
      let events := s.live.buffer
      let s := { s with live := { s.live with buffer := [] } }
      let s := { s with consecutiveSuccesses := 0 }
      let s := { s with published := s.published ++ events }
      { s with events := s.events ++ [("wm.fleet.hub.up", upData cfg.nodeId downDurationSecs)] }
    else s
  else
    let s := { s with consecutiveSuccesses := 0,
                      consecutiveFailures := satSucc s.consecutiveFailures }
    if currentState = .up ∧ cfg.downThreshold ≤ s.consecutiveFailures then
      let s := { s with downSinceTs := now }
      let s := { s with live := { s.live with state := .down } }
      let s := { s with consecutiveFailures := 0 }
      { s with events :=
          s.events ++ [("wm.fleet.hub.down", downData cfg.nodeId s.downSinceTs s.lastOkTs)] }
    else s

def core (s : WatcherSim) : Core where
  live := s.live
  failures := s.consecutiveFailures
  successes := s.consecutiveSuccesses
  published := s.published
  topics := s.events.map Prod.fst

theorem tick_core (cfg : HubWatcherConfig) (ok : Bool) (now now' : UInt64) (s : WatcherSim) :
    (s.tick cfg ok now now').core = s.core.tick cfg ok := by
  cases ok with
  | true =>
    by_cases h : s.live.state = .down ∧ cfg.upThreshold ≤ satSucc s.consecutiveSuccesses
    · simp [tick, core, Core.tick, Core.up, hubTopic, h]
    · simp [tick, core, Core.tick, h]
  | false =>
    by_cases h : s.live.state = .up ∧ cfg.downThreshold ≤ satSucc s.consecutiveFailures
    · simp [tick, core, Core.tick, Core.down, hubTopic, h]
    · simp [tick, core, Core.tick, h]

end WatcherSim

/-- What a test does with the copy. -/
inductive SimAct where
  | tick (ok : Bool) (now now' : UInt64)
  | buffer (e : BufferedEvent)

def SimAct.input : SimAct → Input
  | .tick ok _ _ => .tick ok
  | .buffer e => .buffer e

def simStep (cfg : HubWatcherConfig) (s : WatcherSim) : SimAct → WatcherSim
  | .tick ok now now' => s.tick cfg ok now now'
  | .buffer e => { s with live := (maybeBuffer cfg s.live e).2 }

/-- A test from `new_shared_liveness`. -/
def simRun (cfg : HubWatcherConfig) (ins : List SimAct) : WatcherSim :=
  ins.foldl (simStep cfg) .new

theorem simStep_core (cfg : HubWatcherConfig) (s : WatcherSim) (a : SimAct) :
    (simStep cfg s a).core = s.core.step cfg a.input := by
  cases a with
  | tick ok now now' => exact WatcherSim.tick_core cfg ok now now' s
  | buffer e => rfl

theorem simRun_core (cfg : HubWatcherConfig) (ins : List SimAct) :
    (simRun cfg ins).core = Core.run cfg (ins.map SimAct.input) := by
  have hfrom : ∀ s : WatcherSim, (ins.foldl (simStep cfg) s).core =
      (ins.map SimAct.input).foldl (Core.step cfg) s.core := by
    induction ins with
    | nil => exact fun s => rfl
    | cons a ins ih =>
      intro s
      rw [List.foldl_cons, ih, simStep_core]
      rfl
  exact hfrom .new

/-! ## The shipped watcher -/

/-- Another task calls `maybe_buffer` only between two iterations, and what is
written to the local bus arrives. -/
def TickGrain (h : Hub) : HubAct → Prop
  | .buffer _ => h.w.pc = .sleep
  | .watch (.emit env) => (emitLocal h.w.busPub env).1 = true
  | .watch _ => True

def inputsOf (as : List HubAct) : List Input :=
  as.filterMap fun
    | .buffer e => some (.buffer e)
    | .watch (.probe ok) => some (.tick ok)
    | .watch _ => none

/-- The topics that were written to the bus. -/
def topicsOf (tr : List Obs) : List String :=
  tr.filterMap fun
    | .announced topic _ true => some topic
    | _ => none

@[simp] theorem inputsOf_append (a b : List HubAct) :
    inputsOf (a ++ b) = inputsOf a ++ inputsOf b :=
  List.filterMap_append

@[simp] theorem topicsOf_append (a b : List Obs) : topicsOf (a ++ b) = topicsOf a ++ topicsOf b :=
  List.filterMap_append

def Hub.core (h : Hub) (tr : List Obs) : Core where
  live := h.live
  failures := h.w.consecutiveFailures
  successes := h.w.consecutiveSuccesses
  published := (flushedOf tr).map Prod.fst
  topics := topicsOf tr

/-- What is still to come of the iteration under way. -/
def settle (cfg : HubWatcherConfig) : WPc → Core → Core
  | .sleep, c => c
  | .probed ok, c => c.tick cfg ok
  | .goUp _, c => c.up
  | .flush evs _, c =>
    { c with published := c.published ++ evs, topics := c.topics ++ [hubTopic .up] }
  | .goDown, c => c.down
  | .emitDown, c => { c with topics := c.topics ++ [hubTopic .down] }

/-- A step of the shipped loop begins an iteration or goes on with it. -/
theorem settle_step {cfg : HubWatcherConfig} {h h' : Hub} {a : HubAct} {os : List Obs}
    (hg : TickGrain h a) (hst : HubStep cfg h a h' os) (tr : List Obs) :
    settle cfg h'.w.pc (h'.core (tr ++ os)) =
      (inputsOf [a]).foldl (Core.step cfg) (settle cfg h.w.pc (h.core tr)) := by
  cases hst with
  | refused e hs =>
    have hpc : h.w.pc = .sleep := hg
    simp [settle, hpc, Hub.core, flushedOf, topicsOf, inputsOf, Core.step, maybeBuffer_up cfg e hs]
  | accepted e popped kept hs he =>
    have hpc : h.w.pc = .sleep := hg
    have hbuf := maybeBuffer_down cfg e hs
    rw [he] at hbuf
    simp only [settle, hpc, Hub.core, flushedOf_append, topicsOf_append, inputsOf,
      (overflowed_reads popped).2.2]
    simp [Core.step, hbuf, flushedOf, topicsOf]
  | probe ok hpc => simp [settle, hpc, Hub.core, flushedOf, topicsOf, inputsOf, Core.step]
  | okStay now now' hpc hn => simp [settle, hpc, Hub.core, inputsOf, Core.tick, hn]
  | okUp now now' hpc hs ht => simp [settle, hpc, Hub.core, inputsOf, Core.tick, hs, ht]
  | failStay now now' hpc hn => simp [settle, hpc, Hub.core, inputsOf, Core.tick, hn]
  | failDown now now' hpc hs ht => simp [settle, hpc, Hub.core, inputsOf, Core.tick, hs, ht]
  | flipUp dur hpc => simp [settle, hpc, Hub.core, flushedOf, topicsOf, inputsOf, Core.up]
  | flipDown hpc => simp [settle, hpc, Hub.core, flushedOf, topicsOf, inputsOf, Core.down]
  | sink e evs dur ok hpc => simp [settle, hpc, Hub.core, flushedOf, topicsOf, inputsOf]
  | emitUp dur env hpc =>
    have hw : (emitLocal h.w.busPub env).1 = true := hg
    simp [settle, hpc, Hub.core, flushedOf, topicsOf, inputsOf, hw]
  | emitDown env hpc =>
    have hw : (emitLocal h.w.busPub env).1 = true := hg
    simp [settle, hpc, Hub.core, flushedOf, topicsOf, inputsOf, hw]

theorem core_inductive (cfg : HubWatcherConfig) :
    (hubMach cfg).Inductive TickGrain
      (fun as h tr => settle cfg h.w.pc (h.core tr) = Core.run cfg (inputsOf as)) := by
  refine hub_inductive (fun connected now => rfl) fun as h tr a h' os hI hg hst => ?_
  rw [settle_step hg hst, hI, inputsOf_append, Core.run_append]

/-! ## The shipped watcher can take every test -/

/-- The calls of the sink gave the results of `sinkOk`, the first one its `k`-th. -/
def SinkSays (sinkOk : ℕ → Bool) (k : ℕ) (tr : List Obs) : Prop :=
  (flushedOf tr).map Prod.snd = (List.range' k (flushedOf tr).length).map sinkOk

theorem SinkSays.append {sinkOk : ℕ → Bool} {k : ℕ} {tr tr' : List Obs} (h : SinkSays sinkOk k tr)
    (h' : SinkSays sinkOk (k + (flushedOf tr).length) tr') : SinkSays sinkOk k (tr ++ tr') := by
  unfold SinkSays at *
  rw [flushedOf_append, List.map_append, h, h', List.length_append, ← List.map_append,
    List.range'_append_1]

theorem SinkSays.quiet {sinkOk : ℕ → Bool} {k : ℕ} {tr : List Obs} (h : flushedOf tr = []) :
    SinkSays sinkOk k tr := by
  simp [SinkSays, h]

/-- A stretch of one iteration that ends it. -/
def Settles (cfg : HubWatcherConfig) (sinkOk : ℕ → Bool) (k : ℕ) (h : Hub) (ins : List Input) :
    Prop :=
  ∃ as h' tr, (hubMach cfg).Run TickGrain h as h' tr ∧ h'.w.pc = .sleep ∧ inputsOf as = ins ∧
    SinkSays sinkOk k tr

section Finish
variable {cfg : HubWatcherConfig} {sinkOk : ℕ → Bool} {k : ℕ} {h h' : Hub}

theorem Settles.done (hpc : h.w.pc = .sleep) : Settles cfg sinkOk k h [] :=
  ⟨[], h, [], .nil, hpc, rfl, .quiet rfl⟩

theorem Settles.cons {a : HubAct} {os : List Obs} {ins : List Input}
    (hst : HubStep cfg h a h' os) (hg : TickGrain h a) (hs : SinkSays sinkOk k os)
    (hf : Settles cfg sinkOk (k + (flushedOf os).length) h' ins) :
    Settles cfg sinkOk k h (inputsOf [a] ++ ins) := by
  obtain ⟨as, t, tr, hrun, hpc, hins, hs'⟩ := hf
  have hone : (hubMach cfg).Run TickGrain h [a] h' os := .single hg hst.enabled
  exact ⟨[a] ++ as, t, os ++ tr, hone.append hrun, hpc, by rw [inputsOf_append, hins],
    hs.append hs'⟩

/-- A step that is no sink call comes first. -/
theorem Settles.quiet {a : HubAct} {os : List Obs} {ins : List Input}
    (hst : HubStep cfg h a h' os) (hg : TickGrain h a) (hq : flushedOf os = [])
    (hf : Settles cfg sinkOk k h' ins) : Settles cfg sinkOk k h (inputsOf [a] ++ ins) :=
  .cons hst hg (.quiet hq) (by rwa [hq, List.length_nil, Nat.add_zero])

/-- A local bus that takes every write. -/
def emitOk : EmitEnv := { publishOk := true, connectOk := true, republishOk := true }

theorem emitOk_written (busPub : Bool) : (emitLocal busPub emitOk).1 = true := by
  cases busPub <;> rfl

/-- The flush hands over what is left and announces. -/
theorem settles_flush {evs : List BufferedEvent} {dur : UInt64} (hpc : h.w.pc = .flush evs dur) :
    Settles cfg sinkOk k h [] := by
  induction evs generalizing h k with
  | nil => exact .quiet (.emitUp dur emitOk hpc) (emitOk_written h.w.busPub) rfl (.done rfl)
  | cons e evs ih => exact .cons (.sink e evs dur (sinkOk k) hpc) trivial rfl (ih rfl)

/-- After the probe, whatever it and the clock said. -/
theorem settles_probed {ok : Bool} (now now' : UInt64) (hpc : h.w.pc = .probed ok) :
    Settles cfg sinkOk k h [] := by
  cases ok with
  | true =>
    by_cases hn : h.live.state = .down ∧ cfg.upThreshold ≤ satSucc h.w.consecutiveSuccesses
    · exact .quiet (.okUp now now' hpc hn.1 hn.2) trivial rfl
        (.quiet (.flipUp _ rfl) trivial rfl (settles_flush rfl))
    · exact .quiet (.okStay now now' hpc hn) trivial rfl (.done rfl)
  | false =>
    by_cases hn : h.live.state = .up ∧ cfg.downThreshold ≤ satSucc h.w.consecutiveFailures
    · exact .quiet (.failDown now now' hpc hn.1 hn.2) trivial rfl
        (.quiet (.flipDown rfl) trivial rfl
          (.quiet (.emitDown emitOk rfl) (emitOk_written h.w.busPub) rfl (.done rfl)))
    · exact .quiet (.failStay now now' hpc hn) trivial rfl (.done rfl)

theorem bufferStep_quiet (cfg : HubWatcherConfig) (h : Hub) (e : BufferedEvent) :
    flushedOf (bufferStep cfg h e).2 = [] := by
  cases hs : h.live.state with
  | up =>
    simp only [bufferStep, maybeBuffer_up cfg e hs]
    rfl
  | down =>
    simp only [bufferStep, maybeBuffer_down cfg e hs, if_true, flushedOf_append,
      (overflowed_reads _).2.2]
    rfl

theorem settles_input (a : SimAct) (hpc : h.w.pc = .sleep) :
    Settles cfg sinkOk k h [a.input] := by
  cases a with
  | tick ok now now' => exact .quiet (.probe ok hpc) trivial rfl (settles_probed now now' rfl)
  | buffer e =>
    exact .quiet (bufferStep_cases cfg h e) hpc (bufferStep_quiet cfg h e) (.done hpc)

end Finish

theorem settles_test (cfg : HubWatcherConfig) (sinkOk : ℕ → Bool) (ins : List SimAct) {k : ℕ}
    {h : Hub} (hpc : h.w.pc = .sleep) :
    Settles cfg sinkOk k h (ins.map SimAct.input) := by
  induction ins generalizing h k with
  | nil => exact .done hpc
  | cons a ins ih =>
    have hfirst : Settles cfg sinkOk k h [a.input] := settles_input a hpc
    obtain ⟨as, t, tr, hrun, hpc', hins, hs⟩ := hfirst
    obtain ⟨bs, u, tr', hrun', hpc'', hins', hs'⟩ := ih (k := k + (flushedOf tr).length) hpc'
    refine ⟨as ++ bs, u, tr ++ tr', hrun.append hrun', hpc'', ?_, hs.append hs'⟩
    rw [inputsOf_append, hins, hins', List.map_cons, List.singleton_append]

/-! ## The two agree -/

/-- `agrees`: whenever the shipped loop has come to the end of an iteration, after
any probes and calls, it is where the copy is after the same ones. `runs`: it takes
every sequence of them, whatever the sink answers. -/
structure SameWatcher (cfg : HubWatcherConfig) : Prop where
  agrees : ∀ as h tr ins, (hubMach cfg).Reaches TickGrain as h tr → h.w.pc = .sleep →
    inputsOf as = ins.map SimAct.input → h.core tr = (simRun cfg ins).core
  runs : ∀ (connected : Bool) (now : UInt64) (ins : List SimAct) (sinkOk : ℕ → Bool),
    ∃ as h tr, (hubMach cfg).Run TickGrain (.start connected now) as h tr ∧ h.w.pc = .sleep ∧
      inputsOf as = ins.map SimAct.input ∧ SinkSays sinkOk 0 tr

/-- **The tested watcher is the shipped watcher.** -/
theorem sim_is_shipped (cfg : HubWatcherConfig) : SameWatcher cfg where
  agrees as h tr ins hr hpc hins := by
    have hcore := (core_inductive cfg).reaches hr
    rw [hpc, hins, ← simRun_core] at hcore
    exact hcore
  runs connected now ins sinkOk := settles_test cfg sinkOk ins rfl

end WmBusbridge.L3
