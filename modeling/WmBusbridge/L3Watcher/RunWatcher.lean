import WmBusbridge.L0Core.Machine
import WmBusbridge.L1Encoding.Num
import WmBusbridge.L3Watcher.Liveness

/-!
# The hub-liveness watcher (`run_watcher`, `src/hub_watcher.rs:301-418`)

The loop is cut at its await points: the probe, each locked section, each sink
call and the local publish are one step each, so a step of another task may
come between any two. What the environment answers (probe and sink results,
clock readings, whether local writes succeed) is in the action.

`hubMach` is the watcher beside any number of callers of `maybeBuffer`, each
call one step. `HubStep` lists what a step can do (`hubStep_cases`); every
invariant below goes through it.
-/
namespace WmBusbridge.L3
open L0 L1

/-! ## Announcements -/

/-- mirrors src/hub_watcher.rs:388,414 -/
def hubTopic : HubState → String
  | .up => "wm.fleet.hub.up"
  | .down => "wm.fleet.hub.down"

/-- mirrors src/hub_watcher.rs:384-387 -/
def hubUpData (node : String) (downDurationSecs : UInt64) : Value where
  json := .obj [("down_duration_secs", .num (.posInt downDurationSecs)), ("node", .str node)]
  wf := by
    have h : "down_duration_secs" < "node" := by decide
    simp [Json.wf, Json.wfFields, Number.wf, h]

/-- mirrors src/hub_watcher.rs:409-413 -/
def hubDownData (node : String) (sinceTs lastOkTs : UInt64) : Value where
  json := .obj [("last_ok_ts", .num (.posInt lastOkTs)), ("node", .str node),
    ("since_ts", .num (.posInt sinceTs))]
  wf := by
    have h1 : "last_ok_ts" < "node" := by decide
    have h2 : "node" < "since_ts" := by decide
    simp [Json.wf, Json.wfFields, Number.wf, h1, h2]

/-- How the local bus answers one `emit_local`: the publish on the open
connection, the reconnect, the publish after it. -/
structure EmitEnv where
  publishOk : Bool
  connectOk : Bool
  republishOk : Bool
  deriving DecidableEq, Repr

/-- Whether the event was written, and whether a connection is open after.
mirrors src/hub_watcher.rs:421-448 -/
def emitLocal (busPub : Bool) (env : EmitEnv) : Bool × Bool :=
  if busPub && env.publishOk then (true, true)
  else if env.connectOk then (env.republishOk, true)
  else (false, false)

/-! ## The watcher -/

/-- Where the watcher stands. -/
inductive WPc where
  /-- at the top of the loop, waiting for the probe -/
  | sleep
  /-- the probe answered; about to read the state -/
  | probed (ok : Bool)
  /-- the UP threshold is met; about to lock, flip and drain -/
  | goUp (downDurationSecs : UInt64)
  /-- drained; `evs` are still to be handed to the sink -/
  | flush (evs : List BufferedEvent) (downDurationSecs : UInt64)
  /-- the DOWN threshold is met; about to lock and flip -/
  | goDown
  /-- flipped to DOWN; about to announce it -/
  | emitDown
  deriving DecidableEq, Repr

/-- The watcher's position and locals. `busPub`: a local-bus connection is open.
mirrors src/hub_watcher.rs:315-331 -/
structure Watcher where
  pc : WPc
  consecutiveFailures : UInt32
  consecutiveSuccesses : UInt32
  lastOkTs : UInt64
  downSinceTs : UInt64
  busPub : Bool
  deriving DecidableEq, Repr

/-- Events drained from the buffer and not yet handed to the sink. -/
def drained : WPc → List BufferedEvent
  | .flush evs _ => evs
  | _ => []

/-- The shared state and the watcher. -/
structure Hub where
  live : HubLivenessState
  w : Watcher
  deriving DecidableEq, Repr

/-- `connected`: the first `LocalBusPublisher::connect`; `now`: `unix_ts()`.
mirrors src/hub_watcher.rs:315-331 -/
def Hub.start (connected : Bool) (now : UInt64) : Hub where
  live := .new
  w := { pc := .sleep, consecutiveFailures := 0, consecutiveSuccesses := 0, lastOkTs := now,
         downSinceTs := 0, busPub := connected }

/-- `look` carries the two `unix_ts()` readings of that stretch of code. -/
inductive WAct where
  | probe (ok : Bool)
  | look (now now' : UInt64)
  | flip
  | sink (ok : Bool)
  | emit (env : EmitEnv)
  deriving DecidableEq, Repr

/-- `buffer e`: some task calls `maybe_buffer` with `e`. -/
inductive HubAct where
  | buffer (e : BufferedEvent)
  | watch (a : WAct)
  deriving DecidableEq, Repr

/-- What the steps show. -/
inductive Obs where
  /-- `maybe_buffer` returned `false` -/
  | refused (e : BufferedEvent)
  /-- popped by the eviction loop -/
  | overflowed (e : BufferedEvent)
  /-- `maybe_buffer` returned `true` -/
  | accepted (e : BufferedEvent)
  | probed (ok : Bool)
  | flipped (st : HubState)
  /-- handed to `nats_sink.publish`, with its result -/
  | flushed (e : BufferedEvent) (ok : Bool)
  /-- `emit_local` with this topic and data, and whether the event was written to the bus -/
  | announced (topic : String) (data : Value) (written : Bool)
  deriving DecidableEq

/-- One `maybe_buffer` call. -/
def bufferStep (cfg : HubWatcherConfig) (h : Hub) (e : BufferedEvent) : Hub × List Obs :=
  let (taken, live) := maybeBuffer cfg h.live e
  ({ h with live := live },
    if taken then (evict cfg h.live.buffer e).1.map .overflowed ++ [.accepted e]
    else [.refused e])

/-- mirrors src/hub_watcher.rs:334-417 -/
def watchStep (cfg : HubWatcherConfig) (h : Hub) : WAct → Option (Hub × List Obs)
  | .probe ok =>
    match h.w.pc with
    | .sleep => some ({ h with w := { h.w with pc := .probed ok } }, [.probed ok])
    | _ => none
  | .look now now' =>
    match h.w.pc with
    | .probed true =>
      let successes := satSucc h.w.consecutiveSuccesses
      let w := { h.w with lastOkTs := now, consecutiveFailures := 0,
                          consecutiveSuccesses := successes }
      if h.live.state = .down ∧ cfg.upThreshold ≤ successes then
        some ({ h with w := { w with pc := .goUp (satSub now' w.downSinceTs) } }, [])
      else some ({ h with w := { w with pc := .sleep } }, [])
    | .probed false =>
      let failures := satSucc h.w.consecutiveFailures
      let w := { h.w with consecutiveSuccesses := 0, consecutiveFailures := failures }
      if h.live.state = .up ∧ cfg.downThreshold ≤ failures then
        some ({ h with w := { w with downSinceTs := now, pc := .goDown } }, [])
      else some ({ h with w := { w with pc := .sleep } }, [])
    | _ => none
  | .flip =>
    match h.w.pc with
    | .goUp dur =>
      some ({ live := { h.live with state := .up, buffer := [] },
              w := { h.w with consecutiveSuccesses := 0, pc := .flush h.live.buffer dur } },
        [.flipped .up])
    | .goDown =>
      some ({ live := { h.live with state := .down },
              w := { h.w with consecutiveFailures := 0, pc := .emitDown } },
        [.flipped .down])
    | _ => none
  | .sink ok =>
    match h.w.pc with
    | .flush (e :: evs) dur =>
      some ({ h with w := { h.w with pc := .flush evs dur } }, [.flushed e ok])
    | _ => none
  | .emit env =>
    let (written, busPub) := emitLocal h.w.busPub env
    match h.w.pc with
    | .flush [] dur =>
      some ({ h with w := { h.w with pc := .sleep, busPub := busPub } },
        [.announced (hubTopic .up) (hubUpData cfg.nodeId dur) written])
    | .emitDown =>
      some ({ h with w := { h.w with pc := .sleep, busPub := busPub } },
        [.announced (hubTopic .down) (hubDownData cfg.nodeId h.w.downSinceTs h.w.lastOkTs) written])
    | _ => none

def hubStep (cfg : HubWatcherConfig) (h : Hub) : HubAct → Option (Hub × List Obs)
  | .buffer e => some (bufferStep cfg h e)
  | .watch a => watchStep cfg h a

/-- The watcher and any callers of `maybe_buffer`, from `new_shared_liveness`. -/
def hubMach (cfg : HubWatcherConfig) : Mach Hub HubAct Obs where
  init h := ∃ connected now, h = Hub.start connected now
  step := hubStep cfg

/-! ## What a step can do -/

inductive HubStep (cfg : HubWatcherConfig) (h : Hub) : HubAct → Hub → List Obs → Prop where
  | refused (e : BufferedEvent) (hs : h.live.state = .up) :
      HubStep cfg h (.buffer e) h [.refused e]
  | accepted (e : BufferedEvent) (popped kept : List BufferedEvent)
      (hs : h.live.state = .down) (he : evict cfg h.live.buffer e = (popped, kept)) :
      HubStep cfg h (.buffer e)
        { h with live := { h.live with buffer := kept ++ [e],
                                       dropped := h.live.dropped + .ofNat popped.length } }
        (popped.map .overflowed ++ [.accepted e])
  | probe (ok : Bool) (hpc : h.w.pc = .sleep) :
      HubStep cfg h (.watch (.probe ok)) { h with w := { h.w with pc := .probed ok } } [.probed ok]
  | okStay (now now' : UInt64) (hpc : h.w.pc = .probed true)
      (hn : ¬ (h.live.state = .down ∧ cfg.upThreshold ≤ satSucc h.w.consecutiveSuccesses)) :
      HubStep cfg h (.watch (.look now now'))
        { h with w := { h.w with lastOkTs := now, consecutiveFailures := 0,
                                 consecutiveSuccesses := satSucc h.w.consecutiveSuccesses,
                                 pc := .sleep } } []
  | okUp (now now' : UInt64) (hpc : h.w.pc = .probed true) (hs : h.live.state = .down)
      (ht : cfg.upThreshold ≤ satSucc h.w.consecutiveSuccesses) :
      HubStep cfg h (.watch (.look now now'))
        { h with w := { h.w with lastOkTs := now, consecutiveFailures := 0,
                                 consecutiveSuccesses := satSucc h.w.consecutiveSuccesses,
                                 pc := .goUp (satSub now' h.w.downSinceTs) } } []
  | failStay (now now' : UInt64) (hpc : h.w.pc = .probed false)
      (hn : ¬ (h.live.state = .up ∧ cfg.downThreshold ≤ satSucc h.w.consecutiveFailures)) :
      HubStep cfg h (.watch (.look now now'))
        { h with w := { h.w with consecutiveSuccesses := 0,
                                 consecutiveFailures := satSucc h.w.consecutiveFailures,
                                 pc := .sleep } } []
  | failDown (now now' : UInt64) (hpc : h.w.pc = .probed false) (hs : h.live.state = .up)
      (ht : cfg.downThreshold ≤ satSucc h.w.consecutiveFailures) :
      HubStep cfg h (.watch (.look now now'))
        { h with w := { h.w with consecutiveSuccesses := 0,
                                 consecutiveFailures := satSucc h.w.consecutiveFailures,
                                 downSinceTs := now, pc := .goDown } } []
  | flipUp (dur : UInt64) (hpc : h.w.pc = .goUp dur) :
      HubStep cfg h (.watch .flip)
        { live := { h.live with state := .up, buffer := [] },
          w := { h.w with consecutiveSuccesses := 0, pc := .flush h.live.buffer dur } }
        [.flipped .up]
  | flipDown (hpc : h.w.pc = .goDown) :
      HubStep cfg h (.watch .flip)
        { live := { h.live with state := .down },
          w := { h.w with consecutiveFailures := 0, pc := .emitDown } }
        [.flipped .down]
  | sink (e : BufferedEvent) (evs : List BufferedEvent) (dur : UInt64) (ok : Bool)
      (hpc : h.w.pc = .flush (e :: evs) dur) :
      HubStep cfg h (.watch (.sink ok)) { h with w := { h.w with pc := .flush evs dur } }
        [.flushed e ok]
  | emitUp (dur : UInt64) (env : EmitEnv) (hpc : h.w.pc = .flush [] dur) :
      HubStep cfg h (.watch (.emit env))
        { h with w := { h.w with pc := .sleep, busPub := (emitLocal h.w.busPub env).2 } }
        [.announced (hubTopic .up) (hubUpData cfg.nodeId dur) (emitLocal h.w.busPub env).1]
  | emitDown (env : EmitEnv) (hpc : h.w.pc = .emitDown) :
      HubStep cfg h (.watch (.emit env))
        { h with w := { h.w with pc := .sleep, busPub := (emitLocal h.w.busPub env).2 } }
        [.announced (hubTopic .down) (hubDownData cfg.nodeId h.w.downSinceTs h.w.lastOkTs)
          (emitLocal h.w.busPub env).1]

theorem bufferStep_cases (cfg : HubWatcherConfig) (h : Hub) (e : BufferedEvent) :
    HubStep cfg h (.buffer e) (bufferStep cfg h e).1 (bufferStep cfg h e).2 := by
  cases hs : h.live.state with
  | up =>
    simp only [bufferStep, maybeBuffer_up cfg e hs]
    exact .refused e hs
  | down =>
    simp only [bufferStep, maybeBuffer_down cfg e hs]
    exact .accepted e _ _ hs rfl

theorem watchStep_cases {cfg : HubWatcherConfig} {h h' : Hub} {a : WAct} {os : List Obs}
    (hst : watchStep cfg h a = some (h', os)) : HubStep cfg h (.watch a) h' os := by
  cases a with
  | probe ok =>
    simp only [watchStep] at hst
    split at hst
    · cases hst
      exact .probe ok ‹_›
    · cases hst
  | look now now' =>
    simp only [watchStep] at hst
    split at hst
    · rename_i hpc
      split at hst
      · rename_i hc
        cases hst
        exact .okUp now now' hpc hc.1 hc.2
      · rename_i hn
        cases hst
        exact .okStay now now' hpc hn
    · rename_i hpc
      split at hst
      · rename_i hc
        cases hst
        exact .failDown now now' hpc hc.1 hc.2
      · rename_i hn
        cases hst
        exact .failStay now now' hpc hn
    · cases hst
  -- by position: `split` would search all durations to tell the positions apart
  | flip =>
    cases hpc : h.w.pc with
    | goUp dur =>
      simp only [watchStep, hpc] at hst
      cases hst
      exact .flipUp dur hpc
    | goDown =>
      simp only [watchStep, hpc] at hst
      cases hst
      exact .flipDown hpc
    | _ => simp [watchStep, hpc] at hst
  | sink ok =>
    simp only [watchStep] at hst
    split at hst
    · cases hst
      exact .sink _ _ _ ok ‹_›
    · cases hst
  | emit env =>
    cases hpc : h.w.pc with
    | flush evs dur =>
      cases evs with
      | nil =>
        simp only [watchStep, hpc] at hst
        cases hst
        exact .emitUp dur env hpc
      | cons e evs => simp [watchStep, hpc] at hst
    | emitDown =>
      simp only [watchStep, hpc] at hst
      cases hst
      exact .emitDown env hpc
    | _ => simp [watchStep, hpc] at hst

theorem hubStep_cases {cfg : HubWatcherConfig} {h h' : Hub} {a : HubAct} {os : List Obs}
    (hst : hubStep cfg h a = some (h', os)) : HubStep cfg h a h' os := by
  cases a with
  | buffer e =>
    simp only [hubStep, Option.some.injEq] at hst
    have := bufferStep_cases cfg h e
    rwa [hst] at this
  | watch a => exact watchStep_cases hst

/-- Every listed step is enabled. -/
theorem HubStep.enabled {cfg : HubWatcherConfig} {h h' : Hub} {a : HubAct} {os : List Obs}
    (hst : HubStep cfg h a h' os) : hubStep cfg h a = some (h', os) := by
  cases hst with
  | refused e hs => simp [hubStep, bufferStep, maybeBuffer_up cfg e hs]
  | accepted e popped kept hs he => simp [hubStep, bufferStep, maybeBuffer_down cfg e hs, he]
  | okStay now now' hpc hn => simp [hubStep, watchStep, hpc, hn]
  | okUp now now' hpc hs ht => simp [hubStep, watchStep, hpc, hs, ht]
  | failStay now now' hpc hn => simp [hubStep, watchStep, hpc, hn]
  | failDown now now' hpc hs ht => simp [hubStep, watchStep, hpc, hs, ht]
  | _ => simp only [hubStep, watchStep, *]

/-- An invariant of the hub machine is proved step by step through `HubStep`. -/
theorem hub_inductive {cfg : HubWatcherConfig} {G : Hub → HubAct → Prop}
    {I : List HubAct → Hub → List Obs → Prop}
    (hinit : ∀ connected now, I [] (Hub.start connected now) [])
    (hstep : ∀ as h tr a h' os, I as h tr → G h a → HubStep cfg h a h' os →
      I (as ++ [a]) h' (tr ++ os)) : (hubMach cfg).Inductive G I where
  init := by
    rintro h ⟨connected, now, rfl⟩
    exact hinit connected now
  step as h tr a h' os hI hg hst := hstep as h tr a h' os hI hg (hubStep_cases hst)

/-! ## Position and state agree -/

/-- The state the watcher knows at each position: only it flips the state, so
what it read before a flip still holds at the flip. -/
def PcState (st : HubState) : WPc → Prop
  | .goUp _ => st = .down
  | .goDown => st = .up
  | .flush _ _ => st = .up
  | .emitDown => st = .down
  | _ => True

structure Coherent (h : Hub) : Prop where
  pc : PcState h.live.state h.w.pc
  up_empty : h.live.state = .up → h.live.buffer = []

theorem coherent_start (connected : Bool) (now : UInt64) : Coherent (Hub.start connected now) :=
  ⟨trivial, fun _ => rfl⟩

theorem coherent_step {cfg : HubWatcherConfig} {h h' : Hub} {a : HubAct} {os : List Obs}
    (hI : Coherent h) (hst : HubStep cfg h a h' os) : Coherent h' := by
  obtain ⟨hpc', hup⟩ := hI
  cases hst with
  | refused e hs => exact ⟨hpc', hup⟩
  | accepted e popped kept hs he => exact ⟨hpc', fun e => by simp only at e; rw [hs] at e; cases e⟩
  | probe ok hpc => exact ⟨trivial, hup⟩
  | okStay now now' hpc hn => exact ⟨trivial, hup⟩
  | okUp now now' hpc hs ht => exact ⟨hs, hup⟩
  | failStay now now' hpc hn => exact ⟨trivial, hup⟩
  | failDown now now' hpc hs ht => exact ⟨hs, hup⟩
  | flipUp dur hpc => exact ⟨rfl, fun _ => rfl⟩
  | flipDown hpc => exact ⟨rfl, fun e => by cases e⟩
  | sink e evs dur ok hpc =>
    rw [hpc] at hpc'
    exact ⟨hpc', hup⟩
  | emitUp dur env hpc => exact ⟨trivial, hup⟩
  | emitDown env hpc => exact ⟨trivial, hup⟩

/-- While DOWN nothing is in flight to the sink. -/
theorem Coherent.drained_down {h : Hub} (hI : Coherent h) (hs : h.live.state = .down) :
    drained h.w.pc = [] := by
  have hpc := hI.pc
  rw [hs] at hpc
  cases hw : h.w.pc with
  | flush evs dur => rw [hw] at hpc; cases hpc
  | _ => rfl

end WmBusbridge.L3
