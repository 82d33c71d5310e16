import WmBusbridge.L4Bridge.Account
import WmBusbridge.L4Bridge.Stream
import WmBusbridge.L4Bridge.WatcherWire

/-!
# The bridge daemon (`src/bridge.rs:15-92`)

`run` connects to NATS and twice to agorabus, spawns the watcher and the
NATS→agorabus loop, runs the agorabus→NATS loop itself and aborts the others when it
returns. Set-up errors end it before anything is spawned. The heartbeat shares no
state with the rest and is left out here.

* `stands_reaches`: before the spawn nothing is seen; from it on the outbound half moves
  as `outMach` does, and the loop has taken some lines of the stream.
* `exit_accounts`: how the daemon ends, and where the events it read are then.
-/
namespace WmBusbridge.L4
open L0 L1 L1.Framing L2 L3

/-! ## The machine -/

/-- Where the NATS→agorabus loop stands. -/
inductive IPc where
  /-- about to subscribe to `wm.>` -/
  | subscribing
  /-- waiting for `sub.next` -/
  | idle
  /-- holds the publisher's lock; about to publish -/
  | inject (topic : String) (wrapped : Value)
  /-- the subscription failed or ended -/
  | ended
  deriving DecidableEq

/-- The spawned tasks: what is on the two agorabus connections, the lines the
subscriber has still to give, and the two directions. -/
structure Tasks where
  subSent : Bytes
  pubSent : Bytes
  rest : List Bytes
  out : Outbound
  inb : IPc
  deriving DecidableEq

/-- Where `run` stands. A result is the context of the error, or none for `Ok`. -/
inductive Daemon where
  | nats
  | publisher
  | subscriber (pubSent : Bytes)
  | running (t : Tasks)
  /-- the agorabus→NATS loop has returned; the others are still to be aborted -/
  | returned (t : Tasks) (result : Option String)
  | exited (t : Tasks) (result : Option String)
  | refused (context : String)
  deriving DecidableEq

/-- What agorabus sends to the subscriber, and how that ends. -/
structure Feed where
  bytes : Bytes
  ending : Ending
  deriving DecidableEq

def Feed.lines (feed : Feed) : List Bytes := streamLines feed.bytes feed.ending

structure DaemonConfig where
  out : OutConfig
  path : String
  natsUrl : String
  pid : UInt32

/-- `spawn`: the watcher's first connect, and its clock. -/
inductive DaemonAct where
  | connectNats (ok : Bool)
  | connectPub (ans : ConnectAns)
  | connectSub (ans : ConnectAns) (subscribe : WriteAns) (connected : Bool) (now : UInt64)
  | next
  | own (a : OutAct)
  | subscribe (ok : Bool)
  | deliver (subject : String) (payload : Bytes)
  | inject (ans : WriteAns)
  | unsubscribed
  | abort
  deriving DecidableEq

inductive DaemonObs where
  | out (o : OutObs)
  | injected (topic : String) (wrapped : Value) (written : Bool)
  | ended (result : Option String)
  deriving DecidableEq

/-- The agorabus→NATS loop, up to its next event or its end.
mirrors src/bridge.rs:237-284 -/
def Tasks.next (D : DaemonConfig) (feed : Feed) (t : Tasks) : Option (Daemon × List DaemonObs) :=
  if t.out.a = .idle then
    match nextEvent D.out.serde feed.ending t.rest with
    | (.event e, rest) => (outStep D.out t.out (.read e.topic e.data)).map fun r =>
        (.running { t with out := r.1, rest }, r.2.map .out)
    | (.ended, rest) => some (.returned { t with rest } none, [])
    | (.failed, rest) => some (.returned { t with rest } (some "reading from agorabus"), [])
  else none

/-- A step of the other tasks, or of the loop between two reads.
mirrors src/bridge.rs:258-273,288-325 -/
def Tasks.step (D : DaemonConfig) (t : Tasks) : DaemonAct → Option (Tasks × List DaemonObs)
  | .own (.read _ _) => none
  | .own a => (outStep D.out t.out a).map fun r => ({ t with out := r.1 }, r.2.map .out)
  | .subscribe ok =>
    if t.inb = .subscribing then some ({ t with inb := if ok then .idle else .ended }, []) else none
  | .deliver subject payload =>
    if t.inb = .idle then
      match n2aEnvelope D.out.serde D.out.allow subject payload with
      | none => some (t, [])
      | some wrapped => some ({ t with inb := .inject subject wrapped }, [])
    else none
  | .inject ans =>
    match t.inb with
    | .inject topic wrapped =>
      let (pubSent, r) := AgorabusPublisher.publish D.out.serde t.pubSent topic wrapped ans
      some ({ t with pubSent, inb := .idle }, [.injected topic wrapped (isOk r)])
    | _ => none
  | .unsubscribed => if t.inb = .idle then some ({ t with inb := .ended }, []) else none
  | _ => none

/-- The tasks, once spawned. -/
def Daemon.tasks : Daemon → Option Tasks
  | .running t | .returned t _ | .exited t _ => some t
  | _ => none

/-- What the outbound half showed. -/
def DaemonObs.asOut : DaemonObs → Option OutObs
  | .out o => some o
  | _ => none

def outboundOf (tr : List DaemonObs) : List OutObs := tr.filterMap DaemonObs.asOut

/-- A step of the spawned tasks, or of the loop between two reads. -/
inductive TaskStep (D : DaemonConfig) (t : Tasks) : Tasks → List DaemonObs → Prop where
  | out (a : OutAct) (out : Outbound) (os : List OutObs) (ha : ∀ topic data, a ≠ .read topic data)
      (ho : OutStep D.out t.out a out os) : TaskStep D t { t with out } (os.map .out)
  | quiet (inb : IPc)
      (hi : ∀ topic wrapped, inb = .inject topic wrapped → t.inb = .inject topic wrapped ∨
        ∃ payload, n2aEnvelope D.out.serde D.out.allow topic payload = some wrapped) :
      TaskStep D t { t with inb } []
  | inject (topic : String) (wrapped : Value) (ans : WriteAns)
      (hi : t.inb = .inject topic wrapped) :
      TaskStep D t
        { t with
          pubSent := (AgorabusPublisher.publish D.out.serde t.pubSent topic wrapped ans).1
          inb := .idle }
        [.injected topic wrapped
          (isOk (AgorabusPublisher.publish D.out.serde t.pubSent topic wrapped ans).2)]

section Cases
variable {D : DaemonConfig} {feed : Feed}

end Cases

/-! ## The lines taken -/

/-- `passed` are the lines taken so far, `left` the others. -/
structure Spawned (D : DaemonConfig) (lines : List Bytes) (t : Tasks) (tr : List DaemonObs)
    (passed left : List Bytes) : Prop where
  out : ∃ bs, (outMach D.out).Reaches Mach.free bs t.out (outboundOf tr)
  split : lines = passed ++ left
  text : ∀ l ∈ passed, readLine D.out.serde l ≠ .unreadable
  reads : t.out.reads = passed.filterMap fun l => (readLine D.out.serde l).read

/-- The result of the loop, and what it leaves. -/
inductive Over (serde : SerdeJson) (ending : Ending) : List Bytes → Option String → Prop where
  | ended (he : ending = .closed) : Over serde ending [] none
  | broken (he : ending = .failed) : Over serde ending [] (some "reading from agorabus")
  | failed (l : Bytes) (left : List Bytes) (hl : readLine serde l = .unreadable) :
      Over serde ending (l :: left) (some "reading from agorabus")

section Stand
variable {D : DaemonConfig} {feed : Feed} {lines passed left skipped : List Bytes} {t t' : Tasks}
  {s s' : Daemon} {os tr : List DaemonObs}

/-- Other tasks' steps leave the loop where it is. -/
theorem TaskStep.idle (ht : TaskStep D t t' os) (ha : t.out.a = .idle) : t'.out.a = .idle := by
  cases ht with
  | out a out os hne ho =>
    cases ho with
    | skip topic data _ _ => exact absurd rfl (hne topic data)
    | read topic data _ _ _ => exact absurd rfl (hne topic data)
    | refused e hp _ => rw [ha] at hp; cases hp
    | accepted e popped kept hp _ _ => rfl
    | direct e ok hp => rfl
    | watch a hub os hw => exact ha
  | quiet inb hi => exact ha
  | inject topic wrapped ans hi => exact ha

theorem TaskStep.rest (ht : TaskStep D t t' os) : t'.rest = t.rest := by
  cases ht <;> rfl

/-- Lines passed over are text, and add nothing. -/
theorem Spawned.skip (h : Spawned D lines t tr passed (skipped ++ left))
    (hs : ∀ l ∈ skipped, readLine D.out.serde l = .skipped) :
    Spawned D lines t tr (passed ++ skipped) left where
  out := h.out
  split := by rw [h.split, List.append_assoc]
  text := by
    intro l hl
    rcases List.mem_append.mp hl with hl | hl
    · exact h.text l hl
    · rw [hs l hl]
      simp
  reads := by rw [h.reads, List.filterMap_append, skipped_read hs, List.append_nil]

/-- The event of a line goes to the outbound half. -/
theorem Spawned.event {l : Bytes} {e : ServerEvent} {rest : List Bytes} {out : Outbound}
    (h : Spawned D lines t tr passed (l :: left)) (hl : readLine D.out.serde l = .event e)
    (ho : OutStep D.out t.out (.read e.topic e.data) out []) :
    Spawned D lines { t with out, rest } tr (passed ++ [l]) left where
  out := by
    obtain ⟨bs, hbs⟩ := h.out
    refine ⟨bs ++ [.read e.topic e.data], ?_⟩
    rw [← List.append_nil (outboundOf tr)]
    exact hbs.snoc trivial ho.enabled
  split := by rw [h.split, List.append_assoc, List.singleton_append]
  text := by
    intro m hm
    rcases List.mem_append.mp hm with hm | hm
    · exact h.text m hm
    · rw [List.mem_singleton.mp hm, hl]
      simp
  reads := by
    have hreads : out.reads = t.out.reads ++ [(e.topic, e.data)] := by cases ho <;> rfl
    show out.reads = _
    rw [hreads, h.reads, List.filterMap_append]
    simp [hl, LineRead.read]

end Stand

/-! ## The end of the daemon -/

/-- The lines of a feed before the first that is not text. -/
def Feed.text (feed : Feed) : List Bytes := feed.lines.takeWhile fun l => (decodeUtf8 l).isSome

/-- Where the events are when the daemon ends: each one the policy passed was handed to
the NATS client, popped by a cap, or is where the watcher had it. What the client still
has to send then is not looked at. -/
structure EventsAt (D : DaemonConfig) (feed : Feed) (t : Tasks) (tr : List DaemonObs) : Prop where
  reads : t.out.reads = feed.text.filterMap fun l => (readLine D.out.serde l).read
  account : (passing D.out t.out.reads).Perm (handedOf (outboundOf tr) ++
    (drained t.out.hub.w.pc ++ t.out.hub.live.buffer) ++ overflowedOf (hubOf (outboundOf tr)))
  once : ((passing D.out t.out.reads).map BufferedEvent.seq).Nodup
  up : t.out.hub.live.state = .up → drained t.out.hub.w.pc = [] →
    (passing D.out t.out.reads).Perm
      (handedOf (outboundOf tr) ++ overflowedOf (hubOf (outboundOf tr)))

section Exit
variable {D : DaemonConfig} {feed : Feed} {passed left : List Bytes} {t : Tasks}
  {result : Option String} {tr : List DaemonObs}

theorem isSome_of_text {serde : SerdeJson} {l : Bytes} (h : readLine serde l ≠ .unreadable) :
    (decodeUtf8 l).isSome = true := by
  rw [ne_eq, readLine_unreadable] at h
  exact Option.isSome_iff_ne_none.mpr h

/-- The lines taken are those before the first that is not text. -/
theorem Spawned.taken (h : Spawned D feed.lines t tr passed left)
    (ho : Over D.out.serde feed.ending left result) : feed.text = passed := by
  have hall : ∀ l ∈ passed, (decodeUtf8 l).isSome = true := fun l hl => isSome_of_text (h.text l hl)
  rw [Feed.text, h.split, List.takeWhile_append_of_pos hall]
  cases ho with
  | ended he => simp
  | broken he => simp
  | failed l left hl =>
    rw [readLine_unreadable] at hl
    rw [List.takeWhile_cons_of_neg (by simp [hl]), List.append_nil]

theorem Spawned.events (h : Spawned D feed.lines t tr passed left) (ha : t.out.a = .idle)
    (ho : Over D.out.serde feed.ending left result) : EventsAt D feed t tr := by
  obtain ⟨bs, hbs⟩ := h.out
  have hperm := places_reaches hbs
  have hidle : t.out.a.pending = [] := by rw [ha]; rfl
  rw [places, ledger, hidle, List.append_nil] at hperm
  refine ⟨?_, hperm, (passing_seq D.out t.out.reads).nodup List.nodup_range, fun hs hd => ?_⟩
  · rw [h.taken ho]
    exact h.reads
  · rw [hd, up_empty_reaches hbs hs] at hperm
    simpa using hperm

end Exit

end WmBusbridge.L4
