import Mathlib.Data.List.Forall2
import WmBusbridge.L3Watcher.Conserve
import WmBusbridge.L4Bridge.BusWire

/-!
# The watcher on its sockets

`wireMach` is the hub machine with the watcher's local-bus connections as bytes:
`emit_local` writes lines, may be cut short in one, drops its connection and opens
another. A peer reads a connection line by line and takes what is JSON.

* `wire_hub_reaches`: through what the bytes amount to, it is the hub machine.
* `watcher_transcript`: every connection begins with its announcement, and what was
  reported written is received in order, but for one event on a connection whose
  first event was cut short and that was kept all the same.
-/
namespace WmBusbridge.L4
open L0 L1 L1.Framing L3

/-! ## The machine -/

/-- `busPub` of the watcher stands for the connection in `bus`. -/
structure Wire where
  hub : Hub
  bus : BusConns
  deriving DecidableEq

/-- A step of the hub machine other than an announcement, or an announcement. -/
inductive WireAct where
  | hub (a : HubAct)
  | emit (ans : EmitAns)
  deriving DecidableEq

/-- A topic and the data. -/
abbrev Notice := String × Value

/-- The announcement the watcher is about to make.
mirrors src/hub_watcher.rs:383-388,408-414 -/
def noticeDue (cfg : HubWatcherConfig) (w : Watcher) : Option Notice :=
  match w.pc with
  | .flush [] dur => some (hubTopic .up, hubUpData cfg.nodeId dur)
  | .emitDown => some (hubTopic .down, hubDownData cfg.nodeId w.downSinceTs w.lastOkTs)
  | _ => none

def isEmit : HubAct → Bool
  | .watch (.emit _) => true
  | _ => false

/-- The hub as the hub machine has it. -/
def Wire.view (s : Wire) : Hub :=
  { s.hub with w := { s.hub.w with busPub := s.bus.current.isSome } }

def wireStep (cfg : HubWatcherConfig) (B : BusEnv) (s : Wire) : WireAct → Option (Wire × List Obs)
  | .hub a =>
    if isEmit a then none
    else (hubStep cfg s.view a).map fun r => ({ s with hub := r.1 }, r.2)
  | .emit ans =>
    (noticeDue cfg s.hub.w).map fun n =>
      let (bus, written) := emitWire B s.bus n.1 n.2 ans
      ({ hub := { s.hub with w := { s.hub.w with pc := .sleep } }, bus },
        [.announced n.1 n.2 written])

def wireMach (cfg : HubWatcherConfig) (B : BusEnv) : Mach Wire WireAct Obs where
  init s := ∃ ans now, s = { hub := Hub.start false now, bus := BusConns.start B ans }
  step := wireStep cfg B

/-! ## It is the hub machine -/

section Simulation
variable {cfg : HubWatcherConfig} {B : BusEnv}

/-- Only announcements touch the connection. -/
theorem hubStep_busPub {h h' : Hub} {a : HubAct} {os : List Obs} (hst : HubStep cfg h a h' os)
    (ha : isEmit a = false) : h'.w.busPub = h.w.busPub := by
  cases hst with
  | emitUp dur env hpc => cases ha
  | emitDown env hpc => cases ha
  | _ => rfl

/-- An announcement that is due can be made. -/
theorem noticeDue_step {h : Hub} {n : Notice} (hn : noticeDue cfg h.w = some n) (env : EmitEnv) :
    HubStep cfg h (.watch (.emit env))
      { h with w := { h.w with pc := .sleep, busPub := (emitLocal h.w.busPub env).2 } }
      [.announced n.1 n.2 (emitLocal h.w.busPub env).1] := by
  cases hpc : h.w.pc with
  | flush evs dur =>
    cases evs with
    | nil =>
      simp only [noticeDue, hpc, Option.some.injEq] at hn
      subst hn
      exact .emitUp dur env hpc
    | cons e evs => simp [noticeDue, hpc] at hn
  | emitDown =>
    simp only [noticeDue, hpc, Option.some.injEq] at hn
    subst hn
    exact .emitDown env hpc
  | _ => simp [noticeDue, hpc] at hn

theorem wire_simulates (cfg : HubWatcherConfig) (B : BusEnv) :
    Mach.Simulates (wireMach cfg B) Mach.free (hubMach cfg) Mach.free Wire.view some := by
  intro s a s' os _ hst
  rw [List.filterMap_some]
  cases a with
  | hub a =>
    simp only [wireMach, wireStep] at hst
    split at hst
    · cases hst
    · rename_i ha
      obtain ⟨⟨h', os'⟩, hh, heq⟩ := Option.map_eq_some_iff.mp hst
      cases heq
      -- the connection is as before, so the view of what comes out is what came out
      have hbus := hubStep_busPub (hubStep_cases hh) (Bool.not_eq_true _ ▸ ha)
      have hview : Wire.view { s with hub := h' } = h' := by
        rw [Wire.view]
        show { h' with w := { h'.w with busPub := s.view.w.busPub } } = h'
        rw [← hbus]
      rw [hview]
      exact ⟨[a], .single trivial hh⟩
  | emit ans =>
    simp only [wireMach, wireStep] at hst
    obtain ⟨n, hn, heq⟩ := Option.map_eq_some_iff.mp hst
    cases heq
    have href := emitWire_refines B s.bus n.1 n.2 ans
    have hwritten : (emitWire B s.bus n.1 n.2 ans).2 =
        (emitLocal s.view.w.busPub (ans.env B n.1 n.2)).1 := congrArg Prod.fst href
    have hheld : (emitWire B s.bus n.1 n.2 ans).1.current.isSome =
        (emitLocal s.view.w.busPub (ans.env B n.1 n.2)).2 := congrArg Prod.snd href
    have hdue : noticeDue cfg s.view.w = some n := hn
    have hstep := (noticeDue_step hdue (ans.env B n.1 n.2)).enabled
    rw [← hwritten, ← hheld] at hstep
    exact ⟨[.watch (.emit (ans.env B n.1 n.2))], .single trivial hstep⟩

/-- Whether the first connect succeeded is all that the hub machine sees of it. -/
theorem view_init {cfg : HubWatcherConfig} {B : BusEnv} {s : Wire}
    (h0 : (wireMach cfg B).init s) : (hubMach cfg).init s.view := by
  obtain ⟨ans, now, rfl⟩ := h0
  exact ⟨(BusConns.start B ans).current.isSome, now, rfl⟩

end Simulation

def noticeMsg (n : Notice) : Value := publishFromMsg n.1 n.2 WATCHER_SESSION

def watcherAnnounce (B : BusEnv) : Value :=
  announceMsg WATCHER_SESSION B.pid "hub liveness watcher"

/-- The announcements reported as written. -/
def writtenOf (tr : List Obs) : List Notice :=
  tr.filterMap fun
    | .announced topic data true => some (topic, data)
    | _ => none

/-- What a write that fails leaves: a part of a message, maybe none of it. -/
def IsPart (serde : SerdeJson) (p : Bytes) : Prop :=
  p = [] ∨ ∃ msg buf, serde.toVec msg = some buf ∧ p <+: buf

/-- A connection the watcher may go on with: the announcement, a part of a first event
that failed, and the events written. -/
def OpenConn (B : BusEnv) (b stub : Bytes) (written : List Notice) : Prop :=
  IsPart B.serde stub ∧ ∃ a ls, B.serde.toVec (watcherAnnounce B) = some a ∧
    List.Forall₂ (fun n l => B.serde.toVec (noticeMsg n) = some l) written ls ∧
    b = frame 0x0A a ++ stub ++ frames 0x0A ls

/-- Any connection: one whose announcement failed, or one that may end in a part of
an event. -/
inductive OnConn (B : BusEnv) : Bytes → Bytes → List Notice → Prop where
  | unannounced (p : Bytes) (hp : IsPart B.serde p) : OnConn B p [] []
  | announced (b stub tail : Bytes) (written : List Notice) (hb : OpenConn B b stub written)
      (ht : IsPart B.serde tail) : OnConn B (b ++ tail) stub written

theorem OpenConn.on {B : BusEnv} {b stub : Bytes} {written : List Notice}
    (h : OpenConn B b stub written) : OnConn B b stub written := by
  simpa using OnConn.announced b stub [] written h (.inl rfl)

/-- A connection, and what was written on it. -/
structure ConnLog (B : BusEnv) where
  bytes : Bytes
  stub : Bytes
  written : List Notice
  on : OnConn B bytes stub written

/-- The connections hold what was written, `w`; if `clean`, no event was cut short on a
connection that was kept. -/
def Logged (B : BusEnv) (clean : Prop) (b : BusConns) (w : List Notice) : Prop :=
  ∃ (dropped : List (ConnLog B)) (held : Option (ConnLog B)),
    dropped.map ConnLog.bytes = b.closed ∧ held.map ConnLog.bytes = b.current ∧
    (∀ c ∈ held, OpenConn B c.bytes c.stub c.written) ∧
    (dropped ++ held.toList).flatMap ConnLog.written = w ∧
    (clean → ∀ c ∈ dropped ++ held.toList, c.stub = [])

/-- Nothing is left of a line that was not written. -/
def WriteAns.Clean : WriteAns → Prop
  | .done => True
  | .torn n => n = 0

section Log
variable {B : BusEnv} {clean : Prop} {b : BusConns} {w : List Notice}

theorem IsPart.take {serde : SerdeJson} {msg : Value} {buf : Bytes}
    (h : serde.toVec msg = some buf) (n : Nat) : IsPart serde (buf.take n) :=
  .inr ⟨msg, buf, h, List.take_prefix n buf⟩

/-- A connect leaves a connection with the announcement on it, or one to drop. -/
theorem connect_leaves (B : BusEnv) (ans : ConnectAns) {sent : Bytes} {r : Except String Unit}
    (h : LocalBusPublisher.connect B.serde B.path B.pid ans = (sent, r)) :
    (isOk r = true → OpenConn B sent [] []) ∧ (isOk r = false → IsPart B.serde sent) := by
  unfold LocalBusPublisher.connect connectAs at h
  split at h
  · have hcase := sendLine_cases B.serde "serializing announce" "writing announce" []
      (watcherAnnounce B) ans.announce
    rw [watcherAnnounce, h] at hcase
    generalize isOk r = ok at hcase ⊢
    cases hcase with
    | unserialized hv => exact ⟨fun e => absurd e Bool.false_ne_true, fun _ => .inl rfl⟩
    | torn buf n hv => exact ⟨fun e => absurd e Bool.false_ne_true, fun _ => .take hv n⟩
    | done buf hv =>
      exact ⟨fun _ => ⟨.inl rfl, buf, [], hv, .nil, by simp [frame]⟩,
        fun e => absurd e.symm Bool.false_ne_true⟩
  · cases h
    exact ⟨fun e => absurd e Bool.false_ne_true, fun _ => .inl rfl⟩

/-- A publish adds the event to an open connection, or leaves a part to drop. -/
theorem publish_leaves {sent stub : Bytes} {written : List Notice} (n : Notice) (ans : WriteAns)
    (hb : OpenConn B sent stub written) {sent' : Bytes} {r : Except String Unit}
    (h : LocalBusPublisher.publish B.serde sent n.1 n.2 ans = (sent', r)) :
    (isOk r = true → OpenConn B sent' stub (written ++ [n])) ∧
      (isOk r = false → ∃ tail, sent' = sent ++ tail ∧ IsPart B.serde tail ∧
        (ans.Clean → tail = [])) := by
  unfold LocalBusPublisher.publish sendLine at h
  cases hv : B.serde.toVec (publishFromMsg n.1 n.2 WATCHER_SESSION) with
  | none =>
    rw [hv] at h
    cases h
    exact ⟨fun e => (nomatch e), fun _ => ⟨[], (List.append_nil _).symm, .inl rfl, fun _ => rfl⟩⟩
  | some buf =>
    rw [hv] at h
    cases ans with
    | torn k =>
      cases h
      refine ⟨fun e => (nomatch e), fun _ => ⟨buf.take k, rfl, .take hv k, fun hc => ?_⟩⟩
      rw [show k = 0 from hc, List.take_zero]
    | done =>
      cases h
      obtain ⟨hstub, a, ls, ha, hls, rfl⟩ := hb
      refine ⟨fun _ => ⟨hstub, a, ls ++ [buf], ha, ?_, ?_⟩, fun e => (nomatch e)⟩
      · exact List.rel_append hls (.cons hv .nil)
      · rw [frames_append, List.append_assoc, List.append_assoc, List.append_assoc]
        simp

theorem logged_start (B : BusEnv) (clean : Prop) (ans : ConnectAns) :
    Logged B clean (BusConns.start B ans) [] := by
  unfold BusConns.start
  cases hc : LocalBusPublisher.connect B.serde B.path B.pid ans with
  | mk sent r =>
    obtain ⟨hopen, hpart⟩ := connect_leaves B ans hc
    cases r with
    | ok u =>
      refine ⟨[], some ⟨sent, [], [], (hopen rfl).on⟩, rfl, rfl, ?_, rfl, ?_⟩
      · rintro c ⟨⟩
        exact hopen rfl
      · rintro - c hmem
        simp only [List.nil_append, Option.toList_some, List.mem_singleton] at hmem
        rw [hmem]
    | error e =>
      dsimp only
      split
      · refine ⟨[⟨sent, [], [], .unannounced sent (hpart rfl)⟩], none, rfl, rfl, by simp, rfl, ?_⟩
        simp
      · exact ⟨[], none, rfl, rfl, by simp, rfl, by simp⟩

/-- A reconnect adds one connection at most, with the event on it if it was written. -/
theorem logged_reconnect {closed : List Bytes} {ans : EmitAns} {n : Notice}
    (hI : Logged B clean { closed, current := none } w) (hc : clean → ans.republish.Clean) :
    Logged B clean (reconnect B closed n.1 n.2 ans).1
      (w ++ if (reconnect B closed n.1 n.2 ans).2 = true then [n] else []) := by
  obtain ⟨dropped, held, hclosed, hheld, -, hw, hstub⟩ := hI
  obtain rfl : held = none := Option.map_eq_none_iff.mp hheld
  rw [Option.toList_none, List.append_nil] at hw hstub
  cases hconn : LocalBusPublisher.connect B.serde B.path B.pid ans.connect with
  | mk sent r =>
    obtain ⟨hopen, hpart⟩ := connect_leaves B ans.connect hconn
    cases r with
    | error e =>
      rw [reconnect_error hconn, if_neg Bool.false_ne_true, List.append_nil]
      dsimp only
      split
      · refine ⟨dropped ++ [⟨sent, [], [], .unannounced sent (hpart rfl)⟩], none, by simp [hclosed],
          rfl, by simp, by simp [hw], ?_⟩
        intro hcl c hmem
        rw [Option.toList_none, List.append_nil, List.mem_append, List.mem_singleton] at hmem
        rcases hmem with hmem | rfl
        · exact hstub hcl c hmem
        · rfl
      · exact ⟨dropped, none, hclosed, rfl, by simp, by simpa using hw, by simpa using hstub⟩
    | ok u =>
      cases hpub : LocalBusPublisher.publish B.serde sent n.1 n.2 ans.republish with
      | mk sent' r' =>
        obtain ⟨hok, hfail⟩ := publish_leaves n ans.republish (hopen rfl) hpub
        rw [reconnect_ok hconn hpub]
        -- the new connection is kept, whatever became of the event
        have hnew : ∃ c : ConnLog B, c.bytes = sent' ∧ OpenConn B c.bytes c.stub c.written ∧
            c.written = (if isOk r' = true then [n] else []) ∧ (clean → c.stub = []) := by
          cases hr : isOk r' with
          | true =>
            have ho := hok hr
            exact ⟨⟨sent', [], [n], ho.on⟩, rfl, ho, rfl, fun _ => rfl⟩
          | false =>
            obtain ⟨tail, rfl, htail, hclean⟩ := hfail hr
            obtain ⟨-, a, ls, ha, hls, rfl⟩ := hopen rfl
            have ho : OpenConn B (frame 0x0A a ++ [] ++ frames 0x0A ls ++ tail) tail [] := by
              refine ⟨htail, a, [], ha, .nil, ?_⟩
              cases hls
              simp
            exact ⟨⟨_, tail, [], ho.on⟩, rfl, ho, rfl, fun hcl => hclean (hc hcl)⟩
        obtain ⟨c, rfl, ho, hwritten, hcl⟩ := hnew
        refine ⟨dropped, some c, hclosed, rfl, ?_, ?_, ?_⟩
        · rintro c' ⟨⟩
          exact ho
        · rw [Option.toList_some, List.flatMap_append, hw, List.flatMap_singleton, hwritten]
        · intro hclean c' hmem
          rw [Option.toList_some, List.mem_append, List.mem_singleton] at hmem
          rcases hmem with hmem | rfl
          · exact hstub hclean c' hmem
          · exact hcl hclean

theorem logged_emit {ans : EmitAns} {n : Notice} (hI : Logged B clean b w)
    (hc : clean → ans.republish.Clean) :
    Logged B clean (emitWire B b n.1 n.2 ans).1
      (w ++ if (emitWire B b n.1 n.2 ans).2 = true then [n] else []) := by
  cases hb : b.current with
  | none =>
    rw [emitWire_none hb]
    have hb' : b = { closed := b.closed, current := none } := by rw [← hb]
    exact logged_reconnect (hb' ▸ hI) hc
  | some sent =>
    obtain ⟨dropped, held, hclosed, hheld, hopen, hw, hstub⟩ := hI
    obtain ⟨c, rfl, rfl⟩ := Option.map_eq_some_iff.mp (hheld.trans hb)
    have ho := hopen c rfl
    cases hpub : LocalBusPublisher.publish B.serde c.bytes n.1 n.2 ans.publish with
    | mk sent' r =>
      obtain ⟨hok, hfail⟩ := publish_leaves n ans.publish ho hpub
      cases r with
      | ok u =>
        have ho' := hok rfl
        rw [emitWire_ok hb hpub]
        refine ⟨dropped, some ⟨sent', c.stub, c.written ++ [n], ho'.on⟩, hclosed, rfl, ?_, ?_, ?_⟩
        · rintro c' ⟨⟩
          exact ho'
        · rw [← hw]
          simp
        · intro hcl c' hmem
          rw [Option.toList_some, List.mem_append, List.mem_singleton] at hmem
          rcases hmem with hmem | rfl
          · exact hstub hcl c' (List.mem_append_left _ hmem)
          · exact hstub hcl c (by simp)
      | error e =>
        -- the connection is dropped with what it holds
        obtain ⟨tail, rfl, htail, -⟩ := hfail rfl
        rw [emitWire_error hb hpub]
        refine logged_reconnect ⟨dropped ++ [⟨c.bytes ++ tail, c.stub, c.written,
          .announced _ _ _ _ ho htail⟩], none, by simp [hclosed], rfl, by simp, ?_, ?_⟩ hc
        · rw [← hw]
          simp
        · intro hcl c' hmem
          rw [Option.toList_none, List.append_nil, List.mem_append, List.mem_singleton] at hmem
          rcases hmem with hmem | rfl
          · exact hstub hcl c' (List.mem_append_left _ hmem)
          · exact hstub hcl c (by simp)

theorem Logged.mono {clean' : Prop} (h : Logged B clean b w) (hc : clean' → clean) :
    Logged B clean' b w := by
  obtain ⟨dropped, held, h1, h2, h3, h4, h5⟩ := h
  exact ⟨dropped, held, h1, h2, h3, h4, fun hcl => h5 (hc hcl)⟩

end Log

/-! ## Whole runs -/

@[simp] theorem writtenOf_append (a b : List Obs) :
    writtenOf (a ++ b) = writtenOf a ++ writtenOf b :=
  List.filterMap_append

/-- Only announcements are written. -/
theorem writtenOf_quiet {cfg : HubWatcherConfig} {h h' : Hub} {a : HubAct} {os : List Obs}
    (hst : HubStep cfg h a h' os) (ha : isEmit a = false) : writtenOf os = [] := by
  cases hst with
  | emitUp dur env hpc => cases ha
  | emitDown env hpc => cases ha
  | accepted e popped kept hs he => simp [writtenOf, List.filterMap_map]
  | _ => rfl

/-- No event is cut short right after a reconnect. -/
def CleanRun (as : List WireAct) : Prop := ∀ ans, .emit ans ∈ as → ans.republish.Clean

theorem wire_logged {cfg : HubWatcherConfig} {B : BusEnv} {as : List WireAct} {s : Wire}
    {tr : List Obs} (hr : (wireMach cfg B).Reaches Mach.free as s tr) :
    Logged B (CleanRun as) s.bus (writtenOf tr) := by
  have hind : (wireMach cfg B).Inductive Mach.free
      (fun as s tr => Logged B (CleanRun as) s.bus (writtenOf tr)) := by
    refine ⟨?_, ?_⟩
    · rintro s ⟨ans, now, rfl⟩
      exact logged_start B _ ans
    · intro as s tr a s' os hI _ hst
      have hbefore : CleanRun (as ++ [a]) → CleanRun as := fun hc ans hmem =>
        hc ans (List.mem_append_left _ hmem)
      cases a with
      | hub a =>
        simp only [wireMach, wireStep] at hst
        split at hst
        · cases hst
        · rename_i ha
          obtain ⟨⟨h', os'⟩, hh, heq⟩ := Option.map_eq_some_iff.mp hst
          cases heq
          rw [writtenOf_append, writtenOf_quiet (hubStep_cases hh) (Bool.not_eq_true _ ▸ ha),
            List.append_nil]
          exact hI.mono hbefore
      | emit ans =>
        simp only [wireMach, wireStep] at hst
        obtain ⟨n, -, heq⟩ := Option.map_eq_some_iff.mp hst
        cases heq
        have hw : writtenOf [.announced n.1 n.2 (emitWire B s.bus n.1 n.2 ans).2] =
            if (emitWire B s.bus n.1 n.2 ans).2 = true then [n] else [] := by
          cases (emitWire B s.bus n.1 n.2 ans).2 <;> rfl
        rw [writtenOf_append, hw]
        exact logged_emit (hI.mono hbefore) fun hc => hc ans (by simp)
  exact hind.reaches hr

/-! ## What a reader receives -/

/-- The JSON values of a reader that takes the stream line by line. -/
def received (serde : SerdeJson) (b : Bytes) : List Value := (byteLines b).filterMap serde.fromSlice

/-- Printed JSON is one line: no newline in it, and no carriage return at its end. -/
structure OneLine (serde : SerdeJson) : Prop where
  newline : ∀ v b, serde.toVec v = some b → 0x0A ∉ b
  cr : ∀ v b, serde.toVec v = some b → b.getLast? ≠ some 0x0D

theorem OneLine.table (t : List (Value × Bytes)) (ht : (t.map Prod.snd).Nodup)
    (h : ∀ e ∈ t, 0x0A ∉ e.2 ∧ e.2.getLast? ≠ some 0x0D) : OneLine (.table t ht) := by
  have hentry : ∀ v b, (SerdeJson.table t ht).toVec v = some b → (v, b) ∈ t := by
    intro v b hv
    obtain ⟨l₁, l₂, he, -⟩ := List.lookup_eq_some_iff.mp hv
    rw [he]
    exact List.mem_append_right _ List.mem_cons_self
  exact ⟨fun v b hv => (h _ (hentry v b hv)).1, fun v b hv => (h _ (hentry v b hv)).2⟩

/-- What is announced is read back as itself. -/
theorem noticeMsg_plain {cfg : HubWatcherConfig} {n : Notice} (h : IsNotice cfg n) :
    (noticeMsg n).Plain := by
  constructor
  · simp only [noticeMsg, publishFromMsg, Json.depth, Json.depthFields, h.depth]
    decide
  · simpa [noticeMsg, publishFromMsg, Json.Short, Json.numbers, Json.numbersFields] using h.short

theorem written_plain {cfg : HubWatcherConfig} {B : BusEnv} {as : List WireAct} {s : Wire}
    {tr : List Obs} (hr : (wireMach cfg B).Reaches Mach.free as s tr) :
    ∀ n ∈ writtenOf tr, (noticeMsg n).Plain := by
  obtain ⟨bs, hbs⟩ := (wire_simulates cfg B).reaches (fun _ => view_init) hr
  rw [List.filterMap_some] at hbs
  intro n hn
  obtain ⟨o, ho, heq⟩ := List.mem_filterMap.mp hn
  refine noticeMsg_plain (isNotice_reaches hbs n (List.mem_filterMap.mpr ⟨o, ho, ?_⟩))
  cases o with
  | announced topic data written => cases written <;> simp_all
  | _ => simp at heq

section Receive
variable {B : BusEnv} {serde : SerdeJson} {b p : Bytes} {ls : List Bytes}

theorem byteLines_frames (h : ∀ l ∈ ls, 0x0A ∉ l) :
    byteLines (frames 0x0A ls ++ b) = ls.map dropCr ++ byteLines b := by
  obtain ⟨init, rest, hb⟩ := (List.eq_nil_or_concat (b.splitOn 0x0A)).resolve_left
    (List.splitOn_ne_nil _ _)
  rw [List.concat_eq_append] at hb
  unfold byteLines
  rw [splitOn_frames h, hb]
  simp only [← List.append_assoc, List.dropLast_concat, List.getLastD_concat, List.map_append]

theorem received_frames (h : ∀ l ∈ ls, 0x0A ∉ l) : received serde (frames 0x0A ls ++ b) =
    (ls.map dropCr).filterMap serde.fromSlice ++ received serde b := by
  rw [received, byteLines_frames h, List.filterMap_append, received]

/-- What is no line yet is one value at most. -/
theorem received_part (h : 0x0A ∉ p) : (received serde p).length ≤ 1 := by
  have hlines : (byteLines p).length ≤ 1 := by
    unfold byteLines
    rw [List.splitOn_eq_singleton h]
    simp only [List.dropLast_singleton, List.map_nil, List.getLastD_cons, List.getLastD_nil,
      List.nil_append]
    split <;> simp
  exact (List.length_filterMap_le _ _).trans hlines

theorem IsPart.newline (hs : OneLine serde) (h : IsPart serde p) : 0x0A ∉ p := by
  rcases h with rfl | ⟨msg, buf, hv, hp⟩
  · exact List.not_mem_nil
  · exact not_mem_of_prefix (hs.newline _ _ hv) hp

theorem dropCr_toVec (hs : OneLine serde) {v : Value} (h : serde.toVec v = some b) :
    dropCr b = b := if_neg (hs.cr v b h)

/-- Lines written for messages are received as those messages. -/
theorem received_lines (hs : OneLine serde) {ms : List Notice}
    (hp : ∀ n ∈ ms, (noticeMsg n).Plain)
    (h : List.Forall₂ (fun n l => serde.toVec (noticeMsg n) = some l) ms ls) :
    (∀ l ∈ ls, 0x0A ∉ l) ∧ (ls.map dropCr).filterMap serde.fromSlice = ms.map noticeMsg := by
  induction h with
  | nil => exact ⟨by simp, rfl⟩
  | @cons n l ms ls hv _ ih =>
    rw [List.forall_mem_cons] at hp
    obtain ⟨hnl, hmsgs⟩ := ih hp.2
    refine ⟨List.forall_mem_cons.mpr ⟨hs.newline _ _ hv, hnl⟩, ?_⟩
    rw [List.map_cons, dropCr_toVec hs hv, List.filterMap_cons_some (hp.1.fromSlice_toVec hv),
      hmsgs, List.map_cons]

/-- What a reader of a connection receives: first the announcement, last maybe a
value made of a part; between them what was written, but that a first event cut
short takes the next one with it. -/
inductive Heard (B : BusEnv) (b stub : Bytes) (written : List Notice) : Prop where
  | unannounced (hw : written = []) (hr : (received B.serde b).length ≤ 1)
  | whole (extra : List Value) (hs : stub = [] ∨ written = []) (he : extra.length ≤ 1)
      (hr : received B.serde b = watcherAnnounce B :: (written.map noticeMsg ++ extra))
  | swallowed (n : Notice) (rest : List Notice) (garbled extra : List Value) (hs : stub ≠ [])
      (hw : written = n :: rest) (hg : garbled.length ≤ 1) (he : extra.length ≤ 1)
      (hr : received B.serde b = watcherAnnounce B :: (garbled ++ rest.map noticeMsg ++ extra))

theorem OnConn.heard (hs : OneLine B.serde) {stub : Bytes} {written : List Notice}
    (hp : ∀ n ∈ written, (noticeMsg n).Plain) (h : OnConn B b stub written) :
    Heard B b stub written := by
  cases h with
  | unannounced p hpart => exact .unannounced rfl (received_part (hpart.newline hs))
  | announced b stub tail written hb ht =>
    obtain ⟨hstub, a, ls, ha, hls, rfl⟩ := hb
    obtain ⟨hnl, hmsgs⟩ := received_lines hs hp hls
    have htail : (received B.serde tail).length ≤ 1 := received_part (ht.newline hs)
    -- the announcement is read first
    have hfirst : ∀ rest, received B.serde (frame 0x0A a ++ rest) =
        watcherAnnounce B :: received B.serde rest := by
      intro rest
      have hnewline : ∀ l ∈ [a], 0x0A ∉ l := by simpa using hs.newline _ _ ha
      have h : received B.serde (frames 0x0A [a] ++ rest) = _ := received_frames hnewline
      rw [frames_cons, frames_nil, List.append_nil] at h
      rw [h, List.map_singleton, dropCr_toVec hs ha,
        List.filterMap_cons_some ((announceMsg_plain _ _ _).fromSlice_toVec ha)]
      rfl
    have hsplit : received B.serde (frame 0x0A a ++ stub ++ frames 0x0A ls ++ tail) =
        watcherAnnounce B :: received B.serde (stub ++ frames 0x0A ls ++ tail) := by
      rw [List.append_assoc, List.append_assoc, hfirst, List.append_assoc]
    by_cases hempty : stub = []
    · refine .whole _ (.inl hempty) htail ?_
      rw [hsplit, hempty, List.nil_append, received_frames hnl, hmsgs]
    · cases hls with
      | nil =>
        refine .whole (received B.serde (stub ++ tail)) (.inr rfl) ?_ ?_
        · apply received_part
          rw [List.mem_append, not_or]
          exact ⟨hstub.newline hs, ht.newline hs⟩
        · rw [hsplit, frames_nil, List.append_nil]
          rfl
      | @cons n l rest ls hv hrest =>
        -- the first line goes on from what is left of the event before it
        rw [List.forall_mem_cons] at hp
        obtain ⟨hnl', hmsgs'⟩ := received_lines hs hp.2 hrest
        have hjoined : ∀ m ∈ [stub ++ l], (0x0A : UInt8) ∉ m := by
          simp only [List.mem_singleton, forall_eq, List.mem_append, not_or]
          exact ⟨hstub.newline hs, hnl l List.mem_cons_self⟩
        refine .swallowed n rest ([dropCr (stub ++ l)].filterMap B.serde.fromSlice) _ hempty rfl
          (List.length_filterMap_le _ _) htail ?_
        have happ : stub ++ frames 0x0A (l :: ls) ++ tail =
            frames 0x0A [stub ++ l] ++ (frames 0x0A ls ++ tail) := by
          rw [append_frames_cons, frames_cons, frames_cons, frames_nil, List.append_nil,
            List.append_assoc]
        rw [hsplit, happ, received_frames hjoined, received_frames hnl', hmsgs',
          List.map_singleton, List.append_assoc]

end Receive

/-- Every connection of the run as its reader has it, and, if no event was cut short
right after a reconnect, all that was written in order. -/
structure Transcript (B : BusEnv) (as : List WireAct) (s : Wire) (tr : List Obs) : Prop where
  conns : ∃ conns : List (ConnLog B), conns.map ConnLog.bytes = s.bus.all ∧
    conns.flatMap ConnLog.written = writtenOf tr ∧
    ∀ c ∈ conns, Heard B c.bytes c.stub c.written
  clean : CleanRun as →
    ((writtenOf tr).map noticeMsg).Sublist (s.bus.all.flatMap (received B.serde))

/-- **The watcher's connections**, over every run and whatever the socket answers:
each begins with its announcement, and what was reported written is received, once
and in order, but for at most one event on a connection that was kept after its
first event was cut short. -/
theorem watcher_transcript {cfg : HubWatcherConfig} {B : BusEnv} (hs : OneLine B.serde)
    {as : List WireAct} {s : Wire} {tr : List Obs}
    (hr : (wireMach cfg B).Reaches Mach.free as s tr) : Transcript B as s tr := by
  obtain ⟨dropped, held, hdropped, hheld, -, hw, hstub⟩ := wire_logged hr
  have hall : (dropped ++ held.toList).map ConnLog.bytes = s.bus.all := by
    rw [BusConns.all, ← hdropped, ← hheld, List.map_append]
    cases held <;> rfl
  have hplain : ∀ c ∈ dropped ++ held.toList, ∀ n ∈ c.written, (noticeMsg n).Plain :=
    fun c hc n hn => written_plain hr n (hw ▸ List.mem_flatMap.mpr ⟨c, hc, hn⟩)
  have hheard : ∀ c ∈ dropped ++ held.toList, Heard B c.bytes c.stub c.written :=
    fun c hc => c.on.heard hs (hplain c hc)
  refine ⟨⟨dropped ++ held.toList, hall, hw, hheard⟩, fun hc => ?_⟩
  rw [← hall, ← hw, List.map_flatMap, List.flatMap_map]
  have hone : ∀ c ∈ dropped ++ held.toList,
      (c.written.map noticeMsg).Sublist (received B.serde c.bytes) := by
    intro c hmem
    cases hheard c hmem with
    | unannounced hwr hrc => simp [hwr]
    | whole extra _ he hrc =>
      rw [hrc]
      exact ((List.sublist_append_left _ _).cons _)
    | swallowed n rest garbled extra hst hwr hg he hrc => exact absurd (hstub hc c hmem) hst
  generalize dropped ++ held.toList = cs at hone
  induction cs with
  | nil => exact .slnil
  | cons c cs ih =>
    rw [List.flatMap_cons, List.flatMap_cons]
    exact (hone c List.mem_cons_self).append (ih fun c' hc' => hone c' (List.mem_cons_of_mem c hc'))

/-! ## An outage on the sockets -/

def sessionTextEx : String := "\"wm-busbridge-hub-watcher\""

def announceBytesEx : Bytes :=
  ("\x7b\"cwd\":\"/\",\"intent\":\"hub liveness watcher\",\"op\":\"announce\",\"pid\":7," ++
    "\"session_id\":" ++ sessionTextEx ++ "\x7d").toUTF8.data.toList

def downBytesEx : Bytes :=
  ("\x7b\"data\":\x7b\"last_ok_ts\":0,\"node\":\"nomad\",\"since_ts\":10\x7d,\"from\":" ++
    sessionTextEx ++ ",\"op\":\"publish\",\"topic\":\"wm.fleet.hub.down\"\x7d").toUTF8.data.toList

def upBytesEx : Bytes :=
  ("\x7b\"data\":\x7b\"down_duration_secs\":5,\"node\":\"nomad\"\x7d,\"from\":" ++
    sessionTextEx ++ ",\"op\":\"publish\",\"topic\":\"wm.fleet.hub.up\"\x7d").toUTF8.data.toList

def downNoticeEx : Notice := ("wm.fleet.hub.down", hubDownData "nomad" 10 0)

def upNoticeEx : Notice := ("wm.fleet.hub.up", hubUpData "nomad" 5)

def busTableEx : List (Value × Bytes) :=
  [(announceMsg WATCHER_SESSION 7 "hub liveness watcher", announceBytesEx),
   (noticeMsg downNoticeEx, downBytesEx), (noticeMsg upNoticeEx, upBytesEx)]

def busEx : BusEnv where
  serde := .table busTableEx (by decide +kernel)
  path := "/run/agorabus/sock"
  pid := 7

theorem busEx_oneLine : OneLine busEx.serde :=
  .table busTableEx (by decide +kernel) (by decide +kernel)

/-- The socket goes away under the first announcement, twelve bytes into it. -/
def wireEx : List WireAct :=
  [.hub (.watch (.probe false)), .hub (.watch (.look 10 10)), .hub (.watch .flip),
   .emit ⟨.torn 12, ⟨true, .done⟩, .done⟩, .hub (.watch (.probe true)),
   .hub (.watch (.look 15 15)), .hub (.watch .flip), .emit ⟨.done, ⟨true, .done⟩, .done⟩]

def wireEndEx : Wire where
  hub :=
    { live := .new
      w := { pc := .sleep, consecutiveFailures := 0, consecutiveSuccesses := 0, lastOkTs := 15,
             downSinceTs := 10, busPub := true } }
  bus :=
    { closed := [frame 0x0A announceBytesEx ++ downBytesEx.take 12]
      current := some (frames 0x0A [announceBytesEx, downBytesEx, upBytesEx]) }

def wireTraceEx : List Obs :=
  [.probed false, .flipped .down, .announced downNoticeEx.1 downNoticeEx.2 true, .probed true,
   .flipped .up, .announced upNoticeEx.1 upNoticeEx.2 true]

theorem wireEx_run : (wireMach cfgEx busEx).Reaches Mach.free wireEx wireEndEx wireTraceEx :=
  ⟨_, ⟨⟨true, .done⟩, 0, rfl⟩, Mach.run_of_exec (by decide +kernel)⟩

theorem wireEx_transcript : Transcript busEx wireEx wireEndEx wireTraceEx :=
  watcher_transcript busEx_oneLine wireEx_run

end WmBusbridge.L4
