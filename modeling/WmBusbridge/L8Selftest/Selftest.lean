import WmBusbridge.L0Core.Machine
import WmBusbridge.L4Bridge.Loops

/-!
# What a passing selftest shows (`src/selftest.rs`)

`selftest::run` beside an environment that does what it likes: other publishers
on NATS and other clients on the local bus, bridges that run or do not, messages
lost, duplicated and late. The run itself never touches the local bus.

* `crossed_foreign`: in no run does an event of the run cross from the local bus
  to NATS.
* `no_evidence`: a pass never means the documented round trip.
* `evidence_exact`: the documented reading holds exactly of the runs whose wait
  finds no message.
* `passed_means`: what a pass does show is that some message arrived.
* `foreign_message_passes`: with no bridge and no local bus, another publisher's
  message makes the test pass.
-/
namespace WmBusbridge.L8
open L0 L1 L2 L4

/-! ## The run -/

/-- mirrors src/selftest.rs:28 -/
def testSubject : String := "wm.fleet.selftest"

/-- mirrors src/selftest.rs:35-38 -/
def testPayload : Value where
  json := .obj [("msg", .str "wm-busbridge selftest ping"), ("selftest", .bool true)]
  wf := by decide

/-- A message on NATS. `own`: it goes back to what the run published. -/
structure NatsMsg where
  subject : String
  payload : Bytes
  own : Bool
  deriving DecidableEq

/-- An event on the local bus. -/
structure BusMsg where
  topic : String
  data : Value
  own : Bool
  deriving DecidableEq

/-- `err` has the context that the error is reported with. -/
inductive Returned where
  | ok
  | err (context : String)
  deriving DecidableEq

/-- The call `run` is in. -/
inductive Pc where
  | connect
  | subscribe
  | publish
  | flush
  /-- up to this time, in milliseconds -/
  | wait (deadline : Nat)
  | returned (r : Returned)
  deriving DecidableEq

structure SelfConfig where
  natsUrl : String
  serde : SerdeJson

/-- `inbox`: what arrived at the subscription and is not taken yet; `ended`: no
more will. `nats` and `bus` have all that was published there. -/
structure Selftest where
  pc : Pc
  inbox : List NatsMsg
  ended : Bool
  now : Nat
  nats : List NatsMsg
  bus : List BusMsg
  deriving DecidableEq

/-- A call of `run`, with the answer it gets. -/
inductive RunAct where
  | connect (ok : Bool)
  | subscribe (ok : Bool)
  | publish (ok : Bool)
  | flush (ok : Bool)
  | receive
  | streamEnd
  | timeout
  deriving DecidableEq

/-- A bridge has an allow list of its own. -/
inductive EnvAct where
  /-- another publisher -/
  | foreign (subject : String) (payload : Bytes)
  /-- another client of the local bus -/
  | client (topic : String) (data : Value)
  | arrive (m : NatsMsg)
  | close
  /-- NATS→agorabus -/
  | inject (allow : List String) (m : NatsMsg)
  /-- agorabus→NATS -/
  | cross (allow : List String) (e : BusMsg)
  /-- to a local subscriber -/
  | deliver (e : BusMsg)
  | tick (ms : Nat)
  deriving DecidableEq

inductive SelfAct where
  | run (a : RunAct)
  | env (a : EnvAct)
  deriving DecidableEq

inductive SelfObs where
  | printed (line : String)
  | published (m : NatsMsg)
  | arrived (m : NatsMsg)
  | crossed (e : BusMsg)
  | delivered (e : BusMsg)
  deriving DecidableEq

def Selftest.fail (s : Selftest) (context : String) : Selftest :=
  { s with pc := .returned (.err context) }

/-- A call with a context on its error, and what is printed up to the next one. -/
def attempt (s : Selftest) (pc : Pc) (ok : Bool) (next : Pc) (context : String)
    (lines : List String) : Option (Selftest × List SelfObs) :=
  if s.pc = pc then
    some (if ok then { s with pc := next } else s.fail context, lines.map .printed)
  else none

/-- The wait ends at a poll that finds no message. -/
def endWait (s : Selftest) (due : Nat → Bool) (context : String) :
    Option (Selftest × List SelfObs) :=
  match s.pc, s.inbox with
  | .wait deadline, [] => if due deadline then some (s.fail context, []) else none
  | _, _ => none

/-- Printed for a message. -/
def receivedLines (m : NatsMsg) : List String :=
  ["  [ok] NATS event received: " ++ toString m.payload.length ++ " bytes",
    "  [ok] SIGPIPE safe (sigpipe::reset() active in main)", "selftest: PASSED"]

/-- The timeout polls the subscription before the deadline.
mirrors src/selftest.rs:17-73 -/
def runStep (P : SelfConfig) (s : Selftest) : RunAct → Option (Selftest × List SelfObs)
  | .connect ok =>
    attempt s .connect ok .subscribe ("selftest: cannot connect to NATS at " ++ P.natsUrl)
      (["wm-busbridge selftest: connecting to NATS at " ++ P.natsUrl] ++
        if ok then ["  [ok] NATS connected"] else [])
  | .subscribe ok =>
    attempt s .subscribe ok .publish "selftest: subscribing to test subject on NATS" []
  | .publish ok =>
    if s.pc = .publish then
      match P.serde.toVec testPayload with
      | none => some (s.fail "selftest: serializing payload", [])
      | some b =>
        let m := { subject := testSubject, payload := b, own := true }
        if ok then some ({ s with pc := .flush, nats := s.nats ++ [m] }, [.published m])
        else some (s.fail "selftest: publishing test event to NATS", [])
    else none
  | .flush ok =>
    attempt s .flush ok (.wait (s.now + 5000)) "selftest: flushing NATS"
      (if ok then ["  [ok] test event published to NATS subject '" ++ testSubject ++ "'"] else [])
  | .receive =>
    match s.pc, s.inbox with
    | .wait _, m :: rest =>
      some ({ s with pc := .returned .ok, inbox := rest }, (receivedLines m).map .printed)
    | _, _ => none
  | .streamEnd =>
    endWait s (fun _ => s.ended) "selftest: NATS subscriber stream ended without a message"
  | .timeout =>
    endWait s (fun deadline => !s.ended && deadline ≤ s.now)
      "selftest: timed out waiting for NATS message"

/-- The run holds its subscription. -/
def Pc.subscribed : Pc → Bool
  | .publish | .flush | .wait _ => true
  | _ => false

/-- A bridge does what its two loops make of a message. -/
def envStep (P : SelfConfig) (s : Selftest) : EnvAct → Option (Selftest × List SelfObs)
  | .foreign subject payload =>
    some ({ s with nats := s.nats ++ [{ subject, payload, own := false }] }, [])
  | .client topic data => some ({ s with bus := s.bus ++ [{ topic, data, own := false }] }, [])
  | .arrive m =>
    if s.pc.subscribed ∧ s.ended = false ∧ m ∈ s.nats ∧ m.subject = testSubject then
      some ({ s with inbox := s.inbox ++ [m] }, [.arrived m])
    else none
  | .close => some ({ s with ended := true }, [])
  | .inject allow m =>
    if m ∈ s.nats then
      (n2aEnvelope P.serde allow m.subject m.payload).map fun data =>
        ({ s with bus := s.bus ++ [{ topic := m.subject, data, own := m.own }] }, [])
    else none
  | .cross allow e =>
    if e ∈ s.bus then
      (a2nPayload P.serde allow e.topic e.data).map fun payload =>
        ({ s with nats := s.nats ++ [{ subject := e.topic, payload, own := e.own }] },
          [.crossed e])
    else none
  | .deliver e => if e ∈ s.bus then some (s, [.delivered e]) else none
  | .tick ms => some ({ s with now := s.now + ms }, [])

def selfStep (P : SelfConfig) (s : Selftest) : SelfAct → Option (Selftest × List SelfObs)
  | .run a => runStep P s a
  | .env a => envStep P s a

/-- What others published before the run is theirs. -/
structure Fresh (s : Selftest) : Prop where
  pc : s.pc = .connect
  inbox : s.inbox = []
  ended : s.ended = false
  nats : ∀ m ∈ s.nats, m.own = false
  bus : ∀ e ∈ s.bus, e.own = false

def selfMach (P : SelfConfig) : Mach Selftest SelfAct SelfObs where
  init := Fresh
  step := selfStep P

/-! ## What a step can do -/

/-- The test event is published. -/
def Pc.sent : Pc → Bool
  | .flush | .wait _ | .returned .ok => true
  | _ => false

/-- `testPayload`, serialized and published. -/
def ownMsg (b : Bytes) : NatsMsg := { subject := testSubject, payload := b, own := true }

inductive SelfStep (P : SelfConfig) (s : Selftest) :
    SelfAct → Selftest → List SelfObs → Prop where
  /-- a call that neither publishes nor receives -/
  | moved (a : RunAct) (pc : Pc) (lines : List String) (hrun : ∀ r, s.pc ≠ .returned r)
      (ha : a ≠ .receive) (hok : pc ≠ .returned .ok) (hsent : pc.sent = true → s.pc.sent = true) :
      SelfStep P s (.run a) { s with pc := pc } (lines.map .printed)
  | published (b : Bytes) (hpc : s.pc = .publish) (hb : P.serde.toVec testPayload = some b) :
      SelfStep P s (.run (.publish true)) { s with pc := .flush, nats := s.nats ++ [ownMsg b] }
        [.published (ownMsg b)]
  | received (deadline : Nat) (m : NatsMsg) (rest : List NatsMsg) (hpc : s.pc = .wait deadline)
      (hin : s.inbox = m :: rest) :
      SelfStep P s (.run .receive) { s with pc := .returned .ok, inbox := rest }
        ((receivedLines m).map .printed)
  | foreign (subject : String) (payload : Bytes) :
      SelfStep P s (.env (.foreign subject payload))
        { s with nats := s.nats ++ [{ subject, payload, own := false }] } []
  | client (topic : String) (data : Value) :
      SelfStep P s (.env (.client topic data))
        { s with bus := s.bus ++ [{ topic, data, own := false }] } []
  | arrive (m : NatsMsg) (hsub : s.pc.subscribed = true) (hopen : s.ended = false)
      (hm : m ∈ s.nats) (hsubject : m.subject = testSubject) :
      SelfStep P s (.env (.arrive m)) { s with inbox := s.inbox ++ [m] } [.arrived m]
  | close : SelfStep P s (.env .close) { s with ended := true } []
  | inject (allow : List String) (m : NatsMsg) (data : Value) (hm : m ∈ s.nats)
      (hd : n2aEnvelope P.serde allow m.subject m.payload = some data) :
      SelfStep P s (.env (.inject allow m))
        { s with bus := s.bus ++ [{ topic := m.subject, data, own := m.own }] } []
  | cross (allow : List String) (e : BusMsg) (payload : Bytes) (he : e ∈ s.bus)
      (hp : a2nPayload P.serde allow e.topic e.data = some payload) :
      SelfStep P s (.env (.cross allow e))
        { s with nats := s.nats ++ [{ subject := e.topic, payload, own := e.own }] } [.crossed e]
  | deliver (e : BusMsg) (he : e ∈ s.bus) : SelfStep P s (.env (.deliver e)) s [.delivered e]
  | tick (ms : Nat) : SelfStep P s (.env (.tick ms)) { s with now := s.now + ms } []

theorem SelfStep.failed {P : SelfConfig} {s : Selftest} {a : RunAct} (context : String)
    (lines : List String) (hrun : ∀ r, s.pc ≠ .returned r) (ha : a ≠ .receive) :
    SelfStep P s (.run a) (s.fail context) (lines.map .printed) :=
  .moved a _ lines hrun ha (by simp) (fun hs => by cases hs)

theorem attempt_step {P : SelfConfig} {s s' : Selftest} {a : RunAct} {pc next : Pc} {ok : Bool}
    {context : String} {lines : List String} {os : List SelfObs}
    (hst : attempt s pc ok next context lines = some (s', os)) (hpc : ∀ r, pc ≠ .returned r)
    (ha : a ≠ .receive) (hok : next ≠ .returned .ok)
    (hsent : next.sent = true → pc.sent = true) : SelfStep P s (.run a) s' os := by
  unfold attempt at hst
  split at hst
  · rename_i hs
    subst hs
    cases ok with
    | true =>
      cases hst
      exact .moved a next lines hpc ha hok hsent
    | false =>
      cases hst
      exact .failed context lines hpc ha
  · cases hst

theorem endWait_step {P : SelfConfig} {s s' : Selftest} {a : RunAct} {due : Nat → Bool}
    {context : String} {os : List SelfObs} (hst : endWait s due context = some (s', os))
    (ha : a ≠ .receive) : SelfStep P s (.run a) s' os := by
  unfold endWait at hst
  split at hst
  · rename_i deadline hpc hin
    split at hst
    · cases hst
      exact .failed context [] (by simp [hpc]) ha
    · cases hst
  · cases hst

theorem runStep_cases {P : SelfConfig} {s s' : Selftest} {a : RunAct} {os : List SelfObs}
    (hst : runStep P s a = some (s', os)) : SelfStep P s (.run a) s' os := by
  cases a with
  | connect ok => exact attempt_step hst (by simp) (by simp) (by simp) (by simp [Pc.sent])
  | subscribe ok => exact attempt_step hst (by simp) (by simp) (by simp) (by simp [Pc.sent])
  | publish ok =>
    simp only [runStep] at hst
    split at hst
    · rename_i hpc
      cases hb : P.serde.toVec testPayload with
      | none =>
        rw [hb] at hst
        cases hst
        exact .failed _ [] (by simp [hpc]) (by simp)
      | some b =>
        rw [hb] at hst
        cases ok with
        | true =>
          cases hst
          exact .published b hpc hb
        | false =>
          cases hst
          exact .failed _ [] (by simp [hpc]) (by simp)
    · cases hst
  | flush ok => exact attempt_step hst (by simp) (by simp) (by simp) (by simp [Pc.sent])
  | receive =>
    simp only [runStep] at hst
    split at hst
    · rename_i deadline m rest hpc hin
      cases hst
      exact .received deadline m rest hpc hin
    · cases hst
  | streamEnd => exact endWait_step hst (by simp)
  | timeout => exact endWait_step hst (by simp)

theorem envStep_cases {P : SelfConfig} {s s' : Selftest} {a : EnvAct} {os : List SelfObs}
    (hst : envStep P s a = some (s', os)) : SelfStep P s (.env a) s' os := by
  cases a with
  | foreign subject payload =>
    cases hst
    exact .foreign subject payload
  | client topic data =>
    cases hst
    exact .client topic data
  | arrive m =>
    simp only [envStep] at hst
    split at hst
    · rename_i hg
      cases hst
      exact .arrive m hg.1 hg.2.1 hg.2.2.1 hg.2.2.2
    · cases hst
  | close =>
    cases hst
    exact .close
  | inject allow m =>
    simp only [envStep] at hst
    split at hst
    · rename_i hm
      obtain ⟨data, hd, heq⟩ := Option.map_eq_some_iff.mp hst
      cases heq
      exact .inject allow m data hm hd
    · cases hst
  | cross allow e =>
    simp only [envStep] at hst
    split at hst
    · rename_i he
      obtain ⟨payload, hp, heq⟩ := Option.map_eq_some_iff.mp hst
      cases heq
      exact .cross allow e payload he hp
    · cases hst
  | deliver e =>
    simp only [envStep] at hst
    split at hst
    · rename_i he
      cases hst
      exact .deliver e he
    · cases hst
  | tick ms =>
    cases hst
    exact .tick ms

theorem selfStep_cases {P : SelfConfig} {s s' : Selftest} {a : SelfAct} {os : List SelfObs}
    (hst : selfStep P s a = some (s', os)) : SelfStep P s a s' os := by
  cases a with
  | run a => exact runStep_cases hst
  | env a => exact envStep_cases hst

/-! ## The local bus -/

/-- An event of the run is on the bus only as an envelope, which no bridge
forwards. -/
structure LocalInv (s : Selftest) (tr : List SelfObs) : Prop where
  marked : ∀ e ∈ s.bus, e.own = true → BridgedPayload.isBridged e.data = true
  crossed : ∀ e, SelfObs.crossed e ∈ tr → e.own = false

theorem localInv_step {P : SelfConfig} {s s' : Selftest} {a : SelfAct} {os tr : List SelfObs}
    (hI : LocalInv s tr) (hst : SelfStep P s a s' os) : LocalInv s' (tr ++ os) := by
  have hold : (∀ e, SelfObs.crossed e ∉ os) →
      ∀ e, SelfObs.crossed e ∈ tr ++ os → e.own = false := by
    intro hos e he
    exact hI.crossed e ((List.mem_append.mp he).resolve_right (hos e))
  cases hst with
  | client topic data =>
    refine ⟨fun e he hown => ?_, hold (by simp)⟩
    rcases List.mem_append.mp he with he | he
    · exact hI.marked e he hown
    · rw [List.mem_singleton.mp he] at hown
      cases hown
  | inject allow m data hm hd =>
    refine ⟨fun e he hown => ?_, hold (by simp)⟩
    rcases List.mem_append.mp he with he | he
    · exact hI.marked e he hown
    · rw [List.mem_singleton.mp he]
      exact n2aEnvelope_bridged hd
  | cross allow e payload he hp =>
    refine ⟨hI.marked, fun e' he' => ?_⟩
    rcases List.mem_append.mp he' with he' | he'
    · exact hI.crossed e' he'
    · -- the loop guard: what crosses is unmarked
      cases List.mem_singleton.mp he'
      by_contra hown
      rw [Bool.not_eq_false] at hown
      have hm := hI.marked e he hown
      rw [(a2nPayload_some.mp hp).1] at hm
      cases hm
  | _ => exact ⟨hI.marked, hold (by simp)⟩

theorem localInv_inductive (P : SelfConfig) :
    (selfMach P).Inductive Mach.free (fun _ s tr => LocalInv s tr) where
  init s h0 := by
    refine ⟨fun e he hown => ?_, by simp⟩
    rw [h0.bus e he] at hown
    cases hown
  step _ _ _ _ _ _ hI _ hst := localInv_step hI (selfStep_cases hst)

/-- What crosses to NATS is never an event of the run. -/
theorem crossed_foreign {P : SelfConfig} {as : List SelfAct} {s : Selftest} {tr : List SelfObs}
    (hr : (selfMach P).Reaches Mach.free as s tr) {e : BusMsg} (he : .crossed e ∈ tr) :
    e.own = false :=
  ((localInv_inductive P).reaches hr).crossed e he

/-! ## What a pass means -/

/-- Published before the wait, and taken from the subscription. -/
structure PassInv (P : SelfConfig) (s : Selftest) (tr : List SelfObs) : Prop where
  inbox : ∀ m ∈ s.inbox, m.subject = testSubject ∧ .arrived m ∈ tr
  sent : s.pc.sent = true → ∃ b, P.serde.toVec testPayload = some b ∧ .published (ownMsg b) ∈ tr
  passed : s.pc = .returned .ok → ∃ m, m.subject = testSubject ∧ .arrived m ∈ tr

theorem passInv_step {P : SelfConfig} {s s' : Selftest} {a : SelfAct} {os tr : List SelfObs}
    (hI : PassInv P s tr) (hst : SelfStep P s a s' os) : PassInv P s' (tr ++ os) := by
  have hinbox : ∀ m ∈ s.inbox, m.subject = testSubject ∧ SelfObs.arrived m ∈ tr ++ os :=
    fun m hm => ⟨(hI.inbox m hm).1, List.mem_append_left _ (hI.inbox m hm).2⟩
  have hsent : s.pc.sent = true →
      ∃ b, P.serde.toVec testPayload = some b ∧ SelfObs.published (ownMsg b) ∈ tr ++ os := by
    intro hs
    obtain ⟨b, hb, hp⟩ := hI.sent hs
    exact ⟨b, hb, List.mem_append_left _ hp⟩
  have hpassed : s.pc = .returned .ok →
      ∃ m, m.subject = testSubject ∧ SelfObs.arrived m ∈ tr ++ os := by
    intro hpc
    obtain ⟨m, hm, ha⟩ := hI.passed hpc
    exact ⟨m, hm, List.mem_append_left _ ha⟩
  cases hst with
  | moved a pc lines hrun ha hok hpre =>
    exact ⟨hinbox, fun hs => hsent (hpre hs), fun hpc => absurd hpc hok⟩
  | published b hpc hb =>
    exact ⟨hinbox, fun _ => ⟨b, hb, by simp⟩, fun h => by cases h⟩
  | received deadline m rest hpc hin =>
    rw [hin] at hinbox
    exact ⟨fun n hn => hinbox n (List.mem_cons_of_mem _ hn), fun _ => hsent (by rw [hpc]; rfl),
      fun _ => ⟨m, hinbox m List.mem_cons_self⟩⟩
  | arrive m hsub hopen hm hsubject =>
    refine ⟨fun n hn => ?_, hsent, hpassed⟩
    rcases List.mem_append.mp hn with hn | hn
    · exact hinbox n hn
    · rw [List.mem_singleton.mp hn]
      exact ⟨hsubject, by simp⟩
  | _ => exact ⟨hinbox, hsent, hpassed⟩

theorem passInv_inductive (P : SelfConfig) :
    (selfMach P).Inductive Mach.free (fun _ s tr => PassInv P s tr) where
  init s h0 := by
    refine ⟨by simp [h0.inbox], ?_, ?_⟩
    · rw [h0.pc]
      intro h
      cases h
    · rw [h0.pc]
      intro h
      cases h
  step _ _ _ _ _ _ hI _ hst := passInv_step hI (selfStep_cases hst)

/-- A run that passes published its event, and some message arrived. -/
theorem passed_means {P : SelfConfig} {as : List SelfAct} {s : Selftest} {tr : List SelfObs}
    (hr : (selfMach P).Reaches Mach.free as s tr) (hpc : s.pc = .returned .ok) :
    (∃ b, P.serde.toVec testPayload = some b ∧ .published (ownMsg b) ∈ tr) ∧
      ∃ m, m.subject = testSubject ∧ .arrived m ∈ tr := by
  have hI := (passInv_inductive P).reaches hr
  exact ⟨hI.sent (by rw [hpc]; rfl), hI.passed hpc⟩

/-! ## What a pass should mean -/

/-- A copy of the run's event reaches the subscription. -/
def SelfObs.ownArrival : SelfObs → Bool
  | .arrived m => m.own
  | _ => false

/-- The documented round trip: from the local bus to NATS, there once, and back
to a local subscriber. -/
structure Evidence (tr : List SelfObs) : Prop where
  crossed : ∃ e, .crossed e ∈ tr ∧ e.own = true
  once : (tr.filter SelfObs.ownArrival).length = 1
  back : ∃ e, .delivered e ∈ tr ∧ e.own = true

/-- When the wait polls the subscription, no message is in it. -/
def NoMessage (s : Selftest) (a : SelfAct) : Prop := a = .run .receive → s.inbox = []

/-- A run that has passed stays passed. -/
theorem passed_step {P : SelfConfig} {s s' : Selftest} {a : SelfAct} {os : List SelfObs}
    (hst : SelfStep P s a s' os) (hpc : s.pc = .returned .ok) : s'.pc = .returned .ok := by
  cases hst with
  | moved a pc lines hrun _ _ _ => exact absurd hpc (hrun _)
  | published b hpub _ => simp [hpub] at hpc
  | received deadline m rest hwait _ => simp [hwait] at hpc
  | _ => exact hpc

/-- Only taking a message makes a run pass. -/
theorem not_passed_step {P : SelfConfig} {s s' : Selftest} {a : SelfAct} {os : List SelfObs}
    (hst : SelfStep P s a s' os) (hpc : s.pc ≠ .returned .ok) :
    s'.pc ≠ .returned .ok ↔ NoMessage s a := by
  cases hst with
  | moved a pc lines _ ha hok _ => simp [NoMessage, ha, hok]
  | published b _ _ => simp [NoMessage]
  | received deadline m rest _ hin => simp [NoMessage, hin]
  | _ => simp [NoMessage, hpc]

theorem notPassed_inductive (P : SelfConfig) :
    (selfMach P).Inductive NoMessage (fun _ s _ => s.pc ≠ .returned .ok) where
  init s h0 := by
    rw [h0.pc]
    simp
  step _ _ _ _ _ _ hI hg hst := (not_passed_step (selfStep_cases hst) hI).mpr hg

/-- A run that has not passed has taken no message. -/
theorem noMessage_of_not_passed {P : SelfConfig} {s₀ s : Selftest} {as : List SelfAct}
    {tr : List SelfObs} (hrun : (selfMach P).Run Mach.free s₀ as s tr)
    (hne : s.pc ≠ .returned .ok) : (selfMach P).Run NoMessage s₀ as s tr := by
  induction hrun with
  | nil => exact .nil
  | snoc _ _ hst ih =>
    have hcase := selfStep_cases hst
    have hbefore := fun hpc => hne (passed_step hcase hpc)
    exact .snoc (ih hbefore) ((not_passed_step hcase hbefore).mp hne) hst

/-- A run passes if and only if its wait finds a message at some point. -/
theorem not_passed_iff {P : SelfConfig} {as : List SelfAct} {s : Selftest} {tr : List SelfObs}
    (hr : (selfMach P).Reaches Mach.free as s tr) :
    s.pc ≠ .returned .ok ↔ (selfMach P).Reaches NoMessage as s tr := by
  constructor
  · intro hne
    obtain ⟨s₀, h0, hrun⟩ := hr
    exact ⟨s₀, h0, noMessage_of_not_passed hrun hne⟩
  · exact fun hG => (notPassed_inductive P).reaches hG

/-- **No run has the documented evidence**, so a pass never stands on it. -/
theorem no_evidence {P : SelfConfig} {as : List SelfAct} {s : Selftest} {tr : List SelfObs}
    (hr : (selfMach P).Reaches Mach.free as s tr) : ¬ Evidence tr := by
  intro h
  obtain ⟨e, he, hown⟩ := h.crossed
  rw [crossed_foreign hr he] at hown
  cases hown

/-- **When the documented reading holds of a run**: when its wait never
finds a message. -/
theorem evidence_exact (P : SelfConfig) {as : List SelfAct} {s : Selftest} {tr : List SelfObs}
    (hr : (selfMach P).Reaches Mach.free as s tr) :
    (s.pc = .returned .ok → Evidence tr) ↔ (selfMach P).Reaches NoMessage as s tr := by
  calc (s.pc = .returned .ok → Evidence tr)
      ↔ s.pc ≠ .returned .ok := ⟨fun h hpc => no_evidence hr (h hpc), fun hne hpc => absurd hpc hne⟩
    _ ↔ (selfMach P).Reaches NoMessage as s tr := not_passed_iff hr

/-! ## Two environments -/

/-- Prints the test event. -/
def selfEx : SelfConfig where
  natsUrl := "nats://127.0.0.1:4222"
  serde := .only testPayload
    ("\x7b\"msg\":\"wm-busbridge selftest ping\",\"selftest\":true\x7d").toUTF8.data.toList

/-- Nothing was published yet. -/
def quietEx : Selftest where
  pc := .connect
  inbox := []
  ended := false
  now := 0
  nats := []
  bus := []

theorem quietEx_fresh : Fresh quietEx :=
  { pc := rfl, inbox := rfl, ended := rfl, nats := by decide, bus := by decide }

/-- The test event is lost, and the wait times out. -/
def lostEx : List SelfAct :=
  [.run (.connect true), .run (.subscribe true), .run (.publish true), .run (.flush true),
    .env (.tick 5000), .run .timeout]

theorem lostEx_exact : ∃ s tr, (selfMach selfEx).exec Mach.free quietEx lostEx = some (s, tr) ∧
    (s.pc = .returned .ok → Evidence tr) := by
  obtain ⟨s, tr, hfree, hpc⟩ : ∃ s tr,
      (selfMach selfEx).exec Mach.free quietEx lostEx = some (s, tr) ∧ s.pc ≠ .returned .ok :=
    ⟨_, _, rfl, by decide⟩
  have hrun := Mach.run_of_exec hfree
  exact ⟨s, tr, hfree, (evidence_exact selfEx ⟨quietEx, quietEx_fresh, hrun⟩).mpr
    ⟨quietEx, quietEx_fresh, noMessage_of_not_passed hrun hpc⟩⟩

/-- A message of another publisher, with nothing else running. -/
def foreignEx : NatsMsg := { subject := testSubject, payload := [], own := false }

/-- It arrives before the test event is sent, which is then lost. -/
def foreignRunEx : List SelfAct :=
  [.run (.connect true), .run (.subscribe true), .env (.foreign testSubject []),
    .env (.arrive foreignEx), .run (.publish true), .run (.flush true), .run .receive]

/-- No bridge, no local bus, and the test passes. -/
theorem foreign_message_passes : ¬ ∀ (P : SelfConfig) as s tr,
    (selfMach P).Reaches Mach.free as s tr → s.pc = .returned .ok → Evidence tr := by
  intro h
  obtain ⟨s, tr, hexec, hpc, hnone⟩ : ∃ s tr,
      (selfMach selfEx).exec Mach.free quietEx foreignRunEx = some (s, tr) ∧
        s.pc = .returned .ok ∧ tr.filter SelfObs.ownArrival = [] :=
    ⟨_, _, rfl, rfl, rfl⟩
  have honce := (h selfEx foreignRunEx s tr ⟨quietEx, quietEx_fresh, Mach.run_of_exec hexec⟩
    hpc).once
  rw [hnone] at honce
  cases honce

end WmBusbridge.L8
