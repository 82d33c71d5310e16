import WmBusbridge.L1Encoding.Subject
import WmBusbridge.L4Bridge.Stream

/-!
# The subjects of the agorabus→NATS loop (`src/bridge.rs:229-285`)

The loop looks at how a topic starts and passes the topic on as it stands.

* `ledger_passed`: in every run, what is handed to NATS or buffered is a line of
  the stream, passed on.
* `blank_topic_passes`: `wm.fleet.a b`, which is no subject, is passed on.
* `prefix_checked`: a topic passes by its prefix alone, so whether it is a
  subject is up to the local client that chose it.
-/
namespace WmBusbridge.L4
open L0 L1 L1.Str L2

/-- Subject and payload of an event the loop passes on.
mirrors src/bridge.rs:239-271 -/
def passEvent (serde : SerdeJson) (allow : List String) (e : ServerEvent) :
    Option (String × Bytes) :=
  (a2nPayload serde allow e.topic e.data).map fun b => (e.topic, b)

/-- The same of a line read from the bus. -/
def passedOn (serde : SerdeJson) (allow : List String) (l : Bytes) : Option (String × Bytes) :=
  match readLine serde l with
  | .event e => passEvent serde allow e
  | _ => none

theorem passEvent_some {serde : SerdeJson} {allow : List String} {e : ServerEvent} {t : String}
    {b : Bytes} : passEvent serde allow e = some (t, b) ↔
      e.topic = t ∧ BridgedPayload.isBridged e.data = false ∧ shouldForward e.topic allow = true ∧
        serde.toVec e.data = some b := by
  rw [passEvent, Option.map_eq_some_iff]
  constructor
  · rintro ⟨c, hc, heq⟩
    cases heq
    exact ⟨rfl, a2nPayload_some.mp hc⟩
  · rintro ⟨rfl, h⟩
    exact ⟨b, a2nPayload_some.mpr h, rfl⟩

theorem passedOn_some {serde : SerdeJson} {allow : List String} {l : Bytes} {x : String × Bytes} :
    passedOn serde allow l = some x ↔
      ∃ e, readLine serde l = .event e ∧ passEvent serde allow e = some x := by
  unfold passedOn
  cases readLine serde l <;> simp

/-! ## Whole runs -/

/-- Whatever the loop has handed over, buffered or is busy with came in a line. -/
theorem ledger_passed {P : OutConfig} {bytes : Bytes} {as : List StreamAct} {s : Stream}
    {tr : List OutObs} (hr : (streamMach P bytes).Reaches Mach.free as s tr) {e : L3.BufferedEvent}
    (he : e ∈ ledger s.out tr) :
    ∃ l ∈ byteLines bytes, passedOn P.serde P.allow l = some (e.topic, e.payload) := by
  obtain ⟨passed, left, hP⟩ := (streamInv_inductive P bytes).reaches hr
  obtain ⟨bs, hbs⟩ := stream_out_reaches hr
  obtain ⟨data, hread, hp⟩ := ((outInv_inductive P).reaches hbs).source e he
  have hmem := List.mem_of_getElem? hread
  rw [hP.reads, List.mem_filterMap] at hmem
  obtain ⟨l, hl, heq⟩ := hmem
  refine ⟨l, by rw [hP.split]; exact List.mem_append_left _ hl, ?_⟩
  cases hline : readLine P.serde l with
  | event ev =>
    rw [hline] at heq
    obtain ⟨ht, hd⟩ := Prod.ext_iff.mp (Option.some.inj heq)
    dsimp only at ht hd
    rw [← ht, ← hd] at hp
    exact passedOn_some.mpr ⟨ev, hline, passEvent_some.mpr ⟨ht, a2nPayload_some.mp hp⟩⟩
  | _ =>
    rw [hline] at heq
    cases heq

/-! ## What is not checked -/

/-- Every topic that is passed on is a subject. -/
def OnlySubjects (serde : SerdeJson) (allow : List String) : Prop :=
  ∀ l t b, passedOn serde allow l = some (t, b) → validSubject t = true

theorem blocked_no_blank {b : String} (hb : b ∈ BLOCKED_PREFIXES) {c : Char}
    (hc : isWhitespace c = true) : c ∉ b.toList := by
  intro hmem
  have hall : (BLOCKED_PREFIXES.all fun b => b.toList.all fun c => !isWhitespace c) = true := by
    decide
  have hnot := List.all_eq_true.mp (List.all_eq_true.mp hall b hb) c hmem
  rw [hc] at hnot
  cases hnot

/-- The event with `c` and `l` after its topic. -/
def ServerEvent.longer (e : ServerEvent) (c : Char) (l : List Char) : ServerEvent :=
  { e with topic := e.topic ++ .ofList (c :: l) }

/-- With a blank and any text after its topic, an event still passes. -/
theorem passEvent_longer {serde : SerdeJson} {allow : List String} {e : ServerEvent} {t : String}
    {b : Bytes} {c : Char} (h : passEvent serde allow e = some (t, b)) (hc : isWhitespace c = true)
    (l : List Char) : passEvent serde allow (e.longer c l) = some (t ++ .ofList (c :: l), b) := by
  obtain ⟨rfl, hm, hf, hb⟩ := passEvent_some.mp h
  exact passEvent_some.mpr
    ⟨rfl, hm, shouldForward_append hf fun _ hmem => blocked_no_blank hmem hc, hb⟩

theorem not_validSubject_longer {c : Char} (hc : isWhitespace c = true) (t : String)
    (l : List Char) : validSubject (t ++ .ofList (c :: l)) = false := by
  by_contra h
  rw [Bool.not_eq_false] at h
  rw [validSubject_not_blank h (by simp)] at hc
  cases hc

/-- Under the fleet prefix nothing is blocked. -/
theorem fleet_forwarded {allow : List String} (h : "wm.fleet." ∈ allow) (rest : String) :
    shouldForward ("wm.fleet." ++ rest) allow = true := by
  have hfleet : startsWith "wm.fleet." "wm.fleet." = true := by decide
  refine (shouldForward_iff _ allow).mpr
    ⟨fun b hb => ?_, _, h, startsWith_append rest hfleet⟩
  have hapart : ∀ b ∈ BLOCKED_PREFIXES, startsWith "wm.fleet." b = false ∧
      startsWith b "wm.fleet." = false := by decide
  by_contra hn
  rw [Bool.not_eq_false] at hn
  rcases startsWith_of_append hn with hs | hs
  · rw [(hapart b hb).1] at hs
    cases hs
  · rw [(hapart b hb).2] at hs
    cases hs

/-- How far the loop checks what it passes on. -/
structure PrefixChecked (P : OutConfig) : Prop where
  /-- A line passes by marker, blocked prefixes and allow list, under its topic. -/
  line : ∀ l t b, passedOn P.serde P.allow l = some (t, b) ↔ ∃ e, readLine P.serde l = .event e ∧
    e.topic = t ∧ BridgedPayload.isBridged e.data = false ∧
    (∀ p ∈ BLOCKED_PREFIXES, startsWith t p = false) ∧ (∃ p ∈ P.allow, startsWith t p = true) ∧
    P.serde.toVec e.data = some b
  /-- In every run, all that is handed to NATS or buffered came in such a line. -/
  run : ∀ bytes as s tr, (streamMach P bytes).Reaches Mach.free as s tr →
    ∀ e ∈ handedOf tr ++ s.out.hub.live.buffer,
      ∃ l ∈ byteLines bytes, passedOn P.serde P.allow l = some (e.topic, e.payload)
  /-- What follows the topic of an event that passes is not looked at, even where
  it makes the topic no subject. -/
  unchecked : ∀ l l' e t b c rest, passedOn P.serde P.allow l = some (t, b) →
    readLine P.serde l = .event e → isWhitespace c = true →
    readLine P.serde l' = .event (e.longer c rest) →
    passedOn P.serde P.allow l' = some (t ++ .ofList (c :: rest), b) ∧
      validSubject (t ++ .ofList (c :: rest)) = false
  /-- Under the fleet prefix, the rest alone decides whether the topic is a subject. -/
  fleet : "wm.fleet." ∈ P.allow → ∀ l e rest b, readLine P.serde l = .event e →
    e.topic = "wm.fleet." ++ rest → BridgedPayload.isBridged e.data = false →
    P.serde.toVec e.data = some b →
    passedOn P.serde P.allow l = some ("wm.fleet." ++ rest, b) ∧
      validSubject ("wm.fleet." ++ rest) = validSubject rest

/-- **What the loop checks of a topic**: how it starts. -/
theorem prefix_checked (P : OutConfig) : PrefixChecked P where
  line l t b := by
    rw [passedOn_some]
    refine exists_congr fun e => and_congr_right fun _ => ?_
    rw [passEvent_some, shouldForward_iff, and_assoc]
    exact and_congr_right fun ht => by rw [ht]
  run bytes as s tr hr e he := by
    refine ledger_passed hr ?_
    unfold ledger
    rcases List.mem_append.mp he with he | he
    · exact List.mem_append_left _ (List.mem_append_left _ he)
    · exact List.mem_append_left _ (List.mem_append_right _ (List.mem_append_right _ he))
  unchecked l l' e t b c rest hp he hc hl' := by
    obtain ⟨e', he', hpass⟩ := passedOn_some.mp hp
    rw [he] at he'
    cases he'
    exact ⟨passedOn_some.mpr ⟨_, hl', passEvent_longer hpass hc rest⟩,
      not_validSubject_longer hc t rest⟩
  fleet hallow l e rest b hl ht hm hb := by
    constructor
    · refine passedOn_some.mpr ⟨e, hl, passEvent_some.mpr ⟨ht, hm, ?_, hb⟩⟩
      rw [ht]
      exact fleet_forwarded hallow rest
    · have hfleet : validSubject "wm.fleet" = true := by decide
      have hdot : "wm.fleet." = "wm.fleet" ++ "." := by decide
      rw [hdot, validSubject_dot, hfleet, Bool.true_and]

/-! ## A topic with a blank -/

def blankTextEx : String := "\x7b\"data\":null,\"topic\":\"wm.fleet.a b\"\x7d"

def blankBytesEx : Bytes := blankTextEx.toUTF8.data.toList

def blankEx : Value := ⟨.obj [("data", .null), ("topic", .str "wm.fleet.a b")], by decide⟩

/-- The texts of the line above and of `null`. -/
def blankSerde : SerdeJson :=
  .table [(.null, [0x6E, 0x75, 0x6C, 0x6C]), (blankEx, blankBytesEx)] (by decide +kernel)

theorem blankBytesEx_read : readLine blankSerde blankBytesEx =
    .event { topic := "wm.fleet.a b", data := .null, sender := "unknown" } := by
  have hparse : blankSerde.fromSlice blankBytesEx = some blankEx := by decide +kernel
  have htext : decodeUtf8 blankBytesEx = some blankTextEx := decodeUtf8_toUTF8 blankTextEx
  have hblank : trim blankTextEx ≠ "" := by decide
  have hevent : eventOf blankEx =
      some { topic := "wm.fleet.a b", data := .null, sender := "unknown" } := by decide
  simp only [readLine, htext, hblank, if_false, hparse, hevent]

/-- The topic `wm.fleet.a b` goes to `publish`. -/
theorem blank_topic_passes : ¬ OnlySubjects blankSerde (allowList "") := by
  intro h
  have hpass : passedOn blankSerde (allowList "") blankBytesEx =
      some ("wm.fleet.a b", [0x6E, 0x75, 0x6C, 0x6C]) :=
    passedOn_some.mpr ⟨_, blankBytesEx_read, by decide⟩
  have hvalid := h _ _ _ hpass
  rw [show validSubject "wm.fleet.a b" = false by decide] at hvalid
  cases hvalid

end WmBusbridge.L4
