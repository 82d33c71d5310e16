import WmBusbridge.L1Encoding.JsonText
import WmBusbridge.L1Encoding.Str

/-!
# Reading the local bus (`src/bridge.rs:122-166`)

A byte stream, the lines `tokio` makes of it, and the event in a line. The stream ends
when agorabus closes its end or reading fails.

* `byteLines_terminated`: the lines of a stream of newline-terminated pieces.
* `nextEvent_read`: `next_event` passes over lines until one has an event, one is
  not text, or none is left.
-/
namespace WmBusbridge.L4
open L1 L1.Str

/-! ## Lines -/

/-- One trailing carriage return off a line that a newline ended. -/
def dropCr (l : Bytes) : Bytes := if l.getLast? = some 0x0D then l.dropLast else l

/-- `tokio::io::Lines`: the pieces ended by a newline, then what follows the last
newline, if anything does. -/
def byteLines (bytes : Bytes) : List Bytes :=
  let pieces := bytes.splitOn 0x0A
  let rest := pieces.getLastD []
  pieces.dropLast.map dropCr ++ if rest = [] then [] else [rest]

inductive Ending where
  | closed
  /-- a read is an error, such as `ConnectionReset` -/
  | failed
  deriving DecidableEq

/-- The lines that come before the ending. Of a piece that no newline ends, a failed read
leaves nothing. -/
def streamLines (bytes : Bytes) : Ending → List Bytes
  | .closed => byteLines bytes
  | .failed => (bytes.splitOn 0x0A).dropLast.map dropCr

/-- `String::from_utf8` -/
def decodeUtf8 (l : Bytes) : Option String := String.fromUTF8? ⟨l.toArray⟩

/-- Decoding undoes encoding. -/
theorem decodeUtf8_toUTF8 (s : String) : decodeUtf8 s.toUTF8.data.toList = some s := by
  rw [decodeUtf8, Array.toArray_toList]
  exact dif_pos s.isValidUTF8

theorem splitOn_terminated {pieces : List Bytes} (h : ∀ p ∈ pieces, 0x0A ∉ p) :
    (pieces.flatMap fun p => p ++ [0x0A]).splitOn 0x0A = pieces ++ [[]] := by
  induction pieces with
  | nil => rfl
  | cons p ps ih =>
    rw [List.flatMap_cons, List.append_assoc, List.singleton_append,
      List.splitOn_append_cons_self_of_not_mem (h p List.mem_cons_self),
      ih fun q hq => h q (List.mem_cons_of_mem p hq)]
    rfl

/-- The lines of a stream in which a newline ends every piece. -/
theorem byteLines_terminated {pieces : List Bytes} (h : ∀ p ∈ pieces, 0x0A ∉ p) :
    byteLines (pieces.flatMap fun p => p ++ [0x0A]) = pieces.map dropCr := by
  rw [byteLines, splitOn_terminated h, List.dropLast_concat, List.getLastD_concat, if_pos rfl,
    List.append_nil]

/-! ## Events -/

/-- The fields of a bus event that `next_event` returns. -/
structure ServerEvent where
  topic : String
  data : Value
  sender : String
  deriving DecidableEq

/-- mirrors src/bridge.rs:151-163 -/
def eventOf (val : Value) : Option ServerEvent :=
  match val.get "topic", val.get "data" with
  | some topic, some data => some
    { topic := topic.json.asStr.getD "", data,
      sender := ((val.get "from").bind fun v => v.json.asStr).getD "unknown" }
  | _, _ => none

/-- What `next_event` makes of one line. -/
inductive LineRead where
  /-- `next_line` is an `InvalidData` error -/
  | unreadable
  | skipped
  | event (e : ServerEvent)
  deriving DecidableEq

/-- mirrors src/bridge.rs:141-163 -/
def readLine (serde : SerdeJson) (l : Bytes) : LineRead :=
  match decodeUtf8 l with
  | none => .unreadable
  | some line =>
    if trim line = "" then .skipped
    else match serde.fromSlice l with
      | none => .skipped
      | some val =>
        match eventOf val with
        | none => .skipped
        | some e => .event e

/-- `Ok(Some(_))`, `Ok(None)` and `Err(_)`. -/
inductive Next where
  | event (e : ServerEvent)
  | ended
  | failed
  deriving DecidableEq

/-- What `next_event` returns, and the lines it leaves.
mirrors src/bridge.rs:136-165 -/
def nextEvent (serde : SerdeJson) (ending : Ending) : List Bytes → Next × List Bytes
  | [] =>
    match ending with
    | .closed => (.ended, [])
    | .failed => (.failed, [])
  | l :: ls =>
    match readLine serde l with
    | .unreadable => (.failed, ls)
    | .skipped => nextEvent serde ending ls
    | .event e => (.event e, ls)

/-- One call: the lines there were, what it returns, the lines it leaves. -/
inductive NextRead (serde : SerdeJson) (ending : Ending) : List Bytes → Next → List Bytes → Prop
    where
  | ended (passed : List Bytes) (hp : ∀ l ∈ passed, readLine serde l = .skipped)
      (he : ending = .closed) : NextRead serde ending passed .ended []
  | broken (passed : List Bytes) (hp : ∀ l ∈ passed, readLine serde l = .skipped)
      (he : ending = .failed) : NextRead serde ending passed .failed []
  | failed (passed : List Bytes) (l : Bytes) (rest : List Bytes)
      (hp : ∀ l ∈ passed, readLine serde l = .skipped) (hl : readLine serde l = .unreadable) :
      NextRead serde ending (passed ++ l :: rest) .failed rest
  | event (passed : List Bytes) (l : Bytes) (rest : List Bytes) (e : ServerEvent)
      (hp : ∀ l ∈ passed, readLine serde l = .skipped) (hl : readLine serde l = .event e) :
      NextRead serde ending (passed ++ l :: rest) (.event e) rest

theorem NextRead.pass {serde : SerdeJson} {ending : Ending} {l : Bytes} {ls rest : List Bytes}
    {r : Next} (hl : readLine serde l = .skipped) (h : NextRead serde ending ls r rest) :
    NextRead serde ending (l :: ls) r rest := by
  have hmem : ∀ {passed : List Bytes}, (∀ m ∈ passed, readLine serde m = .skipped) →
      ∀ m ∈ l :: passed, readLine serde m = .skipped :=
    fun hp => List.forall_mem_cons.mpr ⟨hl, hp⟩
  cases h with
  | ended passed hp he => exact .ended (l :: ls) (hmem hp) he
  | broken passed hp he => exact .broken (l :: ls) (hmem hp) he
  | failed passed m rest hp hm => exact .failed (l :: passed) m rest (hmem hp) hm
  | event passed m rest e hp hm => exact .event (l :: passed) m rest e (hmem hp) hm

theorem nextEvent_read (serde : SerdeJson) (ending : Ending) (ls : List Bytes) :
    NextRead serde ending ls (nextEvent serde ending ls).1 (nextEvent serde ending ls).2 := by
  induction ls with
  | nil =>
    cases ending with
    | closed => exact .ended [] (by simp) rfl
    | failed => exact .broken [] (by simp) rfl
  | cons l ls ih =>
    rw [nextEvent]
    split
    · rename_i hl
      exact .failed [] l ls (by simp) hl
    · rename_i hl
      exact ih.pass hl
    · rename_i e hl
      exact .event [] l ls e (by simp) hl

/-! ## One line -/

/-- A line is unreadable exactly when it is not text. -/
theorem readLine_unreadable {serde : SerdeJson} {l : Bytes} :
    readLine serde l = .unreadable ↔ decodeUtf8 l = none := by
  unfold readLine
  cases decodeUtf8 l with
  | none => simp
  | some line =>
    simp only [reduceCtorEq, iff_false]
    repeat' split
    all_goals simp

/-- A bus event's line is read back field by field. -/
theorem eventOf_eq {val : Value} {e : ServerEvent}
    (ht : val.json.get "topic" = some (.str e.topic)) (hd : val.get "data" = some e.data)
    (hf : val.json.get "from" = some (.str e.sender)) : eventOf val = some e := by
  have ht' : val.get "topic" = some ⟨.str e.topic, rfl⟩ := Value.get_eq_some.mpr ht
  have hf' : val.get "from" = some ⟨.str e.sender, rfl⟩ := Value.get_eq_some.mpr hf
  simp [eventOf, ht', hd, hf', Json.asStr]

/-- An event is read from exactly the objects that have both keys. -/
theorem eventOf_isSome (val : Value) : (eventOf val).isSome = true ↔
    (val.json.get "topic").isSome = true ∧ (val.json.get "data").isSome = true := by
  rw [← Value.get_isSome, ← Value.get_isSome, eventOf]
  cases val.get "topic" <;> cases val.get "data" <;> simp

end WmBusbridge.L4
