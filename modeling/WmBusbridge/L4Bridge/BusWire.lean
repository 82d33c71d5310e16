import WmBusbridge.L1Encoding.Framing
import WmBusbridge.L3Watcher.Announce
import WmBusbridge.L4Bridge.Reader

/-!
# Writing to the local bus (`src/bridge.rs:94-223`, `src/hub_watcher.rs:189-243,420-448`)

What the bridge writes on its agorabus connections, byte by byte: every message is
a line of JSON, and a write may fail after a part of its line. Flushing a Unix
stream does nothing and cannot fail.

* `emitWire_refines`: `emit_local` on connections made of bytes does what `emitLocal`
  says of its three answers.
-/
namespace WmBusbridge.L4
open L0 L1 L1.Framing L3

/-! ## Messages -/

/-- mirrors src/bridge.rs:176-182,199-205, src/hub_watcher.rs:207-213 -/
def announceMsg (sessionId : String) (pid : UInt32) (intent : String) : Value where
  json := .obj [("cwd", .str "/"), ("intent", .str intent), ("op", .str "announce"),
    ("pid", .num (.posInt pid.toUInt64)), ("session_id", .str sessionId)]
  wf := by
    have h1 : "cwd" < "intent" := by decide
    have h2 : "intent" < "op" := by decide
    have h3 : "op" < "pid" := by decide
    have h4 : "pid" < "session_id" := by decide
    simp [Json.wf, Json.wfFields, Number.wf, h1, h2, h3, h4]

/-- An announcement is read back as itself. -/
theorem announceMsg_plain (sessionId : String) (pid : UInt32) (intent : String) :
    (announceMsg sessionId pid intent).Plain where
  depth := by
    simp only [announceMsg, Json.depth, Json.depthFields]
    decide
  short := by
    simp [announceMsg, Json.Short, Json.numbers, Json.numbersFields, Number.Short]

/-- mirrors src/bridge.rs:109-113 -/
def publishMsg (topic : String) (data : Value) : Value where
  json := .obj [("data", data.json), ("op", .str "publish"), ("topic", .str topic)]
  wf := by
    have h1 : "data" < "op" := by decide
    have h2 : "op" < "topic" := by decide
    simp [Json.wf, Json.wfFields, data.wf, h1, h2]

/-- mirrors src/hub_watcher.rs:231-236 -/
def publishFromMsg (topic : String) (data : Value) (sessionId : String) : Value where
  json := .obj [("data", data.json), ("from", .str sessionId), ("op", .str "publish"),
    ("topic", .str topic)]
  wf := by
    have h1 : "data" < "from" := by decide
    have h2 : "from" < "op" := by decide
    have h3 : "op" < "topic" := by decide
    simp [Json.wf, Json.wfFields, data.wf, h1, h2, h3]

/-! ## One connection -/

/-- `write_all` of a line: all of it, or an error after the first bytes. -/
inductive WriteAns where
  | done
  | torn (n : Nat)
  deriving DecidableEq, Repr

/-- Serialize a message and write its line: what is on the connection after it, and
the context of the error. -/
def sendLine (serde : SerdeJson) (serializing writing : String) (sent : Bytes) (msg : Value)
    (ans : WriteAns) : Bytes × Except String Unit :=
  match serde.toVec msg with
  | none => (sent, .error serializing)
  | some buf =>
    match ans with
    | .done => (sent ++ frame 0x0A buf, .ok ())
    | .torn n => (sent ++ buf.take n, .error writing)

/-- How the socket answers a connect, and the write of the announcement. -/
structure ConnectAns where
  up : Bool
  announce : WriteAns
  deriving DecidableEq, Repr

/-- Connect and announce. The bytes are those of the new connection, which is dropped
on an error.
mirrors src/bridge.rs:170-186,193-209, src/hub_watcher.rs:202-217 -/
def connectAs (serde : SerdeJson) (path sessionId intent : String) (pid : UInt32)
    (ans : ConnectAns) : Bytes × Except String Unit :=
  if ans.up then
    sendLine serde "serializing announce" "writing announce" [] (announceMsg sessionId pid intent)
      ans.announce
  else ([], .error ("connecting to agorabus at " ++ path))

/-- mirrors src/bridge.rs:107-119 -/
def AgorabusPublisher.publish (serde : SerdeJson) (sent : Bytes) (topic : String) (data : Value)
    (ans : WriteAns) : Bytes × Except String Unit :=
  sendLine serde "serializing publish" "writing to agorabus" sent (publishMsg topic data) ans

/-- mirrors src/hub_watcher.rs:318,437 -/
def WATCHER_SESSION : String := "wm-busbridge-hub-watcher"

/-- mirrors src/hub_watcher.rs:201-223 -/
def LocalBusPublisher.connect (serde : SerdeJson) (path : String) (pid : UInt32)
    (ans : ConnectAns) : Bytes × Except String Unit :=
  connectAs serde path WATCHER_SESSION "hub liveness watcher" pid ans

/-- mirrors src/hub_watcher.rs:230-242 -/
def LocalBusPublisher.publish (serde : SerdeJson) (sent : Bytes) (topic : String) (data : Value)
    (ans : WriteAns) : Bytes × Except String Unit :=
  sendLine serde "serializing publish" "writing to agorabus" sent
    (publishFromMsg topic data WATCHER_SESSION) ans

/-! ## The watcher's connections -/

/-- What is on the connections the watcher has dropped, oldest first, and on the one
it holds. -/
structure BusConns where
  closed : List Bytes
  current : Option Bytes
  deriving DecidableEq

/-- All of them. -/
def BusConns.all (b : BusConns) : List Bytes := b.closed ++ b.current.toList

/-- Socket path and process id. -/
structure BusEnv where
  serde : SerdeJson
  path : String
  pid : UInt32

/-- How the socket answers one `emit_local`. -/
structure EmitAns where
  publish : WriteAns
  connect : ConnectAns
  republish : WriteAns
  deriving DecidableEq, Repr

def isOk (r : Except String Unit) : Bool := r matches .ok ()

/-- The first connection of the watcher.
mirrors src/hub_watcher.rs:315-323 -/
def BusConns.start (B : BusEnv) (ans : ConnectAns) : BusConns :=
  match LocalBusPublisher.connect B.serde B.path B.pid ans with
  | (sent, .ok ()) => { closed := [], current := some sent }
  | (sent, .error _) => { closed := if ans.up then [sent] else [], current := none }

/-- The second half of `emit_local`.
mirrors src/hub_watcher.rs:436-447 -/
def reconnect (B : BusEnv) (closed : List Bytes) (topic : String) (data : Value) (ans : EmitAns) :
    BusConns × Bool :=
  match LocalBusPublisher.connect B.serde B.path B.pid ans.connect with
  | (sent, .ok ()) =>
    let (sent', result) := LocalBusPublisher.publish B.serde sent topic data ans.republish
    ({ closed, current := some sent' }, isOk result)
  | (sent, .error _) =>
    ({ closed := if ans.connect.up then closed ++ [sent] else closed, current := none }, false)

/-- The connections after it, and whether the event was written.
mirrors src/hub_watcher.rs:421-448 -/
def emitWire (B : BusEnv) (b : BusConns) (topic : String) (data : Value) (ans : EmitAns) :
    BusConns × Bool :=
  match b.current with
  | some sent =>
    match LocalBusPublisher.publish B.serde sent topic data ans.publish with
    | (sent', .ok ()) => ({ b with current := some sent' }, true)
    | (sent', .error _) => reconnect B (b.closed ++ [sent']) topic data ans
  | none => reconnect B b.closed topic data ans

/-! ## What a write leaves -/

/-- `sendLine` in full. -/
inductive SendLine (serde : SerdeJson) (sent : Bytes) (msg : Value) : Bytes → Bool → Prop where
  | unserialized (h : serde.toVec msg = none) : SendLine serde sent msg sent false
  | torn (buf : Bytes) (n : Nat) (h : serde.toVec msg = some buf) :
      SendLine serde sent msg (sent ++ buf.take n) false
  | done (buf : Bytes) (h : serde.toVec msg = some buf) :
      SendLine serde sent msg (sent ++ frame 0x0A buf) true

theorem sendLine_cases (serde : SerdeJson) (ser wr : String) (sent : Bytes) (msg : Value)
    (ans : WriteAns) : SendLine serde sent msg (sendLine serde ser wr sent msg ans).1
      (isOk (sendLine serde ser wr sent msg ans).2) := by
  unfold sendLine
  cases hb : serde.toVec msg with
  | none => exact .unserialized hb
  | some buf =>
    cases ans with
    | done => exact .done buf hb
    | torn n => exact .torn buf n hb

/-- A line is written when its message serializes and the socket takes it. -/
def sends (serde : SerdeJson) (msg : Value) (ans : WriteAns) : Bool :=
  (serde.toVec msg).isSome && decide (ans = .done)

theorem isOk_sendLine (serde : SerdeJson) (ser wr : String) (sent : Bytes) (msg : Value)
    (ans : WriteAns) : isOk (sendLine serde ser wr sent msg ans).2 = sends serde msg ans := by
  unfold sendLine sends
  cases serde.toVec msg <;> cases ans <;> rfl

/-- The three answers `emitLocal` is about. -/
def EmitAns.env (B : BusEnv) (topic : String) (data : Value) (ans : EmitAns) : EmitEnv where
  publishOk := sends B.serde (publishFromMsg topic data WATCHER_SESSION) ans.publish
  connectOk := ans.connect.up &&
    sends B.serde (announceMsg WATCHER_SESSION B.pid "hub liveness watcher") ans.connect.announce
  republishOk := sends B.serde (publishFromMsg topic data WATCHER_SESSION) ans.republish

theorem isOk_connect (B : BusEnv) (ans : ConnectAns) :
    isOk (LocalBusPublisher.connect B.serde B.path B.pid ans).2 = (ans.up &&
      sends B.serde (announceMsg WATCHER_SESSION B.pid "hub liveness watcher") ans.announce) := by
  rw [LocalBusPublisher.connect, connectAs]
  cases ans.up with
  | false => rfl
  | true => exact isOk_sendLine _ _ _ _ _ _

section Cases
variable {B : BusEnv} {b : BusConns} {closed : List Bytes} {topic : String} {data : Value}
  {ans : EmitAns} {sent sent' : Bytes} {e : String} {r : Except String Unit}

theorem reconnect_ok
    (hc : LocalBusPublisher.connect B.serde B.path B.pid ans.connect = (sent, .ok ()))
    (hp : LocalBusPublisher.publish B.serde sent topic data ans.republish = (sent', r)) :
    reconnect B closed topic data ans = ({ closed, current := some sent' }, isOk r) := by
  simp [reconnect, hc, hp]

theorem reconnect_error
    (hc : LocalBusPublisher.connect B.serde B.path B.pid ans.connect = (sent, .error e)) :
    reconnect B closed topic data ans =
      ({ closed := if ans.connect.up then closed ++ [sent] else closed, current := none },
        false) := by
  simp [reconnect, hc]

theorem emitWire_none (hb : b.current = none) :
    emitWire B b topic data ans = reconnect B b.closed topic data ans := by
  simp [emitWire, hb]

theorem emitWire_ok (hb : b.current = some sent)
    (hp : LocalBusPublisher.publish B.serde sent topic data ans.publish = (sent', .ok ())) :
    emitWire B b topic data ans = ({ b with current := some sent' }, true) := by
  simp [emitWire, hb, hp]

theorem emitWire_error (hb : b.current = some sent)
    (hp : LocalBusPublisher.publish B.serde sent topic data ans.publish = (sent', .error e)) :
    emitWire B b topic data ans = reconnect B (b.closed ++ [sent']) topic data ans := by
  simp [emitWire, hb, hp]

end Cases

/-- **`emit_local` on bytes** writes the event, and holds a connection after it,
exactly when `emitLocal` says so. -/
theorem emitWire_refines (B : BusEnv) (b : BusConns) (topic : String) (data : Value)
    (ans : EmitAns) :
    ((emitWire B b topic data ans).2, (emitWire B b topic data ans).1.current.isSome) =
      emitLocal b.current.isSome (ans.env B topic data) := by
  have hrec : ∀ closed, ((reconnect B closed topic data ans).2,
      (reconnect B closed topic data ans).1.current.isSome) =
        if (ans.env B topic data).connectOk then ((ans.env B topic data).republishOk, true)
        else (false, false) := by
    intro closed
    have hc := isOk_connect B ans.connect
    cases hconn : LocalBusPublisher.connect B.serde B.path B.pid ans.connect with
    | mk sent r =>
      rw [hconn] at hc
      cases r with
      | error e =>
        have hno : (ans.env B topic data).connectOk = false := hc.symm
        rw [reconnect_error hconn, hno]
        rfl
      | ok u =>
        have hyes : (ans.env B topic data).connectOk = true := hc.symm
        rw [reconnect_ok hconn rfl, hyes, if_pos rfl]
        exact Prod.ext (isOk_sendLine _ _ _ _ _ _) rfl
  unfold emitLocal
  cases hb : b.current with
  | none =>
    rw [emitWire_none hb]
    exact hrec b.closed
  | some sent =>
    have hp : isOk (LocalBusPublisher.publish B.serde sent topic data ans.publish).2 =
        sends B.serde (publishFromMsg topic data WATCHER_SESSION) ans.publish :=
      isOk_sendLine _ _ _ _ _ _
    cases hpub : LocalBusPublisher.publish B.serde sent topic data ans.publish with
    | mk sent' r =>
      rw [hpub] at hp
      cases r with
      | error e =>
        have hno : (ans.env B topic data).publishOk = false := hp.symm
        rw [emitWire_error hb hpub, hrec, hno, Bool.and_false, if_neg Bool.false_ne_true]
      | ok u =>
        have hyes : (ans.env B topic data).publishOk = true := hp.symm
        rw [emitWire_ok hb hpub, hyes]
        rfl

end WmBusbridge.L4
