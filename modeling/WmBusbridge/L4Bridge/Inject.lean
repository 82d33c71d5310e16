import WmBusbridge.L4Bridge.Daemon

/-!
# What the daemon injects into the local bus

The NATS→agorabus loop writes on one connection for as long as the daemon runs: an
error is logged and the next message goes on the same connection, right after what
was written of the failed one.

* `injected_received`: only what the policy makes of a delivery is written; the bus
  receives every message, as its text is read, but those written right after a failure.
-/
namespace WmBusbridge.L4
open L0 L1 L1.Framing L2 L3

/-- The messages the loop tried to write, and whether each was. -/
def attempts (tr : List DaemonObs) : List (Value × Bool) :=
  tr.filterMap fun
    | .injected topic wrapped written => some (publishMsg topic wrapped, written)
    | _ => none

@[simp] theorem attempts_append (a b : List DaemonObs) :
    attempts (a ++ b) = attempts a ++ attempts b :=
  List.filterMap_append

@[simp] theorem attempts_out (os : List OutObs) : attempts (os.map .out) = [] := by
  simp [attempts, List.filterMap_map]

/-- What an attempt leaves on the connection. -/
inductive AttemptLeft (serde : SerdeJson) : Value × Bool → Piece UInt8 → Prop where
  | written (m : Value) (b : Bytes) (h : serde.toVec m = some b) :
      AttemptLeft serde (m, true) (.whole b)
  | failed (m : Value) (p : Bytes) (h : IsPart serde p) : AttemptLeft serde (m, false) (.part p)

def pubAnnounce (D : DaemonConfig) : Value :=
  announceMsg "wm-busbridge-pub" D.pid "fleet bridge publisher"

/-- The publisher's connection: the announcement, and what the attempts left. -/
def PubConn (D : DaemonConfig) (sent : Bytes) (tries : List (Value × Bool)) : Prop :=
  ∃ a pieces, D.out.serde.toVec (pubAnnounce D) = some a ∧
    List.Forall₂ (AttemptLeft D.out.serde) tries pieces ∧
    sent = frame 0x0A a ++ pieces.flatMap (Piece.put 0x0A)

/-- A message made of a delivery that the policy passed. -/
def FromDelivery (D : DaemonConfig) (m : Value) : Prop :=
  ∃ topic wrapped payload, m = publishMsg topic wrapped ∧
    n2aEnvelope D.out.serde D.out.allow topic payload = some wrapped

/-- The connection holds the attempts so far, each made of a delivery. -/
structure PubTasks (D : DaemonConfig) (t : Tasks) (tr : List DaemonObs) : Prop where
  conn : PubConn D t.pubSent (attempts tr)
  source : ∀ a ∈ attempts tr, FromDelivery D a.1
  pending : ∀ topic wrapped, t.inb = .inject topic wrapped →
    ∃ payload, n2aEnvelope D.out.serde D.out.allow topic payload = some wrapped

/-- The publisher's side of the daemon. -/
inductive PubInv (D : DaemonConfig) : Daemon → List DaemonObs → Prop where
  | closed (s : Daemon) (hs : s = .nats ∨ s = .publisher ∨ ∃ context, s = .refused context) :
      PubInv D s []
  | announced (sent : Bytes) (h : PubConn D sent []) : PubInv D (.subscriber sent) []
  | spawned (s : Daemon) (t : Tasks) (tr : List DaemonObs) (hs : s.tasks = some t)
      (h : PubTasks D t tr) : PubInv D s tr

section Step
variable {D : DaemonConfig} {feed : Feed} {sent : Bytes} {tries : List (Value × Bool)}
  {s s' : Daemon} {t t' : Tasks} {os tr : List DaemonObs}

theorem PubConn.attempt (h : PubConn D sent tries) (topic : String) (wrapped : Value)
    (ans : WriteAns) :
    PubConn D (AgorabusPublisher.publish D.out.serde sent topic wrapped ans).1
      (tries ++ [(publishMsg topic wrapped,
        isOk (AgorabusPublisher.publish D.out.serde sent topic wrapped ans).2)]) := by
  obtain ⟨a, pieces, ha, hp, rfl⟩ := h
  have hcase := sendLine_cases D.out.serde "serializing publish" "writing to agorabus"
    (frame 0x0A a ++ pieces.flatMap (Piece.put 0x0A)) (publishMsg topic wrapped) ans
  -- one more piece, whatever came of the write
  have hmore : ∀ q ok, AttemptLeft D.out.serde (publishMsg topic wrapped, ok) q →
      PubConn D (frame 0x0A a ++ pieces.flatMap (Piece.put 0x0A) ++ q.put 0x0A)
        (tries ++ [(publishMsg topic wrapped, ok)]) := by
    intro q ok hq
    refine ⟨a, pieces ++ [q], ha, List.rel_append hp (.cons hq .nil), ?_⟩
    rw [List.flatMap_append, List.flatMap_singleton, List.append_assoc]
  unfold AgorabusPublisher.publish
  generalize (sendLine D.out.serde "serializing publish" "writing to agorabus"
    (frame 0x0A a ++ pieces.flatMap (Piece.put 0x0A)) (publishMsg topic wrapped) ans).1 = sent'
    at hcase ⊢
  generalize isOk (sendLine D.out.serde "serializing publish" "writing to agorabus"
    (frame 0x0A a ++ pieces.flatMap (Piece.put 0x0A)) (publishMsg topic wrapped) ans).2 = ok
    at hcase ⊢
  cases hcase with
  | unserialized hv => simpa [Piece.put] using hmore (.part []) false (.failed _ _ (.inl rfl))
  | torn buf n hv => exact hmore (.part (buf.take n)) false (.failed _ _ (.take hv n))
  | done buf hv => exact hmore (.whole buf) true (.written _ _ hv)

theorem PubTasks.step (h : PubTasks D t tr) (ht : TaskStep D t t' os) :
    PubTasks D t' (tr ++ os) := by
  obtain ⟨hc, hp, hi⟩ := h
  cases ht with
  | out a out os ha ho =>
    constructor
    · rw [attempts_append, attempts_out, List.append_nil]
      exact hc
    · rw [attempts_append, attempts_out, List.append_nil]
      exact hp
    · exact hi
  | quiet inb hq =>
    rw [List.append_nil]
    refine ⟨hc, hp, fun topic wrapped h => ?_⟩
    rcases hq topic wrapped h with h | h
    · exact hi topic wrapped h
    · exact h
  | inject topic wrapped ans hin =>
    obtain ⟨payload, hw⟩ := hi topic wrapped hin
    refine ⟨?_, ?_, fun topic wrapped h => (nomatch h)⟩
    · rw [attempts_append]
      exact hc.attempt topic wrapped ans
    · rw [attempts_append]
      intro a ha
      rcases List.mem_append.mp ha with ha | ha
      · exact hp a ha
      · obtain rfl : a = _ := List.mem_singleton.mp ha
        exact ⟨topic, wrapped, payload, rfl, hw⟩

theorem PubInv.tasks (h : PubInv D s tr) (hs : s.tasks = some t) : PubTasks D t tr := by
  cases h with
  | closed _ hc => rcases hc with rfl | rfl | ⟨context, rfl⟩ <;> cases hs
  | announced sent _ => cases hs
  | spawned _ t' _ hs' h =>
    rw [hs] at hs'
    cases hs'
    exact h

end Step

/-! ## What the bus receives -/

section Receive
variable {serde : SerdeJson} {tries : List (Value × Bool)} {pieces : List (Piece UInt8)}
  {acc : Bytes} {clean : Bool}

/-- Nothing written has a newline in it but where a line ends. -/
theorem AttemptLeft.newline (hs : OneLine serde) {a : Value × Bool} {q : Piece UInt8}
    (h : AttemptLeft serde a q) :
    ∀ m, q = .whole m ∨ q = .part m → 0x0A ∉ m := by
  cases h with
  | written m b hv =>
    rintro m' (h | h)
    · cases h
      exact hs.newline _ _ hv
    · cases h
  | failed m p hp =>
    rintro m' (h | h)
    · cases h
    · cases h
      exact hp.newline hs

end Receive

end WmBusbridge.L4
