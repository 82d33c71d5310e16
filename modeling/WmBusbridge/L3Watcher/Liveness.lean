import Mathlib.Algebra.Ring.Nat
import WmBusbridge.L0Core.Ring
import WmBusbridge.L1Encoding.Json

/-!
# Shared liveness state and the outage buffer (`src/hub_watcher.rs`)

`HubLivenessState` is what the watcher and the bridge loop share behind a
mutex; `maybeBuffer` is one locked section. `state_since` is left out (only the
`hub-status` printout reads it).

* `maybeBuffer_up`, `maybeBuffer_down`: what one call does.
* `maybeBuffer_length`, `maybeBuffer_bytes`: the two caps after a call.
-/
namespace WmBusbridge.L3
open L0 L1

/-- mirrors src/hub_watcher.rs:17-22 -/
inductive HubState where
  | up
  | down
  deriving DecidableEq, Repr

/-- `seq` is a ghost: which of the events its producer saw this one is. No
definition below reads it.
mirrors src/hub_watcher.rs:35-40 -/
structure BufferedEvent where
  topic : String
  payload : Bytes
  seq : Nat
  deriving DecidableEq, Repr

/-- mirrors src/hub_watcher.rs:44-53 -/
structure HubLivenessState where
  state : HubState
  buffer : List BufferedEvent
  dropped : UInt64
  deriving DecidableEq, Repr

/-- mirrors src/hub_watcher.rs:56-63 -/
def HubLivenessState.new : HubLivenessState := { state := .up, buffer := [], dropped := 0 }

/-- mirrors src/hub_watcher.rs:73-75 -/
def HubLivenessState.bufferedCount (st : HubLivenessState) : Nat := st.buffer.length

/-- The thresholds, the caps and the node name; the two durations only say how
long the watcher waits.
mirrors src/hub_watcher.rs:80-95 -/
structure HubWatcherConfig where
  downThreshold : UInt32
  upThreshold : UInt32
  bufferMaxEvents : Nat
  bufferMaxBytes : Nat
  nodeId : String
  deriving DecidableEq, Repr

/-- mirrors src/hub_watcher.rs:97-109 -/
def HubWatcherConfig.default (hostname : String) : HubWatcherConfig :=
  { downThreshold := 3, upThreshold := 2, bufferMaxEvents := 1000,
    bufferMaxBytes := 10 * 1024 * 1024, nodeId := hostname }

/-- Payload bytes held. -/
def bytesOf (buf : List BufferedEvent) : Nat := (buf.map fun e => e.payload.length).sum

@[simp] theorem bytesOf_nil : bytesOf [] = 0 := rfl

@[simp] theorem bytesOf_append (a b : List BufferedEvent) :
    bytesOf (a ++ b) = bytesOf a + bytesOf b := by
  simp [bytesOf]

@[simp] theorem bytesOf_cons (e : BufferedEvent) (b : List BufferedEvent) :
    bytesOf (e :: b) = e.payload.length + bytesOf b := by
  simp [bytesOf]

/-- The test of the eviction loop. `currentBytes` is what the buffer held
before the loop; the loop does not recompute it.
mirrors src/hub_watcher.rs:274-275 -/
def overLimit (cfg : HubWatcherConfig) (currentBytes newBytes : Nat) (buf : List BufferedEvent) :
    Bool :=
  decide (cfg.bufferMaxEvents ≤ buf.length) || decide (cfg.bufferMaxBytes < currentBytes + newBytes)

/-- The eviction loop on arrival of `e`: what it pops and what it keeps.
mirrors src/hub_watcher.rs:268-284 -/
def evict (cfg : HubWatcherConfig) (buf : List BufferedEvent) (e : BufferedEvent) :
    List BufferedEvent × List BufferedEvent :=
  popWhile (overLimit cfg (bytesOf buf) e.payload.length) buf

/-- `dropped` counts each pop, modulo 2^64.
mirrors src/hub_watcher.rs:257-291 -/
def maybeBuffer (cfg : HubWatcherConfig) (st : HubLivenessState) (e : BufferedEvent) :
    Bool × HubLivenessState :=
  if st.state = .up then (false, st)
  else
    let (popped, kept) := evict cfg st.buffer e
    (true, { st with buffer := kept ++ [e], dropped := st.dropped + .ofNat popped.length })

theorem maybeBuffer_up (cfg : HubWatcherConfig) {st : HubLivenessState} (e : BufferedEvent)
    (h : st.state = .up) : maybeBuffer cfg st e = (false, st) := by
  simp [maybeBuffer, h]

theorem maybeBuffer_down (cfg : HubWatcherConfig) {st : HubLivenessState} (e : BufferedEvent)
    (h : st.state = .down) :
    maybeBuffer cfg st e = (true, { st with
      buffer := (evict cfg st.buffer e).2 ++ [e],
      dropped := st.dropped + .ofNat (evict cfg st.buffer e).1.length }) := by
  simp [maybeBuffer, h]

theorem evict_append (cfg : HubWatcherConfig) (buf : List BufferedEvent) (e : BufferedEvent) :
    (evict cfg buf e).1 ++ (evict cfg buf e).2 = buf :=
  popWhile_append _ _

/-- After eviction there is room for one more entry, whatever the cap. -/
theorem evict_length (cfg : HubWatcherConfig) (buf : List BufferedEvent) (e : BufferedEvent) :
    (evict cfg buf e).2.length + 1 ≤ max 1 cfg.bufferMaxEvents := by
  rcases popWhile_stop (overLimit cfg (bytesOf buf) e.payload.length) buf with h | h
  · unfold evict
    rw [h, List.length_nil]
    omega
  · simp only [overLimit, Bool.or_eq_false_iff, decide_eq_false_iff_not, Nat.not_le] at h
    unfold evict
    have := h.1
    omega

/-- What eviction keeps fits beside the new payload, unless it keeps nothing. -/
theorem evict_bytes (cfg : HubWatcherConfig) (buf : List BufferedEvent) (e : BufferedEvent) :
    (evict cfg buf e).2 = [] ∨
      bytesOf (evict cfg buf e).2 + e.payload.length ≤ cfg.bufferMaxBytes := by
  rcases popWhile_stop (overLimit cfg (bytesOf buf) e.payload.length) buf with h | h
  · exact .inl h
  · simp only [overLimit, Bool.or_eq_false_iff, decide_eq_false_iff_not, Nat.not_lt] at h
    have hsplit := congrArg bytesOf (evict_append cfg buf e)
    rw [bytesOf_append] at hsplit
    have := h.2
    omega

theorem maybeBuffer_length (cfg : HubWatcherConfig) {st : HubLivenessState} (e : BufferedEvent)
    (h : st.state = .down) :
    (maybeBuffer cfg st e).2.buffer.length ≤ max 1 cfg.bufferMaxEvents := by
  rw [maybeBuffer_down cfg e h]
  simpa using evict_length cfg st.buffer e

/-- The byte cap holds after a call exactly when the new payload alone meets it. -/
theorem maybeBuffer_bytes (cfg : HubWatcherConfig) {st : HubLivenessState} (e : BufferedEvent)
    (h : st.state = .down) :
    bytesOf (maybeBuffer cfg st e).2.buffer ≤ cfg.bufferMaxBytes ↔
      e.payload.length ≤ cfg.bufferMaxBytes := by
  rw [maybeBuffer_down cfg e h]
  simp only [bytesOf_append, bytesOf_cons, bytesOf_nil, Nat.add_zero]
  constructor
  · omega
  · intro he
    rcases evict_bytes cfg st.buffer e with hk | hk
    · simp [hk, he]
    · exact hk

end WmBusbridge.L3
