import WmBusbridge.L3Watcher.RunWatcher

/-!
# The byte cap of the outage buffer

The eviction loop pops while the new payload does not fit, but it stops on an
empty buffer and pushes whatever came.

* `byte_cap_exact`: the buffer stays within `buffer_max_bytes` all along a run
  exactly when no single payload buffered in it is over the cap.
* `byte_cap_broken`: one payload over the cap is enough to break it.
-/
namespace WmBusbridge.L3
open L0 L1

/-- The buffer is within its byte limit. -/
def WithinBytes (cfg : HubWatcherConfig) (h : Hub) : Prop :=
  bytesOf h.live.buffer ≤ cfg.bufferMaxBytes

/-- A payload that arrives while DOWN is, alone, within the limit. -/
def PayloadFits (cfg : HubWatcherConfig) (h : Hub) : HubAct → Prop
  | .buffer e => h.live.state = .down → e.payload.length ≤ cfg.bufferMaxBytes
  | .watch _ => True

instance (cfg : HubWatcherConfig) (h : Hub) : (a : HubAct) → Decidable (PayloadFits cfg h a)
  | .buffer e => inferInstanceAs
      (Decidable (h.live.state = .down → e.payload.length ≤ cfg.bufferMaxBytes))
  | .watch _ => .isTrue trivial

/-- One step keeps the limit exactly when its payload fits. -/
theorem within_step {cfg : HubWatcherConfig} {h h' : Hub} {a : HubAct} {os : List Obs}
    (hin : WithinBytes cfg h) (hst : HubStep cfg h a h' os) :
    WithinBytes cfg h' ↔ PayloadFits cfg h a := by
  cases hst with
  | refused e hs =>
    refine ⟨fun _ hd => ?_, fun _ => hin⟩
    rw [hs] at hd
    cases hd
  | accepted e popped kept hs he =>
    have hb := maybeBuffer_bytes cfg e hs
    rw [maybeBuffer_down cfg e hs, he] at hb
    exact hb.trans ⟨fun hle _ => hle, fun hf => hf hs⟩
  | flipUp dur hpc => exact ⟨fun _ => trivial, fun _ => Nat.zero_le _⟩
  | _ => exact ⟨fun _ => trivial, fun _ => hin⟩

/-- **When the byte limit holds**: all along a run, exactly if every payload
that came while DOWN fits on its own. -/
theorem byte_cap_exact (cfg : HubWatcherConfig) {h₀ h : Hub} {as : List HubAct} {tr : List Obs}
    (h0 : (hubMach cfg).init h₀) (hr : (hubMach cfg).Run Mach.free h₀ as h tr) :
    (hubMach cfg).Along h₀ as (WithinBytes cfg) ↔
      (hubMach cfg).Run (PayloadFits cfg) h₀ as h tr := by
  obtain ⟨connected, now, rfl⟩ := h0
  refine Mach.along_iff (Nat.zero_le _) ?_ hr
  intro s a s' os hin hst
  exact within_step hin (hubStep_cases hst)

/-- Four bytes are allowed. -/
def tinyEx : HubWatcherConfig :=
  { downThreshold := 1, upThreshold := 1, bufferMaxEvents := 8, bufferMaxBytes := 4,
    nodeId := "nomad" }

/-- The hub goes down and one event of `payload` arrives. -/
def arriveEx (payload : Bytes) : List HubAct :=
  [.watch (.probe false), .watch (.look 10 10), .watch .flip,
   .buffer ⟨"wm.fleet.presence", payload, 0⟩]

def arrivedEx (payload : Bytes) : Hub where
  live := { state := .down, buffer := [⟨"wm.fleet.presence", payload, 0⟩], dropped := 0 }
  w := { pc := .emitDown, consecutiveFailures := 0, consecutiveSuccesses := 0, lastOkTs := 0,
         downSinceTs := 10, busPub := true }

theorem arriveEx_run (payload : Bytes) :
    (hubMach tinyEx).Run Mach.free (Hub.start true 0) (arriveEx payload) (arrivedEx payload)
      [.probed false, .flipped .down, .accepted ⟨"wm.fleet.presence", payload, 0⟩] :=
  Mach.run_of_exec rfl

/-- A payload of exactly the limit. -/
theorem arriveEx_within :
    (hubMach tinyEx).Along (Hub.start true 0) (arriveEx [1, 2, 3, 4]) (WithinBytes tinyEx) :=
  (byte_cap_exact tinyEx ⟨true, 0, rfl⟩ (arriveEx_run _)).mpr (Mach.run_of_exec rfl)

/-- One more byte. -/
theorem byte_cap_broken :
    ¬ ∀ (cfg : HubWatcherConfig) (as : List HubAct) (h : Hub) (tr : List Obs),
      (hubMach cfg).Reaches Mach.free as h tr → WithinBytes cfg h := by
  intro hall
  have hin := hall tinyEx _ _ _ ⟨_, ⟨true, 0, rfl⟩, arriveEx_run [1, 2, 3, 4, 5]⟩
  exact absurd hin (by unfold WithinBytes; decide)

end WmBusbridge.L3
