import WmBusbridge.L2Policy.Forward

/-!
# The two bridge loops, one message at a time (`src/bridge.rs`)

What either loop makes of one message, up to the await that acts on it:
`a2nPayload` gives the bytes to buffer or publish, `n2aEnvelope` the envelope to
inject. `none`: the message is skipped.
-/
namespace WmBusbridge.L4
open L1 L1.Str L2

/-! ## The allow list -/

/-- The socket path and the NATS URL only say where to connect.
mirrors src/config.rs:7-14 -/
structure BridgeConfig where
  extraAllow : List String
  deriving DecidableEq, Repr

/-- mirrors src/config.rs:21-25 -/
def BridgeConfig.fleetAllowPrefixes (cfg : BridgeConfig) : List String :=
  ["wm.fleet."] ++ cfg.extraAllow

/-- `extra_allow` from the text of `--allow` / `WM_BRIDGE_ALLOW`.
mirrors src/main.rs:95-99 -/
def extraAllow (allow : String) : List String :=
  if allow = "" then [] else (split allow ',').map trim

/-- The list both loops get.
mirrors src/main.rs:95-105, src/bridge.rs:47 -/
def allowList (allow : String) : List String :=
  BridgeConfig.fleetAllowPrefixes { extraAllow := extraAllow allow }

/-! ## One message -/

/-- mirrors src/bridge.rs:239-257 -/
def a2nPayload (serde : SerdeJson) (allow : List String) (topic : String) (data : Value) :
    Option Bytes :=
  if BridgedPayload.isBridged data then none
  else if !shouldForward topic allow then none
  else serde.toVec data

/-- mirrors src/bridge.rs:300-316 -/
def n2aEnvelope (serde : SerdeJson) (allow : List String) (subject : String) (payload : Bytes) :
    Option Value :=
  if !shouldForward subject allow then none
  else some (BridgedPayload.new subject ((serde.fromSlice payload).getD .null) "nats").toValue

theorem a2nPayload_some {serde : SerdeJson} {allow : List String} {topic : String} {data : Value}
    {b : Bytes} : a2nPayload serde allow topic data = some b ↔
      BridgedPayload.isBridged data = false ∧ shouldForward topic allow = true ∧
        serde.toVec data = some b := by
  unfold a2nPayload
  cases hm : BridgedPayload.isBridged data <;> cases hf : shouldForward topic allow <;> simp

theorem n2aEnvelope_some {serde : SerdeJson} {allow : List String} {subject : String}
    {payload : Bytes} {w : Value} : n2aEnvelope serde allow subject payload = some w ↔
      shouldForward subject allow = true ∧
        (BridgedPayload.new subject ((serde.fromSlice payload).getD .null) "nats").toValue = w := by
  unfold n2aEnvelope
  cases hf : shouldForward subject allow <;> simp

/-- What is about to be injected is marked. -/
theorem n2aEnvelope_bridged {serde : SerdeJson} {allow : List String} {subject : String}
    {payload : Bytes} {w : Value} (h : n2aEnvelope serde allow subject payload = some w) :
    BridgedPayload.isBridged w = true := by
  obtain ⟨-, rfl⟩ := n2aEnvelope_some.mp h
  rw [BridgedPayload.isBridged_toValue]
  rfl

/-- What is about to leave decodes to unmarked data. -/
theorem a2nPayload_unmarked {serde : SerdeJson} {allow : List String} {topic : String}
    {data v : Value} {b : Bytes} (h : a2nPayload serde allow topic data = some b)
    (hv : serde.fromSlice b = some v) : BridgedPayload.isBridged v = false := by
  obtain ⟨hm, -, hb⟩ := a2nPayload_some.mp h
  rw [serde.fromSlice_toVec _ _ hb] at hv
  rw [NumberText.value_of_reads hv, BridgedPayload.isBridged_value]
  exact hm

end WmBusbridge.L4
