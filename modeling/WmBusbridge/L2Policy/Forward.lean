import WmBusbridge.L1Encoding.Str
import WmBusbridge.L1Encoding.JsonText

/-!
# Forwarding policy and loop-guard marker (`src/forward.rs`)

* `shouldForward_iff`: a topic passes exactly when no blocked prefix and some
  allowed prefix starts it.
* `shouldForward_append`: what follows the prefix is not looked at.
* `fromValue_toValue`: an envelope decodes to what it was built from.
* `isBridged_toValue`: every envelope the bridge builds carries the marker.
* `isBridged_value`: printing and reading keeps the marker.
-/
namespace WmBusbridge.L2
open L1 L1.Str

/-- mirrors src/forward.rs:14 -/
def BRIDGE_MARKER_KEY : String := "_wm_bridged"

/-- mirrors src/forward.rs:19-22 -/
def BLOCKED_PREFIXES : List String := ["wm.audio.speech.chunk", "wm.local."]

/-- mirrors src/forward.rs:28-40 -/
structure BridgedPayload where
  bridged : Bool
  topic : String
  data : Value
  sender : String
  deriving DecidableEq

namespace BridgedPayload

/-- The field `from` is called `sender` here.
mirrors src/forward.rs:46-53 -/
def new (topic : String) (data : Value) (sender : String) : BridgedPayload :=
  { bridged := true, topic, data, sender }

/-- `serde_json::to_value` of the struct: `bridged` is renamed to the marker
key, and the object sorts its keys. No field can fail to serialize, so the
`Err` arm of its one caller is dead.
mirrors src/forward.rs:28-40 -/
def toValue (p : BridgedPayload) : Value where
  json := .obj [("_wm_bridged", .bool p.bridged), ("data", p.data.json), ("from", .str p.sender),
    ("topic", .str p.topic)]
  wf := by
    have h1 : "_wm_bridged" < "data" := by decide
    have h2 : "data" < "from" := by decide
    have h3 : "from" < "topic" := by decide
    simp [Json.wf, Json.wfFields, p.data.wf, h1, h2, h3]

/-- mirrors src/forward.rs:58-64 -/
def isBridged (value : Value) : Bool :=
  ((value.json.get BRIDGE_MARKER_KEY).bind Json.asBool).getD false

/-- The four fields, of the types they have. -/
def ofFields (bridged topic data sender : Value) : Option BridgedPayload := do
  let bridged ← bridged.json.asBool
  let topic ← topic.json.asStr
  let sender ← sender.json.asStr
  return { bridged, topic, data, sender }

/-- `serde_json::from_value` at the struct: an object with the four keys, other
keys ignored, or an array of the four fields in declaration order.
mirrors src/forward.rs:28-40 -/
def fromValue (v : Value) : Option BridgedPayload :=
  match v.asArray with
  | some [bridged, topic, data, sender] => ofFields bridged topic data sender
  | some _ => none
  | none => do
    let bridged ← v.get BRIDGE_MARKER_KEY
    let topic ← v.get "topic"
    let data ← v.get "data"
    let sender ← v.get "from"
    ofFields bridged topic data sender

/-- Decoding undoes encoding. -/
theorem fromValue_toValue (p : BridgedPayload) : fromValue p.toValue = some p := by
  have hb : p.toValue.get BRIDGE_MARKER_KEY = some ⟨.bool p.bridged, rfl⟩ := by
    simp [Value.get_eq_some, toValue, Json.get, BRIDGE_MARKER_KEY]
  have ht : p.toValue.get "topic" = some ⟨.str p.topic, rfl⟩ := by
    simp [Value.get_eq_some, toValue, Json.get, List.lookup_cons]
  have hd : p.toValue.get "data" = some p.data := by
    simp [Value.get_eq_some, toValue, Json.get, List.lookup_cons]
  have hf : p.toValue.get "from" = some ⟨.str p.sender, rfl⟩ := by
    simp [Value.get_eq_some, toValue, Json.get, List.lookup_cons]
  have harr : p.toValue.asArray = none := rfl
  rw [fromValue, harr]
  simp only [hb, ht, hd, hf]
  rfl

@[simp] theorem isBridged_toValue (p : BridgedPayload) : isBridged p.toValue = p.bridged := by
  simp [isBridged, toValue, Json.get, BRIDGE_MARKER_KEY, Json.asBool]

/-- The marker survives printing and reading. -/
theorem isBridged_value (T : NumberText) (v : Value) : isBridged (T.value v) = isBridged v := by
  simp only [isBridged, NumberText.value, Json.get_reread]
  cases v.json.get BRIDGE_MARKER_KEY with
  | none => rfl
  | some m => simp

end BridgedPayload

/-- mirrors src/forward.rs:74-88 -/
def shouldForward (topic : String) (allowPrefixes : List String) : Bool :=
  if BLOCKED_PREFIXES.any (startsWith topic) then false
  else allowPrefixes.any (startsWith topic)

theorem shouldForward_iff (t : String) (allow : List String) :
    shouldForward t allow = true ↔
      (∀ b ∈ BLOCKED_PREFIXES, startsWith t b = false) ∧ ∃ p ∈ allow, startsWith t p = true := by
  unfold shouldForward
  split
  · rename_i h
    obtain ⟨b, hb, hs⟩ := List.any_eq_true.mp h
    simp only [Bool.false_eq_true, false_iff, not_and]
    intro hn
    rw [hn b hb] at hs
    cases hs
  · rename_i h
    simp only [List.any_eq_true, not_exists, not_and, Bool.not_eq_true] at h
    simp only [List.any_eq_true]
    exact ⟨fun ha => ⟨h, ha⟩, fun ha => ha.2⟩

/-- A topic that passes also passes with anything after it that does not go on
with a character of a blocked prefix. -/
theorem shouldForward_append {t : String} {allow : List String} {c : Char} {l : List Char}
    (h : shouldForward t allow = true) (hc : ∀ b ∈ BLOCKED_PREFIXES, c ∉ b.toList) :
    shouldForward (t ++ .ofList (c :: l)) allow = true := by
  obtain ⟨hb, p, hp, hstart⟩ := (shouldForward_iff t allow).mp h
  refine (shouldForward_iff _ allow).mpr ⟨fun b hmem => ?_, p, hp, startsWith_append _ hstart⟩
  by_contra hn
  rw [Bool.not_eq_false] at hn
  have hs := startsWith_of_append_cons hn (hc b hmem)
  rw [hb b hmem] at hs
  cases hs

/-- An allow list with an empty entry lets through whatever is not blocked. -/
theorem shouldForward_of_empty_mem {t : String} {allow : List String} (h : "" ∈ allow)
    (hb : ∀ b ∈ BLOCKED_PREFIXES, startsWith t b = false) : shouldForward t allow = true :=
  (shouldForward_iff t allow).mpr ⟨hb, "", h, startsWith_empty t⟩

end WmBusbridge.L2
