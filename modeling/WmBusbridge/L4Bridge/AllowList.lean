import WmBusbridge.L4Bridge.Loops

/-!
# What the allow text lets through

`Allowed s t` is what `--allow s` says about topic `t`. The parse keeps empty
items, and an empty prefix starts every topic.

* `allow_exact`: both loops let through exactly the allowed topics, for the
  texts with no empty item and for no others.
* `empty_item_opens`: with an empty item, every unblocked topic passes.
-/
namespace WmBusbridge.L4
open L1 L1.Str L2

/-- No blocked prefix, and the fleet prefix or a nonempty item of the text. -/
def Allowed (s t : String) : Prop :=
  (∀ b ∈ BLOCKED_PREFIXES, startsWith t b = false) ∧
    (startsWith t "wm.fleet." = true ∨
      ∃ item ∈ split s ',', trim item ≠ "" ∧ startsWith t (trim item) = true)

/-- The policy test and, through it, both loops pass exactly the allowed topics. -/
structure Selective (serde : SerdeJson) (s : String) : Prop where
  policy : ∀ t, shouldForward t (allowList s) = true ↔ Allowed s t
  outbound : ∀ t data b, BridgedPayload.isBridged data = false → serde.toVec data = some b →
    ((a2nPayload serde (allowList s) t data).isSome = true ↔ Allowed s t)
  inbound : ∀ t payload, (n2aEnvelope serde (allowList s) t payload).isSome = true ↔ Allowed s t

theorem mem_allowList {s p : String} :
    p ∈ allowList s ↔ p = "wm.fleet." ∨ s ≠ "" ∧ ∃ item ∈ split s ',', trim item = p := by
  unfold allowList extraAllow BridgeConfig.fleetAllowPrefixes
  by_cases hs : s = "" <;> simp [hs]

/-- Allowed topics always pass. -/
theorem Allowed.forwarded {s t : String} (h : Allowed s t) :
    shouldForward t (allowList s) = true := by
  obtain ⟨hb, hfleet | ⟨item, hitem, hne, hstart⟩⟩ := h
  · exact (shouldForward_iff t _).mpr ⟨hb, _, mem_allowList.mpr (.inl rfl), hfleet⟩
  · have hs : s ≠ "" := by
      rintro rfl
      rw [split_empty, List.mem_singleton] at hitem
      subst hitem
      exact hne trim_empty
    exact (shouldForward_iff t _).mpr
      ⟨hb, _, mem_allowList.mpr (.inr ⟨hs, item, hitem, rfl⟩), hstart⟩

/-- Without empty items only allowed topics pass. -/
theorem forwarded_allowed {s t : String} (hs : s = "" ∨ ∀ item ∈ split s ',', trim item ≠ "")
    (h : shouldForward t (allowList s) = true) : Allowed s t := by
  obtain ⟨hb, p, hp, hstart⟩ := (shouldForward_iff t _).mp h
  refine ⟨hb, ?_⟩
  rcases mem_allowList.mp hp with rfl | ⟨hne, item, hitem, rfl⟩
  · exact .inl hstart
  · rcases hs with rfl | hs
    · exact absurd rfl hne
    · exact .inr ⟨item, hitem, hs item hitem, hstart⟩

/-- An empty item lets through whatever is not blocked. -/
theorem empty_item_opens {s item t : String} (hs : s ≠ "") (hitem : item ∈ split s ',')
    (he : trim item = "") (hb : ∀ b ∈ BLOCKED_PREFIXES, startsWith t b = false) :
    shouldForward t (allowList s) = true :=
  shouldForward_of_empty_mem (mem_allowList.mpr (.inr ⟨hs, item, hitem, he⟩)) hb

/-- The loops pass what the policy test passes. -/
theorem selective_of_policy {serde : SerdeJson} {s : String}
    (h : ∀ t, shouldForward t (allowList s) = true ↔ Allowed s t) : Selective serde s where
  policy := h
  outbound t data b hm hb := by
    rw [← h t, Option.isSome_iff_exists]
    constructor
    · rintro ⟨c, hc⟩
      exact (a2nPayload_some.mp hc).2.1
    · intro hf
      exact ⟨b, a2nPayload_some.mpr ⟨hm, hf, hb⟩⟩
  inbound t payload := by
    rw [← h t, Option.isSome_iff_exists]
    constructor
    · rintro ⟨w, hw⟩
      exact (n2aEnvelope_some.mp hw).1
    · intro hf
      exact ⟨_, n2aEnvelope_some.mpr ⟨hf, rfl⟩⟩

/-- **Which allow texts forward selectively**: the empty one, and those in which
no comma-separated item is blank. -/
theorem allow_exact (serde : SerdeJson) (s : String) :
    Selective serde s ↔ s = "" ∨ ∀ item ∈ split s ',', trim item ≠ "" := by
  constructor
  · intro hsel
    by_contra hn
    simp only [not_or, not_forall, not_not] at hn
    obtain ⟨hs, item, hitem, he⟩ := hn
    -- the empty topic passes, and no nonempty prefix starts it
    have hpass : shouldForward "" (allowList s) = true :=
      empty_item_opens hs hitem he (by decide)
    obtain ⟨-, hfleet | ⟨item', -, hne, hstart⟩⟩ := (hsel.policy "").mp hpass
    · exact absurd hfleet (by decide)
    · exact hne ((empty_startsWith _).mp hstart)
  · intro hs
    exact selective_of_policy fun t => ⟨forwarded_allowed hs, Allowed.forwarded⟩

/-- A trailing comma sends a private topic off the machine. -/
theorem trailing_comma_leaks : ¬ ∀ (serde : SerdeJson) (s : String), Selective serde s := by
  intro h
  have hsel := h (.only .null [0x6E, 0x75, 0x6C, 0x6C]) "wm.presence.,"
  have hpass : shouldForward "wm.stt.transcript" (allowList "wm.presence.,") = true := by decide
  obtain ⟨-, hfleet | ⟨item, hitem, hne, hstart⟩⟩ := (hsel.policy _).mp hpass
  · exact absurd hfleet (by decide)
  · have hitems : split "wm.presence.," ',' = ["wm.presence.", ""] := by decide
    rw [hitems] at hitem
    rcases List.mem_cons.mp hitem with rfl | hitem
    · exact absurd hstart (by decide)
    · rw [List.mem_singleton] at hitem
      subst hitem
      exact hne trim_empty

end WmBusbridge.L4
