import WmBusbridge.L3Watcher.Liveness

/-!
# What drop-oldest drops

`Fits` is both caps at once. The eviction loop should keep the longest suffix of
the buffer that, with the new event, fits.

* `evict_counts`: as long as the bytes fit, it does.
* `evict_over`: once they do not, it empties the buffer, since its byte test does
  not see what it pops.
* `drops_only_needed_exact`: so the buffer after a call is the longest fitting suffix
  exactly when the bytes fit before anything is dropped, or nothing old could stay.
* `byte_overflow_empties`: four one-byte events and a byte cap of four.
-/
namespace WmBusbridge.L3
open L0 L1

/-- Within both caps. -/
structure Fits (cfg : HubWatcherConfig) (buf : List BufferedEvent) : Prop where
  events : buf.length ≤ cfg.bufferMaxEvents
  bytes : bytesOf buf ≤ cfg.bufferMaxBytes

/-- A call while DOWN drops only what is needed. -/
structure DropsOnlyNeeded (cfg : HubWatcherConfig) (st : HubLivenessState) (e : BufferedEvent) :
    Prop where
  longest : LongestSuffix (Fits cfg) (st.buffer ++ [e]) (maybeBuffer cfg st e).2.buffer
  dropped : (maybeBuffer cfg st e).2.dropped =
    st.dropped + .ofNat ((st.buffer ++ [e]).length - (maybeBuffer cfg st e).2.buffer.length)

section Evict
variable {cfg : HubWatcherConfig} {buf : List BufferedEvent} {e : BufferedEvent}

/-- A suffix holds no more bytes. -/
theorem bytesOf_suffix {s : List BufferedEvent} (h : s <:+ buf) : bytesOf s ≤ bytesOf buf := by
  obtain ⟨t, rfl⟩ := h
  rw [bytesOf_append]
  exact Nat.le_add_left _ _

theorem evict_counts (hev : 1 ≤ cfg.bufferMaxEvents)
    (hb : bytesOf (buf ++ [e]) ≤ cfg.bufferMaxBytes) :
    LongestSuffix (Fits cfg) (buf ++ [e]) ((evict cfg buf e).2 ++ [e]) := by
  have hbytes : bytesOf buf + e.payload.length ≤ cfg.bufferMaxBytes := by simpa using hb
  have hlim : ∀ s, overLimit cfg (bytesOf buf) e.payload.length s = false ↔
      s.length < cfg.bufferMaxEvents := by
    intro s
    simp [overLimit, hbytes]
  refine (popWhile_longest buf ((hlim []).mpr hev)).snoc fun s hs => ?_
  rw [hlim]
  constructor
  · intro hlt
    refine ⟨by simpa using Nat.succ_le_of_lt hlt, ?_⟩
    have := bytesOf_suffix hs
    simp only [bytesOf_append, bytesOf_cons, bytesOf_nil]
    omega
  · intro hf
    have := hf.events
    rw [List.length_append, List.length_singleton] at this
    exact this

theorem evict_over (hb : cfg.bufferMaxBytes < bytesOf (buf ++ [e])) :
    evict cfg buf e = (buf, []) := by
  have hbytes : cfg.bufferMaxBytes < bytesOf buf + e.payload.length := by simpa using hb
  exact popWhile_all buf fun s => by simp [overLimit, hbytes]

/-- The new event alone is the longest fitting suffix exactly when its
predecessor cannot stay. -/
theorem alone_longest_iff {init : List BufferedEvent} {last : BufferedEvent}
    (hev : 1 ≤ cfg.bufferMaxEvents) (he : e.payload.length ≤ cfg.bufferMaxBytes) :
    LongestSuffix (Fits cfg) (init ++ [last] ++ [e]) [e] ↔
      cfg.bufferMaxEvents = 1 ∨ cfg.bufferMaxBytes < last.payload.length + e.payload.length := by
  have hfits : Fits cfg [last, e] ↔ ¬ (cfg.bufferMaxEvents = 1 ∨
      cfg.bufferMaxBytes < last.payload.length + e.payload.length) := by
    constructor
    · rintro ⟨h1, h2⟩
      simp only [List.length_cons, List.length_nil, bytesOf_cons, bytesOf_nil] at h1 h2
      omega
    · intro h
      exact ⟨by simp only [List.length_cons, List.length_nil]; omega,
        by simp only [bytesOf_cons, bytesOf_nil]; omega⟩
  have hsuffix : [last, e] <:+ init ++ [last] ++ [e] := ⟨init, by simp⟩
  constructor
  · intro h
    by_contra hn
    have := (h.longest _ hsuffix (hfits.mpr hn)).length_le
    simp at this
  · intro h
    refine ⟨⟨init ++ [last], rfl⟩, ⟨hev, by simpa using he⟩, fun s hs hf => ?_⟩
    by_contra hlong
    -- a longer suffix has the last two entries
    have htwo : [last, e] <:+ s := by
      rcases List.suffix_or_suffix_of_suffix hs hsuffix with hs' | hs'
      · rcases List.suffix_cons_iff.mp hs' with rfl | hs'
        · exact List.suffix_refl _
        · exact absurd hs' hlong
      · exact hs'
    refine absurd h (hfits.mp ⟨?_, ?_⟩)
    · exact Nat.le_trans htwo.length_le hf.events
    · exact Nat.le_trans (bytesOf_suffix htwo) hf.bytes

end Evict

/-- What is not kept is counted. -/
theorem dropped_exact (cfg : HubWatcherConfig) {st : HubLivenessState} (e : BufferedEvent)
    (hs : st.state = .down) : (maybeBuffer cfg st e).2.dropped =
      st.dropped + .ofNat ((st.buffer ++ [e]).length - (maybeBuffer cfg st e).2.buffer.length) := by
  have hsplit := congrArg List.length (evict_append cfg st.buffer e)
  have hpopped : (evict cfg st.buffer e).1.length =
      (st.buffer ++ [e]).length - ((evict cfg st.buffer e).2 ++ [e]).length := by
    simp only [List.length_append, List.length_singleton] at hsplit ⊢
    omega
  rw [maybeBuffer_down cfg e hs, ← hpopped]

/-- **When drop-oldest drops only what is needed**: the buffer and the new event
are within the byte cap, or one entry is all it may hold, or the newest entry
and the new event together are over the byte cap. -/
theorem drops_only_needed_exact (cfg : HubWatcherConfig) (st : HubLivenessState) (e : BufferedEvent)
    (hs : st.state = .down) (hev : 1 ≤ cfg.bufferMaxEvents)
    (he : e.payload.length ≤ cfg.bufferMaxBytes) :
    DropsOnlyNeeded cfg st e ↔ bytesOf (st.buffer ++ [e]) ≤ cfg.bufferMaxBytes ∨
      cfg.bufferMaxEvents = 1 ∨
      ∃ last, st.buffer.getLast? = some last ∧
        cfg.bufferMaxBytes < last.payload.length + e.payload.length := by
  have hlongest : DropsOnlyNeeded cfg st e ↔
      LongestSuffix (Fits cfg) (st.buffer ++ [e]) ((evict cfg st.buffer e).2 ++ [e]) := by
    have hbuf : (maybeBuffer cfg st e).2.buffer = (evict cfg st.buffer e).2 ++ [e] := by
      rw [maybeBuffer_down cfg e hs]
    rw [← hbuf]
    exact ⟨DropsOnlyNeeded.longest, fun h => ⟨h, dropped_exact cfg e hs⟩⟩
  rw [hlongest]
  by_cases hb : bytesOf (st.buffer ++ [e]) ≤ cfg.bufferMaxBytes
  · exact iff_of_true (evict_counts hev hb) (.inl hb)
  · rw [evict_over (Nat.lt_of_not_le hb), List.nil_append]
    rcases List.eq_nil_or_concat st.buffer with hnil | ⟨init, last, hlast⟩
    · -- an empty buffer is within the byte cap
      refine absurd ?_ hb
      rw [hnil]
      simpa using he
    · rw [List.concat_eq_append] at hlast
      rw [hlast] at hb ⊢
      rw [alone_longest_iff hev he, List.getLast?_concat]
      constructor
      · rintro (h1 | hlt)
        · exact .inr (.inl h1)
        · exact .inr (.inr ⟨last, rfl, hlt⟩)
      · rintro (h | h1 | ⟨_, hl, hlt⟩)
        · exact absurd h hb
        · exact .inl h1
        · cases hl
          exact .inr hlt

/-- Payloads of `sizes` bytes. -/
def bufferEx (sizes : List Nat) : List BufferedEvent :=
  sizes.map fun n => { topic := "wm.fleet.a", payload := List.replicate n 0, seq := 0 }

/-- An outage with caps of ten events and four bytes. -/
def smallEx : HubWatcherConfig :=
  { downThreshold := 3, upThreshold := 2, bufferMaxEvents := 10, bufferMaxBytes := 4,
    nodeId := "nomad" }

def downEx (sizes : List Nat) : HubLivenessState :=
  { state := .down, buffer := bufferEx sizes, dropped := 0 }

def oneByteEx : BufferedEvent := { topic := "wm.fleet.a", payload := [0], seq := 0 }

/-- Three bytes and one more. -/
theorem three_kept : DropsOnlyNeeded smallEx (downEx [1, 1, 1]) oneByteEx :=
  (drops_only_needed_exact smallEx _ oneByteEx rfl (by decide) (by decide)).mpr (.inl (by decide))

/-- Four bytes and one more: all four go, though one would do. -/
theorem byte_overflow_empties : ¬ DropsOnlyNeeded smallEx (downEx [1, 1, 1, 1]) oneByteEx := by
  intro h
  have hkept := h.longest.longest (bufferEx [1, 1, 1] ++ [oneByteEx]) ⟨bufferEx [1], rfl⟩
    ⟨by decide, by decide⟩
  exact absurd hkept.length_le (by decide)

end WmBusbridge.L3
