import WmBusbridge.L4Bridge.Outbound
import WmBusbridge.L4Bridge.Reader

/-!
# The agorabus→NATS loop on a byte stream (`src/bridge.rs:229-285`)

The outbound half, with its reads taken from the lines of a stream through
`next_event`. agorabus closes the stream in the end; where reading fails instead, the
loop returns `Err` too (`L4Bridge.Daemon`).

* `streamInv_inductive`: in every run the loop has read the events of the lines it
  has passed, in order.
* `never_stopped_exact`: the loop handles every event of the stream and returns
  only at its end, with `Ok`, exactly when every line is text.
* `stray_byte_stops`: one byte that is not text, and the next event is lost.
-/
namespace WmBusbridge.L4
open L0 L1 L1.Str L2 L3

/-- The loop's result. -/
inductive Returned where
  | ok
  | err
  deriving DecidableEq

/-- `rest`: the lines the reader has still to give. -/
structure Stream where
  out : Outbound
  rest : List Bytes
  returned : Option Returned
  deriving DecidableEq

/-- `own`: a step of the outbound half other than a read. -/
inductive StreamAct where
  | next
  | own (a : OutAct)
  deriving DecidableEq

/-- mirrors src/bridge.rs:237-284 -/
def streamStep (P : OutConfig) (s : Stream) : StreamAct → Option (Stream × List OutObs)
  | .next =>
    if s.returned = none ∧ s.out.a = .idle then
      match nextEvent P.serde .closed s.rest with
      | (.event e, rest) =>
        (outStep P s.out (.read e.topic e.data)).map fun r => ({ s with out := r.1, rest }, r.2)
      | (.ended, rest) => some ({ s with rest, returned := some .ok }, [])
      | (.failed, rest) => some ({ s with rest, returned := some .err }, [])
    else none
  | .own (.read _ _) => none
  | .own a =>
    if s.returned = none then (outStep P s.out a).map fun r => ({ s with out := r.1 }, r.2)
    else none

def Stream.start (connected : Bool) (now : UInt64) (bytes : Bytes) : Stream where
  out := .start connected now
  rest := byteLines bytes
  returned := none

def streamMach (P : OutConfig) (bytes : Bytes) : Mach Stream StreamAct OutObs where
  init s := ∃ connected now, s = .start connected now bytes
  step := streamStep P

/-! ## What a step can do -/

inductive StreamStep (P : OutConfig) (s : Stream) : StreamAct → Stream → List OutObs → Prop where
  | event (e : ServerEvent) (rest : List Bytes) (out : Outbound) (hr : s.returned = none)
      (hn : NextRead P.serde .closed s.rest (.event e) rest)
      (ho : OutStep P s.out (.read e.topic e.data) out []) :
      StreamStep P s .next { s with out := out, rest := rest } []
  | ended (rest : List Bytes) (hr : s.returned = none)
      (hn : NextRead P.serde .closed s.rest .ended rest) :
      StreamStep P s .next { s with rest := rest, returned := some .ok } []
  | failed (rest : List Bytes) (hr : s.returned = none)
      (hn : NextRead P.serde .closed s.rest .failed rest) :
      StreamStep P s .next { s with rest := rest, returned := some .err } []
  | own (a : OutAct) (out : Outbound) (os : List OutObs) (hr : s.returned = none)
      (hreads : out.reads = s.out.reads) (ho : OutStep P s.out a out os) :
      StreamStep P s (.own a) { s with out := out } os

/-- A step of the outbound half that is not a read leaves its reads alone. -/
theorem OutStep.reads_eq {P : OutConfig} {s s' : Outbound} {a : OutAct} {os : List OutObs}
    (hst : OutStep P s a s' os) (ha : ∀ topic data, a ≠ .read topic data) : s'.reads = s.reads := by
  cases hst with
  | skip topic data _ _ => exact absurd rfl (ha topic data)
  | read topic data _ _ _ => exact absurd rfl (ha topic data)
  | _ => rfl

theorem streamStep_cases {P : OutConfig} {s s' : Stream} {a : StreamAct} {os : List OutObs}
    (hst : streamStep P s a = some (s', os)) : StreamStep P s a s' os := by
  cases a with
  | next =>
    simp only [streamStep] at hst
    split at hst
    · rename_i hg
      have hn := nextEvent_read P.serde .closed s.rest
      cases hne : nextEvent P.serde .closed s.rest with
      | mk r rest =>
        rw [hne] at hst hn
        cases r with
        | event e =>
          simp only [Option.map_eq_some_iff] at hst
          obtain ⟨⟨out, os'⟩, ho, heq⟩ := hst
          cases heq
          have hcase := outStep_cases ho
          have hos : os' = [] := by cases hcase <;> rfl
          subst hos
          exact .event e rest out hg.1 hn hcase
        | ended =>
          cases hst
          exact .ended rest hg.1 hn
        | failed =>
          cases hst
          exact .failed rest hg.1 hn
    · cases hst
  | own b =>
    have hne : ∀ topic data, b ≠ .read topic data := by
      rintro topic data rfl
      cases hst
    have hown : streamStep P s (.own b) = if s.returned = none then
        (outStep P s.out b).map fun r => ({ s with out := r.1 }, r.2) else none := by
      cases b with
      | read topic data => exact absurd rfl (hne topic data)
      | _ => rfl
    rw [hown] at hst
    split at hst
    · rename_i hr
      obtain ⟨⟨out, os'⟩, ho, heq⟩ := Option.map_eq_some_iff.mp hst
      cases heq
      have hcase := outStep_cases ho
      exact .own b out os' hr (hcase.reads_eq hne) hcase
    · cases hst

/-- The outbound half moves as `outMach` does. -/
theorem stream_simulates (P : OutConfig) (bytes : Bytes) :
    Mach.Simulates (streamMach P bytes) Mach.free (outMach P) Mach.free Stream.out some := by
  intro s a s' os _ hst
  rw [List.filterMap_some]
  cases streamStep_cases hst with
  | event e rest out hr hn ho => exact ⟨[.read e.topic e.data], .single trivial ho.enabled⟩
  | ended rest hr hn => exact ⟨[], .nil⟩
  | failed rest hr hn => exact ⟨[], .nil⟩
  | own a out os hr hreads ho => exact ⟨[a], .single trivial ho.enabled⟩

/-- What is proved of `outMach` holds of the loop on a stream. -/
theorem stream_out_reaches {P : OutConfig} {bytes : Bytes} {as : List StreamAct} {s : Stream}
    {tr : List OutObs} (hr : (streamMach P bytes).Reaches Mach.free as s tr) :
    ∃ bs, (outMach P).Reaches Mach.free bs s.out tr := by
  rw [← tr.filterMap_some]
  refine (stream_simulates P bytes).reaches (fun s₀ h0 => ?_) hr
  obtain ⟨connected, now, rfl⟩ := h0
  exact ⟨connected, now, rfl⟩

/-! ## The lines passed -/

/-- The events of lines that are JSON objects with both keys, as the loop reads
them: it drops the sender. -/
def lineEvents (serde : SerdeJson) (ls : List Bytes) : List (String × Value) :=
  ls.filterMap fun l => ((serde.fromSlice l).bind eventOf).map fun e => (e.topic, e.data)

/-- What a line adds to the reads. -/
def LineRead.read : LineRead → Option (String × Value)
  | .event e => some (e.topic, e.data)
  | _ => none

/-- A blank line is no JSON text. -/
def BlankIsNoJson (serde : SerdeJson) : Prop :=
  ∀ l s v, decodeUtf8 l = some s → serde.fromSlice l = some v → trim s ≠ ""

/-- On lines of text, what the reader passes over is what has no event. -/
theorem lineEvents_eq {serde : SerdeJson} (hj : BlankIsNoJson serde) {ls : List Bytes}
    (h : ∀ l ∈ ls, readLine serde l ≠ .unreadable) :
    lineEvents serde ls = ls.filterMap fun l => (readLine serde l).read := by
  refine List.filterMap_congr fun l hl => ?_
  have htext := h l hl
  unfold readLine at htext ⊢
  cases hd : decodeUtf8 l with
  | none => simp [hd] at htext
  | some s =>
    cases hv : serde.fromSlice l with
    | none => simp [LineRead.read]
    | some v =>
      simp only [if_neg (hj l s v hd hv), Option.bind_some]
      cases eventOf v <;> rfl

theorem skipped_read {serde : SerdeJson} {ls : List Bytes}
    (h : ∀ l ∈ ls, readLine serde l = .skipped) :
    (ls.filterMap fun l => (readLine serde l).read) = [] := by
  refine List.filterMap_eq_nil_iff.mpr fun l hl => ?_
  rw [h l hl]
  rfl

/-- `passed` are the lines read so far, `left` those not read, the one that
could not be read included. -/
structure Passed (P : OutConfig) (lines : List Bytes) (s : Stream) (passed left : List Bytes) :
    Prop where
  split : lines = passed ++ left
  text : ∀ l ∈ passed, readLine P.serde l ≠ .unreadable
  reads : s.out.reads = passed.filterMap fun l => (readLine P.serde l).read
  running : s.returned = none → s.rest = left
  ended : s.returned = some .ok → left = [] ∧ s.rest = []
  failed : s.returned = some .err → ∃ l ∈ left, readLine P.serde l = .unreadable

/-- Where a stream stands. -/
def StreamInv (P : OutConfig) (lines : List Bytes) (s : Stream) : Prop :=
  ∃ passed left, Passed P lines s passed left

theorem streamInv_step {P : OutConfig} {lines : List Bytes} {s s' : Stream} {a : StreamAct}
    {os : List OutObs} (hI : StreamInv P lines s) (hst : StreamStep P s a s' os) :
    StreamInv P lines s' := by
  obtain ⟨passed, left, hP⟩ := hI
  have htext : ∀ {skipped : List Bytes}, (∀ l ∈ skipped, readLine P.serde l = .skipped) →
      ∀ l ∈ skipped, readLine P.serde l ≠ .unreadable := by
    intro skipped hs l hl
    rw [hs l hl]
    simp
  cases hst with
  | event e rest out hr hn ho =>
    have hleft := hP.running hr
    generalize hls : s.rest = ls at hn
    cases hn with
    | event skipped l _ _ hs hl =>
      have hreads : out.reads = s.out.reads ++ [(e.topic, e.data)] := by cases ho <;> rfl
      refine ⟨passed ++ skipped ++ [l], rest, ?_, ?_, ?_, fun _ => rfl, ?_, ?_⟩
      · rw [hP.split, ← hleft, hls]
        simp
      · intro m hm
        rcases List.mem_append.mp hm with hm | hm
        · rcases List.mem_append.mp hm with hm | hm
          · exact hP.text m hm
          · exact htext hs m hm
        · rw [List.mem_singleton.mp hm, hl]
          simp
      · show out.reads = _
        rw [hreads, hP.reads, List.filterMap_append, List.filterMap_append, skipped_read hs]
        simp [hl, LineRead.read]
      · intro h
        rw [show s.returned = some .ok from h] at hr
        cases hr
      · intro h
        rw [show s.returned = some .err from h] at hr
        cases hr
  | ended rest hr hn =>
    have hleft := hP.running hr
    generalize hls : s.rest = ls at hn
    cases hn with
    | ended _ hs he =>
      refine ⟨passed ++ ls, [], ?_, ?_, ?_, fun h => (nomatch h), fun _ => ⟨rfl, rfl⟩,
        fun h => (nomatch h)⟩
      · rw [hP.split, ← hleft, hls, List.append_nil]
      · exact fun m hm => (List.mem_append.mp hm).elim (hP.text m) (htext hs m)
      · show s.out.reads = _
        rw [hP.reads, List.filterMap_append, skipped_read hs, List.append_nil]
  | failed rest hr hn =>
    have hleft := hP.running hr
    generalize hls : s.rest = ls at hn
    cases hn with
    | broken _ _ he => cases he
    | failed skipped l _ hs hl =>
      refine ⟨passed, left, hP.split, hP.text, hP.reads, fun h => (nomatch h),
        fun h => (nomatch h), fun _ => ⟨l, ?_, hl⟩⟩
      rw [← hleft, hls]
      simp
  | own a out os hr hreads ho =>
    exact ⟨passed, left, hP.split, hP.text, hreads.trans hP.reads, hP.running, hP.ended, hP.failed⟩

theorem streamInv_inductive (P : OutConfig) (bytes : Bytes) :
    (streamMach P bytes).Inductive Mach.free (fun _ s _ => StreamInv P (byteLines bytes) s) where
  init := by
    rintro s ⟨connected, now, rfl⟩
    exact ⟨[], byteLines bytes, rfl, by simp, rfl, fun _ => rfl, fun h => (nomatch h),
      fun h => (nomatch h)⟩
  step _ _ _ _ _ _ hI _ hst := streamInv_step hI (streamStep_cases hst)

/-! ## The loop can always go on -/

/-- A step of the outbound half that is not a read. -/
theorem own_run (P : OutConfig) (bytes : Bytes) {s : Stream} {a : OutAct} {out : Outbound}
    {os : List OutObs} (hr : s.returned = none) (ha : ∀ topic data, a ≠ .read topic data)
    (ho : OutStep P s.out a out os) :
    (streamMach P bytes).Run Mach.free s [.own a] { s with out := out } os := by
  have hst : streamStep P s (.own a) = some ({ s with out := out }, os) := by
    cases a with
    | read topic data => exact absurd rfl (ha topic data)
    | _ => simp only [streamStep, if_pos hr, ho.enabled, Option.map_some]
  exact .single trivial hst

/-- The loop finishes with the event it is busy with. -/
theorem reaches_idle (P : OutConfig) (bytes : Bytes) {s : Stream} (hr : s.returned = none) :
    ∃ bs t tr, (streamMach P bytes).Run Mach.free s bs t tr ∧ t.returned = none ∧
      t.rest = s.rest ∧ t.out.a = .idle := by
  cases ha : s.out.a with
  | idle => exact ⟨[], s, [], .nil, hr, rfl, ha⟩
  | direct e => exact ⟨_, _, _, own_run P bytes hr (by simp) (.direct e true ha), hr, rfl, rfl⟩
  | offer e =>
    cases hs : s.out.hub.live.state with
    | up =>
      -- refused, so it is published
      have h₁ := own_run P bytes hr (by simp) (.refused e ha hs)
      have h₂ := own_run P bytes (s := { s with out := { s.out with a := .direct e } }) hr (by simp)
        (.direct e true rfl)
      exact ⟨_, _, _, h₁.append h₂, hr, rfl, rfl⟩
    | down =>
      exact ⟨_, _, _, own_run P bytes hr (by simp) (.accepted e _ _ ha hs rfl), hr, rfl, rfl⟩

/-- One call of `next_event`: the loop returns or has fewer lines left. -/
theorem next_run (P : OutConfig) (bytes : Bytes) {s : Stream} (hr : s.returned = none)
    (ha : s.out.a = .idle) : ∃ t, (streamMach P bytes).Run Mach.free s [.next] t [] ∧
      (t.returned = none → t.rest.length < s.rest.length) := by
  suffices h : ∃ t, streamStep P s .next = some (t, []) ∧
      (t.returned = none → t.rest.length < s.rest.length) by
    obtain ⟨t, hst, ht⟩ := h
    exact ⟨t, .single trivial hst, ht⟩
  have hn := nextEvent_read P.serde .closed s.rest
  rw [streamStep, if_pos ⟨hr, ha⟩]
  cases hne : nextEvent P.serde .closed s.rest with
  | mk r rest =>
    rw [hne] at hn
    cases r with
    | ended => exact ⟨_, rfl, fun h => (nomatch h)⟩
    | failed => exact ⟨_, rfl, fun h => (nomatch h)⟩
    | event e =>
      obtain ⟨out, ho⟩ : ∃ out, OutStep P s.out (.read e.topic e.data) out [] := by
        cases hp : a2nPayload P.serde P.allow e.topic e.data with
        | none => exact ⟨_, .skip e.topic e.data ha hp⟩
        | some payload => exact ⟨_, .read e.topic e.data payload ha hp⟩
      refine ⟨{ s with out := out, rest := rest }, by simp only [ho.enabled, Option.map_some], ?_⟩
      intro _
      show rest.length < s.rest.length
      dsimp only at hn
      generalize s.rest = ls at hn
      cases hn with
      | event skipped l _ _ _ _ =>
        rw [List.length_append, List.length_cons]
        omega

theorem reaches_return (P : OutConfig) (bytes : Bytes) (s : Stream) :
    ∃ bs t tr, (streamMach P bytes).Run Mach.free s bs t tr ∧ t.returned ≠ none := by
  induction hn : s.rest.length using Nat.strong_induction_on generalizing s with
  | _ n ih =>
    by_cases hr : s.returned = none
    · obtain ⟨bs, t, tr, hrun, htr, htrest, hta⟩ := reaches_idle P bytes hr
      obtain ⟨u, hnext, hlt⟩ := next_run P bytes htr hta
      by_cases hu : u.returned = none
      · have hlt' := hlt hu
        rw [htrest, hn] at hlt'
        obtain ⟨bs', v, tr', hrest, hv⟩ := ih _ hlt' u rfl
        exact ⟨_, v, _, (hrun.append hnext).append hrest, hv⟩
      · exact ⟨_, u, _, hrun.append hnext, hu⟩
    · exact ⟨[], s, [], .nil, hr⟩

/-! ## The exact condition -/

/-- No line stops the bridge: the events are read in order, each once, and the
loop, which can always go on to its end, returns at the end of the stream with
`Ok`, having read them all. -/
structure NeverStopped (P : OutConfig) (bytes : Bytes) : Prop where
  in_order : ∀ as s tr, (streamMach P bytes).Reaches Mach.free as s tr →
    s.out.reads <+: lineEvents P.serde (byteLines bytes)
  at_end : ∀ as s tr r, (streamMach P bytes).Reaches Mach.free as s tr → s.returned = some r →
    r = .ok ∧ s.rest = [] ∧ s.out.reads = lineEvents P.serde (byteLines bytes)
  goes_on : ∀ as s tr, (streamMach P bytes).Reaches Mach.free as s tr →
    ∃ bs t tr', (streamMach P bytes).Run Mach.free s bs t tr' ∧ t.returned ≠ none

/-- **When no line stops the bridge**: every line of the stream is UTF-8. -/
theorem never_stopped_exact (P : OutConfig) (hj : BlankIsNoJson P.serde) (bytes : Bytes) :
    NeverStopped P bytes ↔ ∀ l ∈ byteLines bytes, (decodeUtf8 l).isSome = true := by
  have htext : (∀ l ∈ byteLines bytes, (decodeUtf8 l).isSome = true) ↔
      ∀ l ∈ byteLines bytes, readLine P.serde l ≠ .unreadable := by
    simp only [Ne, readLine_unreadable, ← Option.isSome_iff_ne_none]
  rw [htext]
  constructor
  · intro h
    have h0 : (streamMach P bytes).Reaches Mach.free [] (.start true 0 bytes) [] :=
      ⟨_, ⟨true, 0, rfl⟩, .nil⟩
    -- go on to the end: every line has been passed
    obtain ⟨bs, t, tr, hrun, ht⟩ := h.goes_on _ _ _ h0
    have hreach : (streamMach P bytes).Reaches Mach.free bs t tr := ⟨_, ⟨true, 0, rfl⟩, hrun⟩
    obtain ⟨passed, left, hP⟩ := (streamInv_inductive P bytes).reaches hreach
    obtain ⟨r, hr⟩ := Option.ne_none_iff_exists'.mp ht
    obtain ⟨rfl, -, -⟩ := h.at_end _ _ _ _ hreach hr
    rw [hP.split, (hP.ended hr).1, List.append_nil]
    exact hP.text
  · intro h
    have hI : ∀ {as s tr}, (streamMach P bytes).Reaches Mach.free as s tr →
        ∃ passed left, Passed P (byteLines bytes) s passed left :=
      fun hr => (streamInv_inductive P bytes).reaches hr
    refine ⟨fun as s tr hr => ?_, fun as s tr r hr hret => ?_, fun as s tr _ =>
      reaches_return P bytes s⟩
    · obtain ⟨passed, left, hP⟩ := hI hr
      rw [lineEvents_eq hj h, hP.reads, hP.split, List.filterMap_append]
      exact List.prefix_append _ _
    · obtain ⟨passed, left, hP⟩ := hI hr
      cases r with
      | err =>
        obtain ⟨l, hl, hbad⟩ := hP.failed hret
        exact absurd hbad (h l (by rw [hP.split]; exact List.mem_append_right _ hl))
      | ok =>
        obtain ⟨hleft, hrest⟩ := hP.ended hret
        refine ⟨rfl, hrest, ?_⟩
        rw [lineEvents_eq hj h, hP.reads, hP.split, hleft, List.append_nil]

/-- An event on `wm.fleet.a`, as text and as a value. -/
def eventTextEx : String := "\x7b\"data\":null,\"topic\":\"wm.fleet.a\"\x7d"

def eventBytesEx : Bytes := eventTextEx.toUTF8.data.toList

def eventEx : Value := ⟨.obj [("data", .null), ("topic", .str "wm.fleet.a")], by decide⟩

/-- A bridge with the default allow list. -/
def streamEx : OutConfig where
  cfg := cfgEx
  allow := allowList ""
  serde := .only eventEx eventBytesEx

theorem streamEx_blank : BlankIsNoJson streamEx.serde := by
  intro l s v hs hv
  have hl : l = eventBytesEx := by
    by_contra hne
    simp [streamEx, SerdeJson.only, hne] at hv
  rw [hl, eventBytesEx, decodeUtf8_toUTF8] at hs
  cases hs
  decide

theorem eventEx_handled : NeverStopped streamEx (eventBytesEx ++ [0x0A]) := by
  refine (never_stopped_exact streamEx streamEx_blank _).mpr fun l hl => ?_
  have hlines : byteLines (eventBytesEx ++ [0x0A]) = [eventBytesEx] := by decide
  rw [hlines, List.mem_singleton] at hl
  rw [hl, eventBytesEx, decodeUtf8_toUTF8]
  rfl

/-- The byte `FF` on a line of its own, then the event: the loop returns `Err`
without having read it. -/
theorem stray_byte_stops :
    ¬ NeverStopped streamEx ([0xFF, 0x0A] ++ eventBytesEx ++ [0x0A]) := by
  intro h
  have hrun : (streamMach streamEx ([0xFF, 0x0A] ++ eventBytesEx ++ [0x0A])).Run Mach.free
      (.start true 0 ([0xFF, 0x0A] ++ eventBytesEx ++ [0x0A])) [.next]
      { out := .start true 0, rest := [eventBytesEx], returned := some .err } [] :=
    .single trivial (by decide)
  obtain ⟨hok, -⟩ := h.at_end _ _ _ .err ⟨_, ⟨true, 0, rfl⟩, hrun⟩ rfl
  cases hok

end WmBusbridge.L4
