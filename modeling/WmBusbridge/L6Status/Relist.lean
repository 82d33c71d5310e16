import WmBusbridge.L6Status.Registry

/-!
# A node comes back (`src/heartbeat.rs:78-105`)

A put that is refused makes the loop let go of the store, and the next tick open the
bucket again.

* `first_step`, `second_step`: what the two ticks do, one step at a time.
* `relisted`: after two whole ticks a node is listed, whatever happened before.
-/
namespace WmBusbridge.L6
open L0 L1

section Recovery
set_option linter.unusedSectionVars false
variable {N K : Type} [DecidableEq N] [Field K] [LinearOrder K] [IsStrictOrderedRing K]
  [FloorSemiring K] {key : N → String} {w₀ w w' : Registry N K} {n : N} {t : K} {c : ℕ}
  {a : Event N K} {as : List (Event N K)} {os tr : List (N × Put K)}

/-- The bucket is not deleted, what `n` sends arrives, and an error to `n` is a refusal. -/
def Clear (n : N) (w : Registry N K) : Event N K → Prop
  | .deleted => False
  | .opened m ok => m = n → ok = true
  | .samples m sample => m = n → sample.isSome = true
  | .lost m => m ≠ n
  | .answered m ok => m = n → ok = false → (w.nodes n).flying = [] ∧ (w.nodes n).acked = false
  | .passes _ | .created | .ticks _ | .lands _ => True

instance : (a : Event N K) → Decidable (Clear n w a)
  | .deleted => .isFalse id
  | .opened m ok => inferInstanceAs (Decidable (m = n → ok = true))
  | .samples m sample => inferInstanceAs (Decidable (m = n → sample.isSome = true))
  | .lost m => inferInstanceAs (Decidable (m ≠ n))
  | .answered m ok => inferInstanceAs (Decidable
      (m = n → ok = false → (w.nodes n).flying = [] ∧ (w.nodes n).acked = false))
  | .passes _ | .created | .ticks _ | .lands _ => .isTrue trivial

def Event.answers (n : N) (a : Event N K) : Bool := a = .answered n true ∨ a = .answered n false

/-- The bucket has an entry of the key since `t`. -/
def Carries (k : String) (t : K) (w : Registry N K) : Prop :=
  ∃ e, w.entry k = some e ∧ t ≤ e.stored

/-- After a refusal the loop lets go of the store and opens the bucket again. -/
inductive Reopens : Beater K → Option (Bucket K) → Prop where
  | waiting {acked b} : Reopens ⟨false, .waiting, [], acked⟩ b
  | opening {acked b} : Reopens ⟨false, .opening, [], acked⟩ b
  | sampling {acked b} : Reopens ⟨true, .sampling, [], acked⟩ (some b)
  | putting {p b} : Reopens ⟨true, .putting, [p], false⟩ (some b)

/-- What holds `c` answers after the loop of `n` waited for a tick. -/
inductive Stage (key : N → String) (n : N) (t : K) : ℕ → Registry N K → Prop where
  | first {w : Registry N K} : ((w.nodes n).phase = .putting → (w.nodes n).acked = false) →
      Stage key n t 0 w
  | second {w : Registry N K} : Reopens (w.nodes n) w.bucket → Stage key n t 1 w
  | carried {c : ℕ} {w : Registry N K} : Carries (key n) t w → Stage key n t c w

theorem Reopens.mono {x : Beater K} {b b' : Option (Bucket K)} (h : Reopens x b)
    (hb : b.isSome = true → b'.isSome = true) : Reopens x b' := by
  cases h with
  | waiting => exact .waiting
  | opening => exact .opening
  | sampling =>
    obtain ⟨b', rfl⟩ := Option.isSome_iff_exists.mp (hb rfl)
    exact .sampling
  | putting =>
    obtain ⟨b', rfl⟩ := Option.isSome_iff_exists.mp (hb rfl)
    exact .putting

theorem Clear.not_deleted (h : Clear n w a) : a ≠ .deleted := by
  rintro rfl
  exact h

theorem carries_step {k : String} (ht : t ≤ w.now) (h : Carries k t w)
    (he : Effect key w a w' os) (ha : a ≠ .deleted) : Carries k t w' := by
  obtain ⟨e, hk, hle⟩ := h
  obtain ⟨e', hk', rfl | hs⟩ := he.stays ha k e hk
  · exact ⟨e', hk', hle⟩
  · exact ⟨e', hk', hs ▸ ht⟩

/-- Nobody else can undo what is reached. -/
theorem stage_frame (hs : Stage key n t c w) (ht : t ≤ w.now) (hg : Clear n w a)
    (he : Effect key w a w' os) (ha : a.node ≠ some n) : Stage key n t c w' := by
  cases hs with
  | first h => exact .first (by rwa [he.frame n ha])
  | second h =>
    apply Stage.second
    rw [he.frame n ha]
    exact h.mono (he.there hg.not_deleted)
  | carried h => exact .carried (carries_step ht h he hg.not_deleted)

/-- The put of a node that finds a bucket is the entry of its key. -/
theorem accept_carries {p : Put K} {rest : List (Put K)} {b : Bucket K} (ht : t ≤ w.now)
    (hb : w.bucket = some b) : Carries (key n) t (w.accept key n p rest) :=
  ⟨_, (accept_entry hb).trans (if_pos rfl), ht⟩

/-- The first tick: it leaves an entry, or the node knows that it does not. -/
theorem first_step (h1 : (w.nodes n).phase = .putting → (w.nodes n).acked = false) (ht : t ≤ w.now)
    (hg : Clear n w a) (ha : a.node = some n) (h : w.step key a = some (w', os)) :
    Stage key n t (if a.answers n then 1 else 0) w' := by
  cases a with
  | passes | deleted | created => cases ha
  | ticks m =>
    cases ha
    simp only [Registry.step, Option.ite_none_right_eq_some, Option.some.injEq,
      Prod.mk.injEq] at h
    obtain ⟨-, rfl, -⟩ := h
    refine .first fun hp => ?_
    rw [setNode_self] at hp
    split at hp <;> cases hp
  | opened m ok =>
    cases ha
    obtain rfl : ok = true := hg rfl
    simp only [Registry.step, Option.ite_none_right_eq_some, if_true, Option.some.injEq,
      Prod.mk.injEq] at h
    obtain ⟨-, rfl, -⟩ := h
    refine .first fun hp => ?_
    cases (setNode_self (w := w) (n := n) ▸ hp)
  | samples m sample =>
    cases ha
    obtain ⟨sample, rfl⟩ := Option.isSome_iff_exists.mp (hg rfl)
    simp only [Registry.step, Option.ite_none_right_eq_some, Option.some.injEq,
      Prod.mk.injEq] at h
    obtain ⟨-, rfl, -⟩ := h
    exact .first fun _ => by rw [setNode_self]
  | lands m =>
    cases ha
    simp only [Registry.step] at h
    split at h
    · cases h
    · cases h
      cases hb : w.bucket with
      | none =>
        rw [accept_none hb]
        exact .first fun hp => by
          rw [setNode_self] at hp ⊢
          exact h1 hp
      | some b => exact .carried (accept_carries ht hb)
  | lost m => exact absurd (Option.some.inj ha) hg
  | answered m ok =>
    cases ha
    simp only [Registry.step, Option.ite_none_right_eq_some] at h
    obtain ⟨hp, h⟩ := h
    cases ok with
    | true =>
      simp only [if_true, Option.ite_none_right_eq_some] at h
      exact absurd h.1 (by rw [h1 hp]; exact Bool.false_ne_true)
    | false =>
      cases h
      obtain ⟨hf, -⟩ := hg rfl rfl
      have hc : (Event.answered (K := K) n false).answers n = true := by simp [Event.answers]
      rw [if_pos hc]
      apply Stage.second
      rw [setNode_self, hf]
      exact .waiting

/-- The second tick opens the bucket, and its put finds one. -/
theorem second_step (h2 : Reopens (w.nodes n) w.bucket) (ht : t ≤ w.now) (hg : Clear n w a)
    (ha : a.node = some n) (h : w.step key a = some (w', os)) :
    Stage key n t 1 w' ∧ a.answers n = false := by
  generalize hx : w.nodes n = x at h2
  generalize hb : w.bucket = b at h2
  cases a with
  | passes | deleted | created => cases ha
  | ticks m =>
    cases ha
    simp only [Registry.step, hx, Option.ite_none_right_eq_some, Option.some.injEq,
      Prod.mk.injEq] at h
    obtain ⟨hp, rfl, -⟩ := h
    cases h2 <;> cases hp
    exact ⟨.second (by rw [setNode_self]; exact .opening), rfl⟩
  | opened m ok =>
    cases ha
    obtain rfl : ok = true := hg rfl
    simp only [Registry.step, hx, Option.ite_none_right_eq_some, if_true, Option.some.injEq,
      Prod.mk.injEq] at h
    obtain ⟨hp, rfl, -⟩ := h
    cases h2 <;> cases hp
    exact ⟨.second (by
      show Reopens ((w.setNode n _).nodes n) _
      rw [setNode_self]
      exact .sampling), rfl⟩
  | samples m sample =>
    cases ha
    obtain ⟨sample, rfl⟩ := Option.isSome_iff_exists.mp (hg rfl)
    simp only [Registry.step, hx, Option.ite_none_right_eq_some, Option.some.injEq,
      Prod.mk.injEq] at h
    obtain ⟨hp, rfl, -⟩ := h
    cases h2 <;> cases hp
    exact ⟨.second (by
      rw [setNode_self, setNode_bucket, hb]
      exact .putting), rfl⟩
  | lands m =>
    cases ha
    simp only [Registry.step, hx] at h
    cases h2 with
    | waiting | opening | sampling => cases h
    | putting =>
      cases h
      exact ⟨.carried (accept_carries ht hb), rfl⟩
  | lost m => exact absurd (Option.some.inj ha) hg
  | answered m ok =>
    cases ha
    simp only [Registry.step, hx, Option.ite_none_right_eq_some] at h
    obtain ⟨hp, h⟩ := h
    cases h2 <;> cases hp
    cases ok with
    | true => simp at h
    | false =>
      have hf := (hg rfl rfl).1
      rw [hx] at hf
      cases hf

theorem stage_step (hs : Stage key n t c w) (ht : t ≤ w.now) (hg : Clear n w a)
    (h : w.step key a = some (w', os)) : Stage key n t (c + [a].countP (Event.answers n)) w' := by
  have he := step_effect h
  by_cases ha : a.node = some n
  · rw [List.countP_singleton]
    cases hs with
    | first h1 =>
      rw [Nat.zero_add]
      exact first_step h1 ht hg ha h
    | second h2 =>
      obtain ⟨hs', hans⟩ := second_step h2 ht hg ha h
      simpa [hans] using hs'
    | carried hc => exact .carried (carries_step ht hc he hg.not_deleted)
  · have hans : a.answers n = false := by
      cases a <;> simp_all [Event.answers, Event.node]
    simpa [hans] using stage_frame hs ht hg he ha

/-- The stage of a run that starts before a tick. -/
theorem stage_run (hw : (w₀.nodes n).phase = .waiting)
    (h : (registryMach key).Run (Clear n) w₀ as w tr) :
    Stage key n w₀.now (as.countP (Event.answers n)) w ∧ w₀.now ≤ w.now := by
  induction h with
  | nil =>
    refine ⟨.first fun hp => ?_, le_rfl⟩
    rw [hw] at hp
    cases hp
  | snoc _ hg hst ih =>
    rw [List.countP_append]
    exact ⟨stage_step ih.1 ih.2 hg hst, ih.2.trans (step_effect hst).time⟩

/-- **A node is in the bucket again after two whole ticks**, whatever state the registry was
in and whatever the others do meanwhile, and is listed until the record expires. -/
theorem relisted (hw : (w₀.nodes n).phase = .waiting)
    (h : (registryMach key).Run (Clear n) w₀ as w tr) (h2 : 2 ≤ as.countP (Event.answers n)) :
    ∃ e, w.entry (key n) = some e ∧ w₀.now ≤ e.stored ∧
      (w.now < e.stored + NODES_MAX_AGE_SECS → (key n, e) ∈ w.listing) := by
  obtain ⟨hs, -⟩ := stage_run hw h
  generalize as.countP (Event.answers n) = c at hs h2
  cases hs with
  | first => omega
  | second => omega
  | carried hc =>
    obtain ⟨e, he, hle⟩ := hc
    exact ⟨e, he, hle, fun hlt => mem_listing.mpr ⟨he, hlt⟩⟩

/-! ### A deletion -/

/-- The bucket is deleted while `forge` holds it. -/
def deletedEx : Registry Unit ℚ := { listedEx with bucket := none }

/-- The next put is refused; the tick after it opens the bucket again. -/
def recoverEx : List (Event Unit ℚ) :=
  [.ticks (), .samples () (some forgeEx), .lands (), .answered () false,
    .ticks (), .opened () true, .samples () (some forgeEx), .lands (), .answered () true]

/-- The state after some of these. -/
def recoveredEx (as : List (Event Unit ℚ)) : Registry Unit ℚ :=
  ((forgeMach.exec (Clear ()) deletedEx as).map Prod.fst).getD deletedEx

theorem recoverEx_run :
    forgeMach.Run (Clear ()) deletedEx recoverEx (recoveredEx recoverEx)
      [((), putEx), ((), putEx)] := Mach.run_of_exec rfl

theorem recoverEx_relisted :
    ∃ e, (recoveredEx recoverEx).entry "node.forge" = some e ∧ deletedEx.now ≤ e.stored ∧
      ((recoveredEx recoverEx).now < e.stored + NODES_MAX_AGE_SECS →
        ("node.forge", e) ∈ (recoveredEx recoverEx).listing) :=
  relisted rfl recoverEx_run (by decide +kernel)

/-- One tick is not enough. -/
example : forgeMach.Run (Clear ()) deletedEx (recoverEx.take 4) (recoveredEx (recoverEx.take 4))
    [((), putEx)] ∧ (recoveredEx (recoverEx.take 4)).listing = [] :=
  ⟨Mach.run_of_exec rfl, by decide +kernel⟩

end Recovery

end WmBusbridge.L6
