import Mathlib.Data.List.AList
import WmBusbridge.L0Core.Machine
import WmBusbridge.L6Status.Heartbeat

/-!
# The registry of a fleet (`src/heartbeat.rs:53-105`)

Any number of nodes run the heartbeat loop against one bucket. Between any two of their
steps the bucket may be deleted or created by somebody else; a put may arrive late or
never, also after the loop has given it up, and the answer to a call may be lost.

* `step_effect`: what a step can do, for all of them.
* `beat_run`: a tick that nothing interrupts is the tick of the heartbeat's model.
-/
namespace WmBusbridge.L6
open L0 L1

/-! ## The machine -/

/-- A record and when it was sampled. -/
structure Put (K : Type) where
  cap : NodeCapability
  stamped : K
  deriving DecidableEq

/-- A record that the server keeps and since when. -/
structure Entry (K : Type) where
  put : Put K
  stored : K
  deriving DecidableEq

/-- The history of a key is its last put.
mirrors src/heartbeat.rs:57-63 -/
abbrev Bucket (K : Type) := AList fun _ : String => Entry K

/-- Where a loop waits: for its next tick, for `ensure_bucket`, for nothing, for `put`.
mirrors src/heartbeat.rs:78-105 -/
inductive Phase where
  | waiting
  | opening
  | sampling
  | putting
  deriving DecidableEq, Repr

/-- `held`: `store` is `Some`. `flying` are the puts that the server has not seen yet, the
oldest first; `acked`: it has taken the one that the loop waits for. -/
structure Beater (K : Type) where
  held : Bool
  phase : Phase
  flying : List (Put K)
  acked : Bool
  deriving DecidableEq

structure Registry (N K : Type) where
  now : K
  nodes : N → Beater K
  bucket : Option (Bucket K)

/-- `ok = false`: the caller gets an error, whether or not the server did its part. -/
inductive Event (N K : Type) where
  | passes (d : K)
  | deleted
  | created
  | ticks (n : N)
  | opened (n : N) (ok : Bool)
  /-- `none`: the sample does not serialize -/
  | samples (n : N) (sample : Option NodeCapability)
  | lands (n : N)
  | lost (n : N)
  | answered (n : N) (ok : Bool)
  deriving DecidableEq

section Parts
variable {N K : Type}

def Beater.idle : Beater K := { held := false, phase := .waiting, flying := [], acked := false }

def Registry.setNode [DecidableEq N] (w : Registry N K) (n : N) (x : Beater K) : Registry N K :=
  { w with nodes := Function.update w.nodes n x }

def Registry.wait [Add K] (w : Registry N K) (d : K) : Registry N K := { w with now := w.now + d }

/-- Get the bucket or create it.
mirrors src/heartbeat.rs:53-66 -/
def Registry.ensureBucket (w : Registry N K) : Registry N K :=
  { w with bucket := some (w.bucket.getD ∅) }

def Registry.entry (w : Registry N K) (k : String) : Option (Entry K) :=
  w.bucket.bind fun b => b.lookup k

/-- Whose step it is. -/
def Event.node : Event N K → Option N
  | .passes _ | .deleted | .created => none
  | .ticks n | .opened n _ | .samples n _ | .lands n | .lost n | .answered n _ => some n

end Parts

section Machine
variable {N K : Type} [DecidableEq N] [Field K] [LinearOrder K] [FloorSemiring K]

/-- A put on a bucket that is not there is refused. -/
def Registry.accept (key : N → String) (w : Registry N K) (n : N) (p : Put K)
    (rest : List (Put K)) : Registry N K :=
  let x := w.nodes n
  match w.bucket with
  | none => w.setNode n { x with flying := rest }
  | some b =>
    { w.setNode n { x with flying := rest, acked := x.phase = .putting ∧ rest = [] } with
      bucket := some (b.insert (key n) { put := p, stored := w.now }) }

/-- The samples are what is observed.
mirrors src/heartbeat.rs:70-106 -/
def Registry.step (key : N → String) (w : Registry N K) :
    Event N K → Option (Registry N K × List (N × Put K))
  | .passes d => if 0 ≤ d then some (w.wait d, []) else none
  | .deleted => some ({ w with bucket := none }, [])
  | .created => some (w.ensureBucket, [])
  | .ticks n =>
    let x := w.nodes n
    if x.phase = .waiting then
      some (w.setNode n { x with phase := if x.held then .sampling else .opening }, [])
    else none
  | .opened n ok =>
    let x := w.nodes n
    if x.phase = .opening then
      if ok then
        some ((w.setNode n { x with held := true, phase := .sampling }).ensureBucket, [])
      else some (w.setNode n { x with phase := .waiting }, [])
    else none
  | .samples n sample =>
    let x := w.nodes n
    if x.phase = .sampling then
      match sample with
      | none => some (w.setNode n { x with phase := .waiting }, [])
      | some sample =>
        let p : Put K := { cap := sampleLocalCapacity sample 0 w.now, stamped := w.now }
        some (w.setNode n { x with phase := .putting, flying := x.flying ++ [p], acked := false },
          [(n, p)])
    else none
  | .lands n =>
    match (w.nodes n).flying with
    | [] => none
    | p :: rest => some (w.accept key n p rest, [])
  | .lost n =>
    match (w.nodes n).flying with
    | [] => none
    | _ :: rest => some (w.setNode n { w.nodes n with flying := rest }, [])
  | .answered n ok =>
    let x := w.nodes n
    if x.phase = .putting then
      if ok then if x.acked then some (w.setNode n { x with phase := .waiting }, []) else none
      else some (w.setNode n { x with held := false, phase := .waiting }, [])
    else none

/-- Before the first node starts there is no bucket. -/
def registryMach (key : N → String) : Mach (Registry N K) (Event N K) (N × Put K) where
  init w := (∀ n, w.nodes n = .idle) ∧ w.bucket = none
  step := Registry.step key

/-- What the bucket lists: a record expires `NODES_MAX_AGE_SECS` after its put. -/
def Registry.listing (w : Registry N K) : List (String × Entry K) :=
  match w.bucket with
  | none => []
  | some b =>
    (b.entries.filter fun e => w.now < e.2.stored + NODES_MAX_AGE_SECS).map fun e => (e.1, e.2)

end Machine

/-! ## What a step can do -/

section Effect
set_option linter.unusedSectionVars false
variable {N K : Type} [DecidableEq N] [Field K] [LinearOrder K] [IsStrictOrderedRing K]
  [FloorSemiring K] {key : N → String} {w w' : Registry N K} {n : N} {x : Beater K}
  {a : Event N K} {os : List (N × Put K)} {k : String} {e : Entry K}

@[simp] theorem setNode_bucket : (w.setNode n x).bucket = w.bucket := rfl
@[simp] theorem setNode_entry : (w.setNode n x).entry k = w.entry k := rfl

@[simp] theorem setNode_self : (w.setNode n x).nodes n = x := Function.update_self ..

theorem setNode_other {m : N} (h : m ≠ n) : (w.setNode n x).nodes m = w.nodes m :=
  Function.update_of_ne h ..

/-- A bucket that is created is empty. -/
@[simp] theorem ensureBucket_entry : w.ensureBucket.entry k = w.entry k := by
  unfold Registry.entry Registry.ensureBucket
  cases w.bucket with
  | none => exact AList.lookup_empty k
  | some b => rfl

/-- `kept`: an entry is an old one or a put that was on its way. `stays`: only a deletion
takes a key out of the bucket. -/
structure Effect (key : N → String) (w : Registry N K) (a : Event N K) (w' : Registry N K)
    (os : List (N × Put K)) : Prop where
  time : w.now ≤ w'.now
  said : ∀ o ∈ os, o.2.stamped = w.now ∧ o.2.cap.ts = asSecs w.now
  flying : ∀ n, ∀ p ∈ (w'.nodes n).flying, p ∈ (w.nodes n).flying ∨ (n, p) ∈ os
  kept : ∀ k e, w'.entry k = some e → w.entry k = some e ∨
    ∃ n, ∃ p ∈ (w.nodes n).flying, key n = k ∧ e = { put := p, stored := w.now }
  there : a ≠ .deleted → w.bucket.isSome = true → w'.bucket.isSome = true
  stays : a ≠ .deleted → ∀ k e, w.entry k = some e →
    ∃ e', w'.entry k = some e' ∧ (e' = e ∨ e'.stored = w.now)
  frame : ∀ n, a.node ≠ some n → w'.nodes n = w.nodes n

/-- A step that changes nothing but one node, and sends nothing. -/
theorem effect_setNode (ha : a.node = some n) (hf : ∀ p ∈ x.flying, p ∈ (w.nodes n).flying) :
    Effect key w a (w.setNode n x) [] where
  time := le_rfl
  said := by simp
  flying m p hp := by
    by_cases hm : m = n
    · subst hm
      rw [setNode_self] at hp
      exact .inl (hf p hp)
    · rw [setNode_other hm] at hp
      exact .inl hp
  kept k e h := .inl h
  there _ h := h
  stays _ k e h := ⟨e, h, .inl rfl⟩
  frame m hm := setNode_other fun he => hm (he ▸ ha)

theorem accept_none {p : Put K} {rest : List (Put K)} (hb : w.bucket = none) :
    w.accept key n p rest = w.setNode n { w.nodes n with flying := rest } := by
  rw [Registry.accept, hb]

/-- A put that is accepted is the entry of its key from then on. -/
theorem accept_some {p : Put K} {rest : List (Put K)} {b : Bucket K} (hb : w.bucket = some b) :
    w.accept key n p rest =
      { w.setNode n { w.nodes n with
                      flying := rest, acked := (w.nodes n).phase = .putting ∧ rest = [] } with
        bucket := some (b.insert (key n) { put := p, stored := w.now }) } := by
  rw [Registry.accept, hb]

theorem accept_entry {p : Put K} {rest : List (Put K)} {b : Bucket K} (hb : w.bucket = some b) :
    (w.accept key n p rest).entry k =
      if k = key n then some { put := p, stored := w.now } else w.entry k := by
  rw [accept_some hb]
  unfold Registry.entry
  rw [hb]
  split
  · rename_i hk
    subst hk
    exact AList.lookup_insert b
  · rename_i hk
    exact AList.lookup_insert_ne hk

theorem effect_accept {p : Put K} {rest : List (Put K)} (ha : a.node = some n)
    (hf : (w.nodes n).flying = p :: rest) : Effect key w a (w.accept key n p rest) [] := by
  have hrest : ∀ q ∈ rest, q ∈ (w.nodes n).flying := fun q hq => hf ▸ List.mem_cons_of_mem _ hq
  cases hb : w.bucket with
  | none =>
    rw [accept_none hb]
    exact effect_setNode ha hrest
  | some b =>
    have hnode : Effect key w a (w.setNode n { w.nodes n with
        flying := rest, acked := (w.nodes n).phase = .putting ∧ rest = [] }) [] :=
      effect_setNode ha hrest
    refine ⟨?_, by simp, ?_, fun k e h => ?_, fun _ _ => ?_, fun _ k e h => ?_, ?_⟩
    · rw [accept_some hb]
      exact hnode.time
    · rw [accept_some hb]
      exact hnode.flying
    · rw [accept_entry hb] at h
      split at h
      · rename_i hk
        exact .inr ⟨n, p, hf ▸ List.mem_cons_self, hk.symm, (Option.some.inj h).symm⟩
      · exact .inl h
    · rw [accept_some hb]
      rfl
    · rw [accept_entry hb]
      split
      · exact ⟨_, rfl, .inr rfl⟩
      · exact ⟨e, h, .inl rfl⟩
    · rw [accept_some hb]
      exact hnode.frame

/-- A step that at most creates the bucket. -/
theorem Effect.ensure (h : Effect key w a w' os) : Effect key w a w'.ensureBucket os where
  time := h.time
  said := h.said
  flying := h.flying
  kept k e he := by
    rw [ensureBucket_entry] at he
    exact h.kept k e he
  there _ _ := rfl
  stays ha k e he := by
    rw [ensureBucket_entry]
    exact h.stays ha k e he
  frame := h.frame

theorem step_effect (h : w.step key a = some (w', os)) : Effect key w a w' os := by
  cases a with
  | passes d =>
    simp only [Registry.step, Option.ite_none_right_eq_some, Option.some.injEq,
      Prod.mk.injEq] at h
    obtain ⟨hd, rfl, rfl⟩ := h
    exact ⟨le_add_of_nonneg_right hd, by simp, fun _ _ => .inl, fun _ _ => .inl, fun _ => id,
      fun _ _ e h => ⟨e, h, .inl rfl⟩, fun _ _ => rfl⟩
  | deleted =>
    cases h
    exact ⟨le_rfl, by simp, fun _ _ => .inl, fun _ _ he => (nomatch he),
      fun hne => absurd rfl hne, fun hne => absurd rfl hne, fun _ _ => rfl⟩
  | created =>
    cases h
    have hid : Effect key w .created w [] :=
      ⟨le_rfl, by simp, fun _ _ => .inl, fun _ _ => .inl, fun _ => id,
        fun _ _ e h => ⟨e, h, .inl rfl⟩, fun _ _ => rfl⟩
    exact hid.ensure
  | ticks n =>
    simp only [Registry.step, Option.ite_none_right_eq_some, Option.some.injEq,
      Prod.mk.injEq] at h
    obtain ⟨-, rfl, rfl⟩ := h
    exact effect_setNode rfl fun _ => id
  | opened n ok =>
    simp only [Registry.step, Option.ite_none_right_eq_some] at h
    obtain ⟨-, h⟩ := h
    cases ok with
    | false =>
      cases h
      exact effect_setNode rfl fun _ => id
    | true =>
      cases h
      have hnode : Effect key w (.opened n true)
          (w.setNode n { w.nodes n with held := true, phase := .sampling }) [] :=
        effect_setNode rfl fun _ => id
      exact hnode.ensure
  | samples n sample =>
    simp only [Registry.step, Option.ite_none_right_eq_some] at h
    obtain ⟨-, h⟩ := h
    cases sample with
    | none =>
      cases h
      exact effect_setNode rfl fun _ => id
    | some sample =>
      cases h
      refine ⟨le_rfl, by simp [sampleLocalCapacity], fun m p hp => ?_, fun _ _ => .inl, fun _ => id,
        fun _ _ e h => ⟨e, h, .inl rfl⟩, fun m hm => setNode_other fun he => hm (he ▸ rfl)⟩
      by_cases hm : m = n
      · subst hm
        rw [setNode_self] at hp
        rcases List.mem_append.mp hp with hp | hp
        · exact .inl hp
        · rw [List.mem_singleton.mp hp]
          exact .inr List.mem_cons_self
      · rw [setNode_other hm] at hp
        exact .inl hp
  | lands n =>
    simp only [Registry.step] at h
    split at h
    · cases h
    · rename_i p rest hf
      cases h
      exact effect_accept rfl hf
  | lost n =>
    simp only [Registry.step] at h
    split at h
    · cases h
    · rename_i p rest hf
      cases h
      exact effect_setNode rfl fun q hq => hf ▸ List.mem_cons_of_mem p hq
  | answered n ok =>
    simp only [Registry.step, Option.ite_none_right_eq_some] at h
    obtain ⟨-, h⟩ := h
    cases ok with
    | false =>
      cases h
      exact effect_setNode rfl fun _ => id
    | true =>
      simp only [Option.ite_none_right_eq_some, if_true] at h
      obtain ⟨-, h⟩ := h
      cases h
      exact effect_setNode rfl fun _ => id

end Effect

/-! ## The listing -/

section Listing
set_option linter.unusedSectionVars false
variable {N K : Type} [DecidableEq N] [Field K] [LinearOrder K] [FloorSemiring K]
  {w : Registry N K} {k : String} {e : Entry K}

theorem mem_listing : (k, e) ∈ w.listing ↔
    w.entry k = some e ∧ w.now < e.stored + NODES_MAX_AGE_SECS := by
  unfold Registry.listing Registry.entry
  cases w.bucket with
  | none => simp
  | some b =>
    have hlook : b.lookup k = some e ↔ (⟨k, e⟩ : Sigma fun _ : String => Entry K) ∈ b.entries :=
      AList.mem_lookup_iff
    simp only [Option.bind_some, hlook, List.mem_map, List.mem_filter, decide_eq_true_eq]
    constructor
    · rintro ⟨⟨k', e'⟩, h, heq⟩
      cases heq
      exact h
    · intro h
      exact ⟨⟨k, e⟩, h, rfl⟩

end Listing

/-! ## A tick that nothing interrupts -/

section Whole
set_option linter.unusedSectionVars false
variable {N K : Type} [DecidableEq N] [Field K] [LinearOrder K] [IsStrictOrderedRing K]
  [FloorSemiring K] {key : N → String} {w w' w'' : Registry N K} {n : N} {held acked : Bool}
  {flying : List (Put K)} {as : List (Event N K)} {a : Event N K} {tr os : List (N × Put K)}

variable (key) in
theorem run_step (h : (registryMach key).Run Mach.free w as w' tr)
    (hst : w'.step key a = some (w'', os)) :
    (registryMach key).Run Mach.free w (as ++ [a]) w'' (tr ++ os) := .snoc h trivial hst

theorem step_passes {d : K} (hd : 0 ≤ d) : w.step key (.passes d) = some (w.wait d, []) := if_pos hd

theorem step_ticks (hx : w.nodes n = ⟨held, .waiting, flying, acked⟩) :
    w.step key (.ticks n) = some (w.setNode n
      ⟨held, if held then .sampling else .opening, flying, acked⟩, []) := by
  simp [Registry.step, hx]

theorem step_opened (hx : w.nodes n = ⟨held, .opening, flying, acked⟩) :
    w.step key (.opened n true) =
      some ((w.setNode n ⟨true, .sampling, flying, acked⟩).ensureBucket, []) := by
  simp [Registry.step, hx]

theorem step_samples (sample : NodeCapability) (hx : w.nodes n = ⟨held, .sampling, flying, acked⟩) :
    w.step key (.samples n (some sample)) = some (w.setNode n ⟨held, .putting,
        flying ++ [⟨sampleLocalCapacity sample 0 w.now, w.now⟩], false⟩,
      [(n, ⟨sampleLocalCapacity sample 0 w.now, w.now⟩)]) := by
  simp [Registry.step, hx]

theorem step_unopened (hx : w.nodes n = ⟨held, .opening, flying, acked⟩) :
    w.step key (.opened n false) = some (w.setNode n ⟨held, .waiting, flying, acked⟩, []) := by
  simp [Registry.step, hx]

theorem step_lost {p : Put K} {phase : Phase} (hx : w.nodes n = ⟨held, phase, p :: flying, acked⟩) :
    w.step key (.lost n) = some (w.setNode n ⟨held, phase, flying, acked⟩, []) := by
  simp [Registry.step, hx]

theorem step_failed (hx : w.nodes n = ⟨held, .putting, flying, acked⟩) :
    w.step key (.answered n false) = some (w.setNode n ⟨false, .waiting, flying, acked⟩, []) := by
  simp [Registry.step, hx]

variable (key) in
/-- The put that the loop waits for arrives, and so does the answer. -/
theorem land_run {p : Put K} (hx : w.nodes n = ⟨held, .putting, [p], acked⟩)
    (hb : w.bucket.isSome = true) :
    ∃ as w' tr, (registryMach key).Run Mach.free w as w' tr ∧
      w'.nodes n = ⟨held, .waiting, [], true⟩ ∧
      w'.entry (key n) = some { put := p, stored := w.now } := by
  obtain ⟨b, hb⟩ := Option.isSome_iff_exists.mp hb
  have hland : w.step key (.lands n) = some (w.accept key n p [], []) := by
    simp [Registry.step, hx]
  have hx' : (w.accept key n p []).nodes n = ⟨held, .putting, [], true⟩ := by
    rw [accept_some hb]
    show (w.setNode n _).nodes n = _
    rw [setNode_self, hx]
    rfl
  have hans : (w.accept key n p []).step key (.answered n true) =
      some ((w.accept key n p []).setNode n ⟨held, .waiting, [], true⟩, []) := by
    simp [Registry.step, hx']
  refine ⟨_, _, _, run_step key (run_step key .nil hland) hans, setNode_self, ?_⟩
  rw [setNode_entry, accept_entry hb, if_pos rfl]

variable (key) in
/-- Up to where the loop samples. -/
theorem open_run (t : Tick K) (hx : w.nodes n = ⟨held, .waiting, [], acked⟩)
    (h0 : 0 ≤ t.bucketTime) :
    ∃ as w' tr, (registryMach key).Run Mach.free w as w' tr ∧
      w'.nodes n = ⟨true, .sampling, [], acked⟩ ∧
      w'.now = (if held then w.now else w.now + t.bucketTime) ∧
      (held = false ∨ w.bucket.isSome = true → w'.bucket.isSome = true) := by
  have hticks := run_step key .nil (step_ticks hx)
  cases held with
  | true =>
    refine ⟨_, _, _, hticks, setNode_self, rfl, ?_⟩
    rintro (hf | hb)
    · cases hf
    · exact hb
  | false =>
    -- opening takes its time, and ends with a bucket
    have hpass := run_step key hticks (step_passes h0)
    have hopen := run_step key hpass (step_opened (setNode_self ..))
    exact ⟨_, _, _, hopen, setNode_self, rfl, fun _ => rfl⟩

variable (key) in
/-- A put that arrives `latency` later and is answered. -/
theorem put_run (sample : NodeCapability) {latency : K}
    (hx : w.nodes n = ⟨true, .sampling, [], acked⟩) (hb : w.bucket.isSome = true)
    (h0 : 0 ≤ latency) :
    ∃ as w' tr, (registryMach key).Run Mach.free w as w' tr ∧
      w'.nodes n = ⟨true, .waiting, [], true⟩ ∧
      w'.entry (key n) = some
        { put := { cap := sampleLocalCapacity sample 0 w.now, stamped := w.now }
          stored := w.now + latency } := by
  have hsample := run_step key .nil (step_samples sample hx)
  have hpass := run_step key hsample (step_passes h0)
  have hx' : ((w.setNode n ⟨true, .putting,
      [] ++ [⟨sampleLocalCapacity sample 0 w.now, w.now⟩], false⟩).wait latency).nodes n = _ :=
    setNode_self
  obtain ⟨as, w', tr, hland, hx', he⟩ := land_run key hx' hb
  exact ⟨_, w', _, hpass.append hland, hx', he⟩

variable (key) in
/-- **The machine does what the heartbeat's model says**: a tick that nothing interrupts,
on a bucket that is there unless the loop opens it, ends like `beat`. -/
theorem beat_run (t : Tick K) (hx : w.nodes n = ⟨held, .waiting, [], acked⟩)
    (hb : held = false ∨ w.bucket.isSome = true) (h0 : 0 ≤ t.bucketTime ∧ 0 ≤ t.latency) :
    ∃ as w' tr, (registryMach key).Run Mach.free w as w' tr ∧
      (w'.nodes n).phase = .waiting ∧ (w'.nodes n).held = (beat w.now held t).1 ∧
      ∀ rec, (beat w.now held t).2 = some rec → ∃ e, w'.entry (key n) = some e ∧
        e.put.cap = rec.cap ∧ e.stored = rec.visible := by
  by_cases ho : (held || t.bucketOk) = true
  · obtain ⟨as, w₁, tr, hopen, hx₁, hnow, hb₁⟩ := open_run key t hx h0.1
    rw [beat, ho, ← hnow]
    simp only [Bool.not_true, Bool.false_eq_true, if_false]
    by_cases hs : t.serialized = true
    · by_cases hp : t.putOk = true
      · obtain ⟨as', w₂, tr', hput, hx₂, he⟩ := put_run key t.sample hx₁ (hb₁ hb) h0.2
        refine ⟨_, w₂, _, hopen.append hput, by rw [hx₂], by simp [hx₂, hs, hp], ?_⟩
        simp only [hs, hp, Bool.not_true, Bool.false_eq_true, if_false, if_true]
        rintro rec ⟨⟩
        exact ⟨_, he, rfl, rfl⟩
      · -- the put is lost, and the loop lets go of the store
        have hsample := run_step key hopen (step_samples t.sample hx₁)
        have hlost := run_step key hsample (step_lost (setNode_self ..))
        have hfail := run_step key hlost (step_failed (setNode_self ..))
        exact ⟨_, _, _, hfail, by simp, by simp [hs, hp], by simp [hs, hp]⟩
    · have hfail : w₁.step key (.samples n none) =
          some (w₁.setNode n ⟨true, .waiting, [], acked⟩, []) := by simp [Registry.step, hx₁]
      exact ⟨_, _, _, run_step key hopen hfail, by simp, by simp [hs], by simp [hs]⟩
  · obtain ⟨rfl, hok⟩ : held = false ∧ t.bucketOk = false := by simpa using ho
    have hticks := run_step key .nil (step_ticks hx)
    have hfail := run_step key hticks (step_unopened (setNode_self ..))
    exact ⟨_, _, _, hfail, by simp, by simp [beat, hok], by simp [beat, hok]⟩

end Whole

/-! ### One node -/

def forgeEx : NodeCapability :=
  { cores := 8, ramGb := 32, gpu := false, vramGb := 0, load1 := .fin 0, queueDepth := 0, ts := 0
    noBuild := false, role := some .cloudWorker }

def putEx : Put ℚ := { cap := sampleLocalCapacity forgeEx 0 (0 : ℚ), stamped := 0 }

def forgeMach : Mach (Registry Unit ℚ) (Event Unit ℚ) (Unit × Put ℚ) :=
  registryMach fun _ => nodeKey "forge"

def startedEx : Registry Unit ℚ := { now := 0, nodes := fun _ => .idle, bucket := none }

/-- The first tick creates the bucket. -/
def firstTickEx : List (Event Unit ℚ) :=
  [.ticks (), .opened () true, .samples () (some forgeEx), .lands (), .answered () true]

def listedEx : Registry Unit ℚ :=
  ((forgeMach.exec Mach.free startedEx firstTickEx).map Prod.fst).getD startedEx

end WmBusbridge.L6
