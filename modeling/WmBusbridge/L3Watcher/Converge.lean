import WmBusbridge.L0Core.Fair
import WmBusbridge.L3Watcher.Announce
import WmBusbridge.L3Watcher.Conserve
import WmBusbridge.L3Watcher.Hysteresis

/-!
# The watcher converges

An execution goes on for ever. The watcher moves again and again, and callers of
`maybe_buffer`, the sink and the local bus do what they like. From some time on
every probe gets the same answer.

* `outage_ends`: if that is success, from some time on the hub is UP with nothing
  buffered or in flight, every accepted event was popped by a cap or handed to the
  sink in order, and every flip has been announced.
* `outage_noticed`: if that is failure, from some time on the hub is DOWN and every
  call of `maybe_buffer` takes its event.
-/
namespace WmBusbridge.L3
open L0 L1

/-- The watcher takes the step. -/
def Moves : HubAct → Prop
  | .watch _ => True
  | .buffer _ => False

/-- From time `N` on every probe is answered `ok`. -/
def Answers {cfg : HubWatcherConfig} (E : (hubMach cfg).Exec) (ok : Bool) (N : ℕ) : Prop :=
  ∀ n, N ≤ n → ∀ b, E.act n = .watch (.probe b) → b = ok

section Exec
variable {cfg : HubWatcherConfig} {E : (hubMach cfg).Exec}

theorem exec_step (E : (hubMach cfg).Exec) (n : ℕ) :
    HubStep cfg (E.st n) (E.act n) (E.st (n + 1)) (E.obs n) := hubStep_cases (E.step n)

theorem exec_conserve (E : (hubMach cfg).Exec) (n : ℕ) : ConserveInv cfg (E.st n) (E.shown n) :=
  (conserve_inductive cfg).reaches (E.reaches n)

theorem exec_coherent (E : (hubMach cfg).Exec) (n : ℕ) : Coherent (E.st n) :=
  (exec_conserve E n).coherent

/-! ## Back up -/

/-- UP, between two probes, with nothing buffered or in flight. -/
structure Rejoined (h : Hub) : Prop where
  state : h.live.state = .up
  buffer : h.live.buffer = []
  pc : h.w.pc = .sleep ∨ h.w.pc = .probed true

/-- A counter short of its threshold counts one more. -/
theorem below_threshold {u c : UInt32} (h : ¬ u ≤ satSucc c) :
    (satSucc c).toNat = c.toNat + 1 ∧ c.toNat + 1 < u.toNat := by
  have hu := u.toNat_lt
  rw [UInt32.le_iff_toNat_le, satSucc_toNat] at h
  rw [satSucc_toNat]
  omega

/-- What is left to do until the hub has rejoined, successes only. While DOWN an
iteration short of the threshold takes two steps; a flush takes one for each event
and one for the announcement, and how many events there will be shows only at the
flip. -/
def toUp (cfg : HubWatcherConfig) (h : Hub) : ℕ ×ₗ ℕ :=
  let left := max 1 (cfg.upThreshold.toNat - h.w.consecutiveSuccesses.toNat)
  match h.w.pc with
  | .probed false => toLex (1, 2 * max 1 cfg.upThreshold.toNat + 4)
  | .goDown => toLex (1, 2 * left + 3)
  | .emitDown => toLex (1, 2 * left + 2)
  | .sleep => toLex (1, 2 * left + 1)
  | .probed true => toLex (1, 2 * left)
  | .goUp _ => toLex (1, 1)
  | .flush evs _ => toLex (0, evs.length + 1)

theorem lex_lt_snd {a b c : ℕ} (h : b < c) : toLex (a, b) < toLex (a, c) :=
  Prod.Lex.toLex_lt_toLex.mpr (.inr ⟨rfl, h⟩)

theorem lex_lt_fst {a b c d : ℕ} (h : a < b) : toLex (a, c) < toLex (b, d) :=
  Prod.Lex.toLex_lt_toLex.mpr (.inl h)

/-- A step of the watcher brings the hub nearer. -/
theorem toUp_moves {h h' : Hub} {a : WAct} {os : List Obs} (hc : Coherent h)
    (hst : HubStep cfg h (.watch a) h' os) (hok : ∀ b, a = .probe b → b = true)
    (hn : ¬ Rejoined h) : Rejoined h' ∨ toUp cfg h' < toUp cfg h := by
  have hpc' := hc.pc
  cases hst with
  | probe ok hpc =>
    obtain rfl := hok ok rfl
    right
    simp only [toUp, hpc]
    exact lex_lt_snd (by omega)
  | okStay now now' hpc hk =>
    -- UP with a success in hand has rejoined already
    have hs : h.live.state = .down := by
      by_contra hs
      have hup := ne_down.mp hs
      exact hn ⟨hup, hc.up_empty hup, .inr hpc⟩
    have hb := below_threshold fun ht => hk ⟨hs, ht⟩
    right
    simp only [toUp, hpc, hb.1]
    exact lex_lt_snd (by omega)
  | okUp now now' hpc hs ht =>
    right
    simp only [toUp, hpc]
    exact lex_lt_snd (by omega)
  | failStay now now' hpc hk =>
    right
    simp only [toUp, hpc, UInt32.toNat_zero]
    exact lex_lt_snd (by omega)
  | failDown now now' hpc hs ht =>
    right
    simp only [toUp, hpc, UInt32.toNat_zero]
    exact lex_lt_snd (by omega)
  | flipUp dur hpc =>
    right
    simp only [toUp, hpc]
    exact lex_lt_fst Nat.zero_lt_one
  | flipDown hpc =>
    right
    simp only [toUp, hpc]
    exact lex_lt_snd (by omega)
  | sink e evs dur ok hpc =>
    right
    simp only [toUp, hpc]
    exact lex_lt_snd (by simp)
  | emitUp dur env hpc =>
    rw [hpc] at hpc'
    exact .inl ⟨hpc', hc.up_empty hpc', .inl rfl⟩
  | emitDown env hpc =>
    right
    simp only [toUp, hpc]
    exact lex_lt_snd (by omega)

/-- Successes keep the hub there. -/
theorem Rejoined.stays {h h' : Hub} {a : HubAct} {os : List Obs} (hI : Rejoined h)
    (hst : HubStep cfg h a h' os) (hok : ∀ b, a = .watch (.probe b) → b = true) :
    Rejoined h' := by
  obtain ⟨hs', hb, hpos⟩ := hI
  cases hst with
  | refused e hs => exact ⟨hs', hb, hpos⟩
  | accepted e popped kept hs he => rw [hs'] at hs; cases hs
  | probe ok hpc =>
    obtain rfl := hok ok rfl
    exact ⟨hs', hb, .inr rfl⟩
  | okStay now now' hpc hk => exact ⟨hs', hb, .inl rfl⟩
  | okUp now now' hpc hs ht => rw [hs'] at hs; cases hs
  | failStay now now' hpc hk => rw [hpc] at hpos; simp at hpos
  | failDown now now' hpc hs ht => rw [hpc] at hpos; simp at hpos
  | flipUp dur hpc => rw [hpc] at hpos; simp at hpos
  | flipDown hpc => rw [hpc] at hpos; simp at hpos
  | sink e evs dur ok hpc => rw [hpc] at hpos; simp at hpos
  | emitUp dur env hpc => rw [hpc] at hpos; simp at hpos
  | emitDown env hpc => rw [hpc] at hpos; simp at hpos

/-- A call of `maybe_buffer` does not hold the watcher up. -/
theorem buffer_watcher {h h' : Hub} {e : BufferedEvent} {os : List Obs}
    (hst : HubStep cfg h (.buffer e) h' os) : h'.w = h.w := by
  cases hst <;> rfl

theorem rejoins (hfair : E.Recurs Moves) {N : ℕ} (hok : Answers E true N) :
    ∃ M, N ≤ M ∧ Rejoined (E.st M) := by
  refine Mach.Exec.eventually (toUp cfg) hfair ?_ ?_ N le_rfl
  · intro n hn hmove hshort
    have hst := exec_step E n
    cases ha : E.act n with
    | buffer e => rw [ha] at hmove; cases hmove
    | watch a =>
      rw [ha] at hst
      exact toUp_moves (exec_coherent E n) hst (fun b hb => hok n hn b (by rw [ha, hb])) hshort
  · intro n hn hmove hshort
    have hst := exec_step E n
    cases ha : E.act n with
    | buffer e =>
      rw [ha] at hst
      right
      simp only [toUp, buffer_watcher hst, le_refl]
    | watch a => rw [ha] at hmove; exact absurd trivial hmove

/-- UP for good: all that was accepted has been popped or handed over, in order
within each outage, and no flip is still to be announced. -/
structure OutageOver (h : Hub) (tr : List Obs) : Prop where
  rejoined : Rejoined h
  handed : ∀ k ∈ outages tr, k.accepted = k.dropped ++ k.handed.map Prod.fst
  accepted_in : acceptedOf tr = total Outage.accepted (outages tr)
  announced : (noticesOf tr).map Prod.fst = (flipsOf tr).map specTopic

theorem Rejoined.over {h : Hub} {tr : List Obs} (hr : Rejoined h) (hI : ConserveInv cfg h tr)
    (ha : Announces h tr) : OutageOver h tr := by
  have hdr : drained h.w.pc = [] := by rcases hr.pc with hpc | hpc <;> rw [hpc] <;> rfl
  have hpend : h.w.pc.pending = [] := by rcases hr.pc with hpc | hpc <;> rw [hpc] <;> rfl
  refine ⟨hr, ?_, hI.accepted_in, by rw [ha.announced, hpend, List.map_nil, List.append_nil]⟩
  have hh := hI.head
  intro k hk
  cases hks : outages tr with
  | nil => rw [hks] at hk; cases hk
  | cons k' ks =>
    rw [hks] at hh hk
    obtain ⟨-, -, hacc, hpast⟩ := hh
    rcases List.mem_cons.mp hk with rfl | hk
    · rw [hacc, hdr, hr.buffer, List.append_nil, List.append_nil]
    · exact hpast k hk

/-- **An outage ends.** If the watcher keeps moving and every probe from some time
on succeeds, then from some time on the hub is UP with nothing held back, and
`maybe_buffer` takes nothing. -/
theorem outage_ends (E : (hubMach cfg).Exec) (hfair : E.Recurs Moves) (N : ℕ)
    (hok : Answers E true N) : ∃ M, N ≤ M ∧ ∀ m, M ≤ m → OutageOver (E.st m) (E.shown m) ∧
      ∀ e, E.act m = .buffer e → E.obs m = [.refused e] := by
  obtain ⟨M, hNM, hM⟩ := rejoins hfair hok
  have hstay : ∀ m, M ≤ m → Rejoined (E.st m) :=
    Mach.Exec.always hM fun n hn hr => hr.stays (exec_step E n) (hok n (hNM.trans hn))
  refine ⟨M, hNM, fun m hm => ⟨?_, fun e he => ?_⟩⟩
  · exact (hstay m hm).over (exec_conserve E m) (announces_reaches cfg (E.reaches m))
  · have hst := exec_step E m
    rw [he] at hst
    generalize E.obs m = os at hst
    generalize E.st (m + 1) = next at hst
    cases hst with
    | refused e hs => rfl
    | accepted e popped kept hs hev =>
      rw [(hstay m hm).state] at hs
      cases hs

/-! ## Down -/

/-- DOWN, with no success in hand. -/
structure CutOff (h : Hub) : Prop where
  state : h.live.state = .down
  failing : h.w.pc ≠ .probed true
  staying : ∀ dur, h.w.pc ≠ .goUp dur

/-- What is left to do until the hub is cut off, failures only. A success still in
hand comes first, then the flip it may lead to; what is flushed after that is
known only at the flip. -/
def toDown (cfg : HubWatcherConfig) (h : Hub) : ℕ ×ₗ ℕ :=
  let left := max 1 (cfg.downThreshold.toNat - h.w.consecutiveFailures.toNat)
  match h.w.pc with
  | .probed true => toLex (2, 0)
  | .goUp _ => toLex (1, 0)
  | .flush evs _ => toLex (0, evs.length + 2 * left + 2)
  | .sleep => toLex (0, 2 * left + 1)
  | .probed false => toLex (0, 2 * left)
  | .goDown => toLex (0, 1)
  | .emitDown => toLex (0, 0)

theorem toDown_moves {h h' : Hub} {a : WAct} {os : List Obs} (hc : Coherent h)
    (hst : HubStep cfg h (.watch a) h' os) (hok : ∀ b, a = .probe b → b = false)
    (hn : ¬ CutOff h) : CutOff h' ∨ toDown cfg h' < toDown cfg h := by
  have hpc' := hc.pc
  cases hst with
  | probe ok hpc =>
    obtain rfl := hok ok rfl
    right
    simp only [toDown, hpc]
    exact lex_lt_snd (by omega)
  | okStay now now' hpc hk =>
    right
    simp only [toDown, hpc]
    exact lex_lt_fst Nat.zero_lt_two
  | okUp now now' hpc hs ht =>
    right
    simp only [toDown, hpc]
    exact lex_lt_fst Nat.one_lt_two
  | failStay now now' hpc hk =>
    -- DOWN with a failure in hand is cut off already
    have hs : h.live.state = .up := by
      refine ne_down.mp fun hs => hn ⟨hs, ?_, fun dur => ?_⟩ <;> rw [hpc] <;> simp
    have hb := below_threshold fun ht => hk ⟨hs, ht⟩
    right
    simp only [toDown, hpc, hb.1]
    exact lex_lt_snd (by omega)
  | failDown now now' hpc hs ht =>
    right
    simp only [toDown, hpc]
    exact lex_lt_snd (by omega)
  | flipUp dur hpc =>
    right
    simp only [toDown, hpc]
    exact lex_lt_fst Nat.zero_lt_one
  | flipDown hpc => exact .inl ⟨rfl, by simp, by simp⟩
  | sink e evs dur ok hpc =>
    right
    simp only [toDown, hpc, List.length_cons]
    exact lex_lt_snd (by omega)
  | emitUp dur env hpc =>
    right
    simp only [toDown, hpc]
    exact lex_lt_snd (by omega)
  | emitDown env hpc =>
    rw [hpc] at hpc'
    exact absurd ⟨hpc', by simp [hpc], by simp [hpc]⟩ hn

/-- Failures keep the hub there. -/
theorem CutOff.stays {h h' : Hub} {a : HubAct} {os : List Obs} (hI : CutOff h)
    (hst : HubStep cfg h a h' os) (hok : ∀ b, a = .watch (.probe b) → b = false) :
    CutOff h' := by
  obtain ⟨hs', hf, hg⟩ := hI
  cases hst with
  | refused e hs => rw [hs'] at hs; cases hs
  | accepted e popped kept hs he => exact ⟨hs', hf, hg⟩
  | probe ok hpc =>
    obtain rfl := hok ok rfl
    exact ⟨hs', by simp, by simp⟩
  | okStay now now' hpc hk => exact absurd hpc hf
  | okUp now now' hpc hs ht => exact absurd hpc hf
  | failStay now now' hpc hk => exact ⟨hs', by simp, by simp⟩
  | failDown now now' hpc hs ht => rw [hs'] at hs; cases hs
  | flipUp dur hpc => exact absurd hpc (hg dur)
  | flipDown hpc => exact ⟨rfl, by simp, by simp⟩
  | sink e evs dur ok hpc => exact ⟨hs', by simp, by simp⟩
  | emitUp dur env hpc => exact ⟨hs', by simp, by simp⟩
  | emitDown env hpc => exact ⟨hs', by simp, by simp⟩

theorem cutsOff (hfair : E.Recurs Moves) {N : ℕ} (hfail : Answers E false N) :
    ∃ M, N ≤ M ∧ CutOff (E.st M) := by
  refine Mach.Exec.eventually (toDown cfg) hfair ?_ ?_ N le_rfl
  · intro n hn hmove hshort
    have hst := exec_step E n
    cases ha : E.act n with
    | buffer e => rw [ha] at hmove; cases hmove
    | watch a =>
      rw [ha] at hst
      exact toDown_moves (exec_coherent E n) hst (fun b hb => hfail n hn b (by rw [ha, hb])) hshort
  · intro n hn hmove hshort
    have hst := exec_step E n
    cases ha : E.act n with
    | buffer e =>
      rw [ha] at hst
      right
      simp only [toDown, buffer_watcher hst, le_refl]
    | watch a => rw [ha] at hmove; exact absurd trivial hmove

/-- **An outage is noticed.** If the watcher keeps moving and every probe from some
time on fails, then from some time on the hub is DOWN and `maybe_buffer` takes every
event it is given, after at most dropping older ones. -/
theorem outage_noticed (E : (hubMach cfg).Exec) (hfair : E.Recurs Moves) (N : ℕ)
    (hfail : Answers E false N) : ∃ M, N ≤ M ∧ ∀ m, M ≤ m → CutOff (E.st m) ∧
      ∀ e, E.act m = .buffer e → ∃ popped : List BufferedEvent,
        popped <+: (E.st m).live.buffer ∧
        E.obs m = popped.map .overflowed ++ [.accepted e] := by
  obtain ⟨M, hNM, hM⟩ := cutsOff hfair hfail
  have hstay : ∀ m, M ≤ m → CutOff (E.st m) :=
    Mach.Exec.always hM fun n hn hr => hr.stays (exec_step E n) (hfail n (hNM.trans hn))
  refine ⟨M, hNM, fun m hm => ⟨hstay m hm, fun e he => ?_⟩⟩
  have hst := exec_step E m
  rw [he] at hst
  generalize E.obs m = os at hst ⊢
  generalize E.st (m + 1) = next at hst
  cases hst with
  | refused e hs =>
    rw [(hstay m hm).state] at hs
    cases hs
  | accepted e popped kept hs hev =>
    refine ⟨popped, ?_, rfl⟩
    have happ := evict_append cfg (E.st m).live.buffer e
    rw [hev] at happ
    exact ⟨kept, happ⟩

end Exec

/-! ## Two executions -/

/-- A step the watcher can always take, if the probes answer `ok`. -/
def nextWatch (ok : Bool) (h : Hub) : WAct :=
  match h.w.pc with
  | .sleep => .probe ok
  | .probed _ => .look 0 0
  | .goUp _ | .goDown => .flip
  | .flush (_ :: _) _ => .sink true
  | .flush [] _ | .emitDown => .emit ⟨true, true, true⟩

theorem nextWatch_enabled (cfg : HubWatcherConfig) (ok : Bool) (h : Hub) :
    (watchStep cfg h (nextWatch ok h)).isSome = true := by
  cases hpc : h.w.pc with
  | probed b =>
    simp only [nextWatch, hpc, watchStep]
    cases b <;> dsimp only <;> split <;> rfl
  | flush evs dur => cases evs <;> simp [nextWatch, hpc, watchStep]
  | _ => simp [nextWatch, hpc, watchStep]

/-- The probes answer `!ok` for ten steps and `ok` from then on; every third step
is a call of `maybe_buffer`. -/
def switchEx (ok : Bool) : (hubMach cfgEx).Sched where
  start := Hub.start true 0
  init := ⟨true, 0, rfl⟩
  pick n h :=
    if n % 3 = 2 then .buffer (evEx 1)
    else .watch (nextWatch (if n < 10 then !ok else ok) h)
  enabled n h := by
    show (hubStep cfgEx h _).isSome = true
    split
    · rfl
    · exact nextWatch_enabled cfgEx _ h

theorem switchEx_moves (ok : Bool) : (switchEx ok).exec.Recurs Moves := by
  intro n
  refine ⟨3 * n, by omega, ?_⟩
  have hne : ¬ 3 * n % 3 = 2 := by omega
  simp only [Mach.Sched.exec, switchEx, if_neg hne]
  trivial

theorem nextWatch_probe {ok b : Bool} {h : Hub} (hp : nextWatch ok h = .probe b) : b = ok := by
  unfold nextWatch at hp
  split at hp <;> cases hp
  rfl

theorem switchEx_answers (ok : Bool) : Answers (switchEx ok).exec ok 10 := by
  intro n hn b hb
  simp only [Mach.Sched.exec, switchEx, if_neg (not_lt.mpr hn)] at hb
  split at hb
  · cases hb
  · exact nextWatch_probe (HubAct.watch.inj hb)

theorem switchEx_ends : ∃ M, 10 ≤ M ∧ ∀ m, M ≤ m →
    OutageOver ((switchEx true).exec.st m) ((switchEx true).exec.shown m) ∧
      ∀ e, (switchEx true).exec.act m = .buffer e → (switchEx true).exec.obs m = [.refused e] :=
  outage_ends (switchEx true).exec (switchEx_moves true) 10 (switchEx_answers true)

theorem switchEx_noticed : ∃ M, 10 ≤ M ∧ ∀ m, M ≤ m → CutOff ((switchEx false).exec.st m) ∧
    ∀ e, (switchEx false).exec.act m = .buffer e → ∃ popped : List BufferedEvent,
      popped <+: ((switchEx false).exec.st m).live.buffer ∧
      (switchEx false).exec.obs m = popped.map .overflowed ++ [.accepted e] :=
  outage_noticed (switchEx false).exec (switchEx_moves false) 10 (switchEx_answers false)

end WmBusbridge.L3
