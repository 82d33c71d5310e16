import Mathlib.Data.List.Forall2
import Mathlib.Data.List.GetD
import WmBusbridge.L3Watcher.Announce
import WmBusbridge.L5Fleet.Fleet

/-!
# One node of a fleet

`NodeInv` is what holds of a node whatever the others do: each bus entry is
given to the bridge at most once, what the outbound half has comes from entries
it was given, and every injected entry carries the marker.

* `handed_once`: a node hands each of its bus entries to NATS at most once.
* `handed_left`: what it hands over is what `a2nPayload` makes of such an entry.
-/
namespace WmBusbridge.L5
open L0 L1 L1.Str L2 L3 L4

variable {ι : Type}

/-! ## One node -/

/-- What a node handed to NATS, in order, with the bus entries it came from. -/
def handedBy (tr : List (NodeObs ι)) : List (Nat × BufferedEvent) :=
  tr.filterMap fun
    | .handed k e _ => some (k, e)
    | _ => none

@[simp] theorem handedBy_append (a b : List (NodeObs ι)) :
    handedBy (a ++ b) = handedBy a ++ handedBy b := List.filterMap_append

/-- The entry `e` came from. -/
def withIdx (taken : List Nat) (e : BufferedEvent) : Nat × BufferedEvent := (taken.getD e.seq 0, e)

theorem handedBy_shown (taken : List Nat) (os : List OutObs) :
    handedBy (os.flatMap (shown taken : OutObs → List (NodeObs ι))) =
      (handedOf os).map (withIdx taken) := by
  induction os with
  | nil => rfl
  | cons o os ih =>
    rw [List.flatMap_cons, handedBy_append, ih]
    cases ho : o.handed with
    | none => simp [shown, handedBy, handedOf, ho]
    | some p => simp [shown, handedBy, handedOf, withIdx, ho]

/-- Bus entry `k` is `e`. -/
def ReadFrom (bus : List (BusEvent ι)) (k : Nat) (td : String × Value) : Prop :=
  ∃ ev, bus[k]? = some ev ∧ td = (ev.topic, ev.data)

theorem ReadFrom.mono {bus more : List (BusEvent ι)} {k : Nat} {td : String × Value}
    (h : ReadFrom bus k td) : ReadFrom (bus ++ more) k td := by
  obtain ⟨ev, he, htd⟩ := h
  have hlt : k < bus.length := (List.getElem?_eq_some_iff.mp he).1
  exact ⟨ev, by rw [List.getElem?_append_left hlt]; exact he, htd⟩

/-- What holds of a node by itself. -/
structure NodeInv (C : FleetConfig ι) (i : ι) (nd : Node ι) (tr : List (NodeObs ι)) : Prop where
  out : OutInv (C.out i) nd.out (outOf tr)
  fed_once : (nd.taken ++ nd.feed).Nodup
  fed_wm : ∀ k ∈ nd.taken ++ nd.feed, ∃ ev, nd.bus[k]? = some ev ∧ startsWith ev.topic "wm." = true
  reads : List.Forall₂ (ReadFrom nd.bus) nd.taken nd.out.reads
  injected_marked : ∀ ev ∈ nd.bus, ∀ o, ev.src = .bridge o → BridgedPayload.isBridged ev.data = true
  pc_marked : ∀ t w o, nd.n = .inject t w o → BridgedPayload.isBridged w = true
  handed : handedBy tr = (handedOf (outOf tr)).map (withIdx nd.taken)

theorem nodeInv_start (C : FleetConfig ι) (i : ι) (connected : Bool) (now : UInt64) :
    NodeInv C i (.start connected now) [] where
  out := ⟨List.nodup_nil, fun _ he => (nomatch he)⟩
  fed_once := List.nodup_nil
  fed_wm _ hk := (nomatch hk)
  reads := .nil
  injected_marked _ he := (nomatch he)
  pc_marked _ _ _ h := (nomatch h)
  handed := rfl

section Steps
variable {C : FleetConfig ι} {i : ι} {nd : Node ι} {tr : List (NodeObs ι)}

theorem NodeInv.taken_length (hI : NodeInv C i nd tr) : nd.taken.length = nd.out.reads.length :=
  hI.reads.length_eq

theorem NodeInv.fed_lt (hI : NodeInv C i nd tr) {k : Nat} (hk : k ∈ nd.taken ++ nd.feed) :
    k < nd.bus.length := by
  obtain ⟨ev, hev, -⟩ := hI.fed_wm k hk
  exact (List.getElem?_eq_some_iff.mp hev).1

/-- What was handed over has its place in `taken`. -/
theorem NodeInv.handed_lt (hI : NodeInv C i nd tr) {e : BufferedEvent}
    (he : e ∈ handedOf (outOf tr)) : e.seq < nd.taken.length := by
  rw [hI.taken_length]
  exact (hI.out.source e ((handed_sublist _ _).subset he)).seq_lt

/-! ## Steps -/

theorem NodeInv.push (hI : NodeInv C i nd tr) {ev : BusEvent ι}
    (hm : ∀ o, ev.src = .bridge o → BridgedPayload.isBridged ev.data = true) :
    NodeInv C i (nd.push ev) tr where
  out := hI.out
  fed_once := by
    unfold Node.push
    split
    · rw [← List.append_assoc]
      refine List.nodup_append_comm.mp (List.nodup_cons.mpr ⟨fun hmem => ?_, hI.fed_once⟩)
      exact absurd (hI.fed_lt hmem) (Nat.lt_irrefl _)
    · exact hI.fed_once
  fed_wm := by
    intro k hk
    have hold : k ∈ nd.taken ++ nd.feed → ∃ ev', (nd.bus ++ [ev])[k]? = some ev' ∧
        startsWith ev'.topic "wm." = true := by
      intro hk
      obtain ⟨ev', hev, hwm⟩ := hI.fed_wm k hk
      exact ⟨ev', by rw [List.getElem?_append_left (hI.fed_lt hk)]; exact hev, hwm⟩
    unfold Node.push at hk
    split at hk
    · rename_i hwm
      rw [← List.append_assoc] at hk
      rcases List.mem_append.mp hk with hk | hk
      · exact hold hk
      · rw [List.mem_singleton] at hk
        subst hk
        exact ⟨ev, List.getElem?_concat_length .., hwm⟩
    · exact hold hk
  reads := hI.reads.imp fun _ _ h => h.mono
  injected_marked := by
    intro ev' he' o ho
    rcases List.mem_append.mp he' with he' | he'
    · exact hI.injected_marked ev' he' o ho
    · rw [List.mem_singleton] at he'
      subst he'
      exact hm o ho
  pc_marked := hI.pc_marked
  handed := hI.handed

theorem NodeInv.pushAll {evs : List (BusEvent ι)}
    (hm : ∀ ev ∈ evs, ∀ o, ev.src = .bridge o → BridgedPayload.isBridged ev.data = true) :
    ∀ {nd : Node ι}, NodeInv C i nd tr → NodeInv C i (nd.pushAll evs) tr := by
  induction evs with
  | nil => exact fun hI => hI
  | cons ev evs ih =>
    intro nd hI
    exact ih (fun ev' he' => hm ev' (List.mem_cons_of_mem ev he'))
      (hI.push (hm ev List.mem_cons_self))

/-- The watcher's notices are its own. -/
theorem notice_src {os : List OutObs} {ev : BusEvent ι} (h : ev ∈ os.filterMap notice) :
    ev.src = .watcher := by
  obtain ⟨o, -, ho⟩ := List.mem_filterMap.mp h
  unfold notice at ho
  split at ho
  · cases ho
    rfl
  · cases ho

theorem out_notices {P : OutConfig} {s s' : Outbound} {a : OutAct} {os : List OutObs}
    (ho : OutStep P s a s' os) : ∀ p ∈ noticesOf (hubOf os), IsNotice P.cfg p := by
  cases ho with
  | accepted e popped kept ha hs he =>
    rw [hubOf_hub]
    exact isNotice_step (.accepted e popped kept hs he)
  | watch a hub os hw =>
    rw [hubOf_hub]
    exact isNotice_step hw
  | _ =>
    intro p hp
    exact absurd hp List.not_mem_nil

/-- They are the two notices. -/
theorem notice_isNotice {P : OutConfig} {s s' : Outbound} {a : OutAct} {os : List OutObs}
    (ho : OutStep P s a s' os) {ev : BusEvent ι} (h : ev ∈ os.filterMap notice) :
    IsNotice P.cfg (ev.topic, ev.data) := by
  obtain ⟨o, hmem, hn⟩ := List.mem_filterMap.mp h
  unfold notice at hn
  split at hn
  · rename_i topic data
    cases hn
    refine out_notices ho _ (List.mem_filterMap.mpr ⟨.announced topic data true, ?_, rfl⟩)
    exact List.mem_filterMap.mpr ⟨_, hmem, rfl⟩
  · cases hn

/-- The bridge is given the entry `b`. -/
theorem NodeInv.read (hI : NodeInv C i nd tr) {k b : Nat} {ev : BusEvent ι} {out : Outbound}
    (hf : nd.feed[k]? = some b) (he : nd.bus[b]? = some ev)
    (ho : OutStep (C.out i) nd.out (.read ev.topic ev.data) out []) :
    NodeInv C i { nd with out := out, feed := nd.feed.eraseIdx k, taken := nd.taken ++ [b] }
      tr := by
  obtain ⟨hk, hfk⟩ := List.getElem?_eq_some_iff.mp hf
  have hperm : (nd.taken ++ [b] ++ nd.feed.eraseIdx k).Perm (nd.taken ++ nd.feed) := by
    rw [List.append_assoc]
    refine .append_left _ ?_
    have := List.getElem_cons_eraseIdx_perm hk
    rwa [hfk] at this
  have hreads : out.reads = nd.out.reads ++ [(ev.topic, ev.data)] := by
    cases ho <;> rfl
  refine ⟨?_, hperm.nodup_iff.mpr hI.fed_once, fun m hm => hI.fed_wm m (hperm.subset hm), ?_,
    hI.injected_marked, hI.pc_marked, ?_⟩
  · have := outInv_step hI.out ho
    rwa [List.append_nil] at this
  · rw [hreads]
    exact List.rel_append hI.reads (.cons ⟨ev, he, rfl⟩ .nil)
  · rw [hI.handed]
    refine List.map_congr_left fun e hmem => ?_
    unfold withIdx
    rw [List.getD_append _ _ _ _ (hI.handed_lt hmem)]

theorem NodeInv.outStep (hI : NodeInv C i nd tr) {a : OutAct} {out : Outbound} {os : List OutObs}
    (hr : out.reads = nd.out.reads) (ho : OutStep (C.out i) nd.out a out os) :
    NodeInv C i { nd with out := out } (tr ++ os.flatMap (shown nd.taken)) := by
  refine ⟨?_, hI.fed_once, hI.fed_wm, ?_, hI.injected_marked, hI.pc_marked, ?_⟩
  · rw [outOf_append, outOf_shown]
    exact outInv_step hI.out ho
  · rw [hr]
    exact hI.reads
  · rw [handedBy_append, handedBy_shown, outOf_append, outOf_shown, handedOf_append,
      List.map_append, hI.handed]

theorem nodeInv_step (hI : NodeInv C i nd tr) {a : NodeAct} {nd' : Node ι} {os : List (NodeObs ι)}
    {posts : List (Post ι)} (hst : NodeStep C i nd a nd' os posts) :
    NodeInv C i nd' (tr ++ os) := by
  -- an observation that is neither of the outbound half nor a hand-over changes nothing
  have hquiet : ∀ {m : Node ι} {os : List (NodeObs ι)}, NodeInv C i m tr → outOf os = [] →
      handedBy os = [] → NodeInv C i m (tr ++ os) := by
    intro m os h ho hh
    refine ⟨?_, h.fed_once, h.fed_wm, h.reads, h.injected_marked, h.pc_marked, ?_⟩
    · rw [outOf_append, ho, List.append_nil]
      exact h.out
    · rw [outOf_append, handedBy_append, ho, hh, List.append_nil, List.append_nil]
      exact h.handed
  cases hst with
  | client topic data sender => exact hquiet (hI.push fun o ho => by cases ho) rfl rfl
  | read k b ev out hf he ho => exact hquiet (hI.read hf he ho) rfl rfl
  | out a out os hr ho =>
    refine (hI.outStep hr ho).pushAll fun ev hev o hsrc => ?_
    rw [notice_src hev] at hsrc
    cases hsrc
  | pass k p hn hp hw =>
    exact hquiet ⟨hI.out, hI.fed_once, hI.fed_wm, hI.reads, hI.injected_marked, hI.pc_marked,
      hI.handed⟩ rfl rfl
  | take k p wrapped hn hp hw =>
    refine hquiet ⟨hI.out, hI.fed_once, hI.fed_wm, hI.reads, hI.injected_marked, ?_,
      hI.handed⟩ rfl rfl
    intro t w o h
    cases h
    exact n2aEnvelope_bridged hw
  | inject topic wrapped origin hn =>
    refine hquiet (NodeInv.push ?_ fun o _ => hI.pc_marked _ _ _ hn) rfl rfl
    exact ⟨hI.out, hI.fed_once, hI.fed_wm, hI.reads, hI.injected_marked,
      fun _ _ _ h => (nomatch h), hI.handed⟩
  | unwritten topic wrapped origin hn =>
    exact hquiet ⟨hI.out, hI.fed_once, hI.fed_wm, hI.reads, hI.injected_marked,
      fun _ _ _ h => (nomatch h), hI.handed⟩ rfl rfl

theorem NodeInv.receive (hI : NodeInv C i nd tr) (posts : List (Post ι)) :
    NodeInv C i (nd.receive posts) tr :=
  ⟨hI.out, hI.fed_once, hI.fed_wm, hI.reads, hI.injected_marked, hI.pc_marked, hI.handed⟩

theorem nodeInv_inductive [DecidableEq ι] (C : FleetConfig ι) :
    (fleet C).Inductive Mach.free (fun _ s tr => ∀ i, NodeInv C i (s i) (shownBy i tr)) :=
  node_inductive (H := fun _ _ _ => True) (nodeInv_start C)
    (fun _ _ _ _ _ _ _ hI _ hst => nodeInv_step hI hst) fun _ _ _ posts hI => hI.receive posts

/-! ## What is handed over -/

theorem handed_once (hI : NodeInv C i nd tr) : ((handedBy tr).map Prod.fst).Nodup := by
  have hseqs : ((handedOf (outOf tr)).map BufferedEvent.seq).Nodup :=
    hI.out.once.sublist ((handed_sublist _ _).map _)
  have htaken : nd.taken.Nodup := hI.fed_once.sublist (List.sublist_append_left _ _)
  rw [hI.handed, List.map_map]
  refine List.Nodup.map_on ?_ (.of_map _ hseqs)
  intro e he e' he' heq
  have hlt := hI.handed_lt he
  have hlt' := hI.handed_lt he'
  simp only [Function.comp_apply, withIdx] at heq
  rw [List.getD_eq_getElem _ _ hlt, List.getD_eq_getElem _ _ hlt'] at heq
  exact List.inj_on_of_nodup_map hseqs he he' (htaken.getElem_inj_iff.mp heq)

/-- The bus entry `k` of node `i` left as this message. -/
def Left (C : FleetConfig ι) (i : ι) (nd : Node ι) (k : Nat) (topic : String) (payload : Bytes) :
    Prop :=
  ∃ ev, nd.bus[k]? = some ev ∧ ev.topic = topic ∧ startsWith topic "wm." = true ∧
    a2nPayload C.serde (C.allow i) topic ev.data = some payload

theorem handed_left (hI : NodeInv C i nd tr) {k : Nat} {e : BufferedEvent}
    (h : (k, e) ∈ handedBy tr) : Left C i nd k e.topic e.payload := by
  rw [hI.handed] at h
  obtain ⟨e', he', heq⟩ := List.mem_map.mp h
  cases heq
  have hlt := hI.handed_lt he'
  obtain ⟨data, hread, hp⟩ := hI.out.source e ((handed_sublist _ _).subset he')
  have hk := (List.forall₂_iff_get.mp hI.reads).2 e.seq hlt (hI.taken_length ▸ hlt)
  obtain ⟨ev, hev, htd⟩ := hk
  obtain ⟨hlt', hget⟩ := List.getElem?_eq_some_iff.mp hread
  rw [List.get_eq_getElem, hget] at htd
  obtain ⟨htopic, rfl⟩ := Prod.mk.inj htd
  have hbus : nd.bus[nd.taken.getD e.seq 0]? = some ev := by
    rw [List.getD_eq_getElem _ _ hlt]
    exact hev
  obtain ⟨ev', hev', hwm⟩ := hI.fed_wm _ (List.mem_append_left _ (List.getElem_mem hlt))
  rw [← List.getD_eq_getElem _ 0 hlt, hbus] at hev'
  cases hev'
  exact ⟨ev, hbus, htopic.symm, htopic ▸ hwm, hp⟩

end Steps

/-- Bus entry `o.2` of node `o.1` was handed to NATS by that node. -/
def Posted [DecidableEq ι] (tr : List (ι × NodeObs ι)) (o : ι × Nat) : Prop :=
  o.2 ∈ (handedBy (shownBy o.1 tr)).map Prod.fst

theorem Posted.mono [DecidableEq ι] {tr os : List (ι × NodeObs ι)} {o : ι × Nat}
    (h : Posted tr o) : Posted (tr ++ os) o := by
  unfold Posted at *
  rw [shownBy_append, handedBy_append, List.map_append]
  exact List.mem_append_left _ h

end WmBusbridge.L5
