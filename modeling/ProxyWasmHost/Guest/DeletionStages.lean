/-
  The stages of an `on_delete` that gets through, from the end of the deletion callback to the
  removal of the context: which callouts each one ends, and with which deliveries.
-/
import ProxyWasmHost.Guest.Tended

namespace ProxyWasmHost

open Prog Session Prologue CalloutTable

variable {s s' : Session} {h h' : HostState} {past t u : List Event} {id : CalloutId}
  {c : ContextId} {table table' table'' : CalloutTable}

/-! ## What a deletion leaves when it gets through -/

section Yields

variable {α β : Type} {m : Method α} {f : α → Method β} {M Q : α → List Event → Session → Prop}
  {R : β → List Event → Session → Prop}

/-- What `m` returns and leaves satisfies `Q`, if few identifiers were reserved after `past`. -/
def Yields (past : List Event) (m : Method α) (Q : α → List Event → Session → Prop)
    (s : Session) : Prop :=
  Leaves m (fun a t s' => Few (past ++ t) → Q a t s') (fun _ _ _ => True) (fun _ _ => True) s

theorem Yields.mono (h : Yields past m M s) (hQ : ∀ a t s', M a t s' → Q a t s') :
    Yields past m Q s :=
  Leaves.mono h (fun a t s' h hfew => hQ a t s' (h hfew)) (fun _ _ _ h => h) fun _ _ h => h

theorem Yields.pure {a : α} (h : Few past → Q a [] s) : Yields past (Pure.pure a) Q s :=
  Leaves.pure fun hfew => h hfew.of_append

theorem Yields.bind_read {g : Session → α} (h : Yields past (f (g s)) R s) :
    Yields past (Prog.read g >>= f) R s := h

theorem Yields.bind (hm : Yields past m M s)
    (hf : ∀ a t s', M a t s' → Yields (past ++ t) (f a) (fun b u => R b (t ++ u)) s') :
    Yields past (m >>= f) R s := by
  refine Leaves.bind hm fun a t s' h => ?_
  by_cases hfew : Few (past ++ t)
  · refine Leaves.mono (hf a t s' (h hfew)) (fun b u s'' hR hfew' => hR ?_) (fun _ _ _ h => h)
      fun _ _ h => h
    rwa [List.append_assoc]
  · refine .always (fun b u s'' hfew' => absurd (Few.of_append (t := u) ?_) hfew)
      (fun _ _ _ => trivial) fun _ _ => trivial
    rwa [List.append_assoc]

theorem Yields.bind_act {e : Session → Event} {u : Session → Session} {f : Unit → Method β}
    (h : Yields (past ++ [e s]) (f ()) (fun b t => R b (e s :: t)) (u s)) :
    Yields past (Prog.act e u >>= f) R s := by
  refine Leaves.bind_act (Leaves.mono h (fun b t s' hR hfew => hR ?_) (fun _ _ _ h => h)
    fun _ _ h => h)
  rwa [List.append_assoc]

theorem Yields.bind_modify {u : Session → Session} {f : Unit → Method β}
    (h : Yields past (f ()) R (u s)) : Yields past (Prog.modify u >>= f) R s := h

theorem Yields.attempt (h : Yields past m M s) :
    Yields past (Prog.attempt m) (fun result t s' => ∀ a, result = .ok a → M a t s') s := by
  refine Leaves.attempt (Leaves.mono h ?_ ?_ fun _ _ h => h)
  · rintro a t s' h hfew _ ⟨⟩
    exact h hfew
  · rintro e t s' - - _ ⟨⟩

end Yields

/-- A guest in the middle of the deletion of `c`, in which the identifiers of `past` were
    reserved. -/
structure Session.Removing (c : ContextId) (past : List Event) (s : Session) : Prop where
  undelivered : s.Undelivered
  marked : s.abi.deleting = some c
  numbered : s.abi.callouts.Numbered past

/-- **What a stage of the deletion of `c` leaves**: exactly the callouts of `ended` were taken, and
    nothing was delivered of any other. -/
structure DeletionStage (c : ContextId) (past : List Event) (s : Session)
    (ended : List CalloutId) (t : List Event) (s' : Session) : Prop where
  undelivered : s'.Undelivered
  marked : s'.abi.deleting = some c
  tended : Tended c past s.abi.callouts t s'.abi.callouts
  collects : Collects ended t
  spared : ∀ id, id ∉ ended → deliveriesOf id t = []
  roots : ∀ x, x ≠ c → s.abi.contexts.rootOf x = some x →
    s'.abi.contexts.rootOf x = some x ∧
      s'.abi.contexts.rejectionOf x = s.abi.contexts.rejectionOf x
  forgotten : s.abi.contexts.get c = none → s'.abi.contexts.get c = none

namespace DeletionStage

variable {s'' : Session} {ended failed : List CalloutId}

theorem removing (h : DeletionStage c past s ended t s') : s'.Removing c (past ++ t) :=
  ⟨h.undelivered, h.marked, h.tended.numbered⟩

theorem trans (h : DeletionStage c past s ended t s')
    (h' : DeletionStage c (past ++ t) s' failed u s'') :
    DeletionStage c past s (ended ++ failed) (t ++ u) s'' where
  undelivered := h'.undelivered
  marked := h'.marked
  tended := h.tended.trans h'.tended
  collects := h.collects.append h'.collects
  spared id hid := by
    rw [List.mem_append, not_or] at hid
    rw [deliveriesOf_append, h.spared id hid.1, h'.spared id hid.2]
    rfl
  roots x hx hself := by
    obtain ⟨hself', hsame⟩ := h.roots x hx hself
    obtain ⟨hself'', hsame'⟩ := h'.roots x hx hself'
    exact ⟨hself'', hsame'.trans hsame⟩
  forgotten hnone := h'.forgotten (h.forgotten hnone)

theorem refl (hs : s.Removing c past) : DeletionStage c past s [] [] s where
  undelivered := hs.undelivered
  marked := hs.marked
  tended := .of_eq hs.numbered rfl (by rintro e ⟨⟩)
  collects := .nil (by rintro e ⟨⟩)
  spared id _ := rfl
  roots x _ hself := ⟨hself, rfl⟩
  forgotten hnone := hnone

end DeletionStage

section Stages

variable {root : ContextId} {codes : CalloutId → Code} {code : Code} {kind : CalloutKind}
  {entry : Callout}

/-- What a host function does not change of the contexts. -/
theorem ContextTable.Keeps.get_eq_none {table table' : ContextTable} (h : table.Keeps table')
    (hnone : table.get c = none) : table'.get c = none := by
  have hsome := h.isSome c
  rw [hnone] at hsome
  exact Option.isNone_iff_eq_none.1 (by rw [← Option.not_isSome, hsome]; rfl)

/-- **The callback of the deletion** takes no callout and delivers none. -/
theorem runDelete_yields (hs : s.Removing c past) :
    Yields past (run c .delete [c.wire] code 0) (fun _ t s' =>
      DeletionStage c past s [] t s' ∧
      ∃ exported abi rest, t = .began .delete c none [c.wire] exported abi :: rest) s := by
  refine (run_over hs.undelivered.1).mono ?_ (fun _ _ _ _ => trivial) fun _ _ _ => trivial
  rintro value t s' ⟨hran, hover⟩ hfew
  have hframe := hran.frame
  have hdelivers : ∀ id, deliveriesOf id t = _ := fun _ => hran.deliveriesOf (.returned value)
  refine ⟨⟨⟨?_, hframe.delivery.trans hs.undelivered.2⟩, hframe.deleting.trans hs.marked,
    hran.tended (.returned value) hs.numbered hs.marked hfew,
    .nil (hran.takes_nothing (.returned value)), fun id _ => ?_,
    fun x _ hself => ⟨(hframe.contexts.rootOf x).trans hself, hframe.contexts.rejectionOf x⟩,
    hframe.contexts.get_eq_none⟩, ?_⟩
  · cases hover with
    | returned value live => exact live
  · rw [hdelivers, hs.undelivered.2]
    rfl
  · obtain ⟨inner, h, -, -, rfl⟩ := hran
    refine ⟨s.exports .delete, s.abi, inner ++ [.finished h.abi, .returned .delete c value], ?_⟩
    unfold beginning
    rw [hs.undelivered.2]
    rfl

/-- **One failure delivery** takes its callout. -/
theorem deliverFailure_yields (hs : s.Removing c past) (hget : s.abi.callouts.get id = some entry)
    (hcaller : entry.caller = c) :
    Yields past (deliver (failure root id kind) code) (fun _ t s' =>
      DeletionStage c past s [id] t s' ∧ FailedOnce root id kind t) s := by
  have hafter := s.abi.callouts.get_remove id
  refine (deliver_leaves hs.undelivered.1).mono ?_ (fun _ _ _ _ => trivial) fun _ _ _ => trivial
  rintro _ t s' ⟨value, ⟨u, s₁, hran, rfl, rfl⟩, hover⟩ hfew
  rw [taking_failure hget] at hfew ⊢
  have hlive : s₁.host.poisoned = false := by
    cases hover with
    | returned value live => exact (s.poisoned_settled _ s₁).symm.trans live.live
  rw [settled_failure hget, hlive] at hover ⊢
  have hmarked : (s.lending (failure root id kind)).abi.deleting = some c := by
    rw [s.lending_failure]
    exact hs.marked
  have hcontexts : (s.lending (failure root id kind)).abi.contexts = s.abi.contexts := by
    rw [s.lending_failure]
    rfl
  have htaken : Tended c past s.abi.callouts [.ended id (some entry)]
      (s.lending (failure root id kind)).abi.callouts := by
    rw [s.lending_failure]
    refine .of_removed hs.numbered rfl rfl (fun x hremoves => ?_) (fun x hspared => ?_)
      fun x hremoves => ?_
    · rcases hremoves with hcancels | rfl
      · exact hcancels.elim
      · exact (hafter id).trans (if_pos rfl)
    · exact (hafter x).trans (if_neg fun hx => hspared (.inr hx.symm))
    · rcases hremoves with hcancels | rfl
      · exact hcancels.elim
      · exact ⟨entry, hget, fun _ => hcaller⟩
  have htended := htaken.trans (hran.tended (.returned value) htaken.numbered hmarked
    (by rwa [List.append_assoc]))
  have hdelivers : ∀ x, deliveriesOf x ([.ended id (some entry)] ++ u) = if some id = some x then
      [(s.lending (failure root id kind)).beginning (failure root id kind).callback
        (failure root id kind).context (failure root id kind).params] else [] := by
    intro x
    rw [deliveriesOf_append, hran.deliveriesOf (.returned value), s.delivery_failure]
    rfl
  have hkeeps := hran.frame.contexts
  rw [hcontexts] at hkeeps
  refine ⟨⟨⟨?_, rfl⟩, hran.frame.deleting.trans hmarked, htended, ?_, fun x hx => ?_,
    fun x _ hself => ⟨(hkeeps.rootOf x).trans hself, hkeeps.rejectionOf x⟩, hkeeps.get_eq_none⟩, ?_⟩
  · cases hover with
    | returned value live => exact live
  · refine Collects.append_nil (fun x => ?_) (hran.takes_nothing (.returned value))
    simp [Event.Takes, eq_comm]
  · rw [hdelivers, if_neg]
    rintro ⟨⟩
    exact hx (.head _)
  · unfold FailedOnce
    rw [hdelivers, if_pos rfl, context_failure]
    unfold beginning
    rw [s.delivery_failure]
    exact ⟨_, _, rfl⟩

/-- The callouts that the loop still has to fail were made by `c`, and are of their kinds. -/
def Listed (c : ContextId) (past : List Event) (rest : List (CalloutId × CalloutKind))
    (table : CalloutTable) : Prop :=
  ∀ x kind, (x, kind) ∈ rest → x ∈ reservedIn past ∧
    ∀ entry, table.get x = some entry → entry.caller = c ∧ entry.kind = kind

theorem Listed.of_madeBy (hnum : table.Numbered past) : Listed c past (table.madeBy c) table := by
  intro x kind hmem
  obtain ⟨entry, hget, hcaller, hkind⟩ := mem_madeBy.1 hmem
  refine ⟨hnum.mem_of_get hget, fun entry' hget' => ?_⟩
  rw [hget] at hget'
  cases hget'
  exact ⟨hcaller, hkind⟩

/-- **An entry that is open after some events**, under an identifier reserved before, is the one that
    was open then. -/
theorem CalloutTable.Tended.before (h : Tended c past table t table') (hid : id ∈ reservedIn past)
    {entry' : Callout} (hget' : table'.get id = some entry') :
    ∃ entry, table.get id = some entry ∧ entry'.report id = entry.report id := by
  cases hget : table.get id with
  | none =>
    rw [(h.gone id hid hget).1] at hget'
    cases hget'
  | some entry =>
    refine ⟨entry, rfl, ?_⟩
    obtain ⟨entry'', hget'', hreport⟩ := h.kept id entry hget fun e he hremoves => by
      rw [h.removed id hid ⟨e, he, hremoves⟩] at hget'
      cases hget'
    rw [hget'] at hget''
    cases hget''
    exact hreport

theorem Listed.of_tended {rest : List (CalloutId × CalloutKind)} (h : Listed c past rest table)
    (htended : Tended c past table t table') : Listed c (past ++ t) rest table' := by
  intro x kind hmem
  obtain ⟨hx, hentry⟩ := h x kind hmem
  refine ⟨?_, fun entry' hget' => ?_⟩
  · rw [reservedIn_append]
    exact List.mem_append_left _ hx
  · obtain ⟨entry, hget, hreport⟩ := htended.before hx hget'
    obtain ⟨hcaller, hkind⟩ := hentry entry hget
    exact ⟨(congrArg OpenCallout.caller hreport).trans hcaller,
      (congrArg OpenCallout.kind hreport).trans hkind⟩

/-- What the loop over `rest` leaves: none of its callouts is open, and each that it ended failed
    once. -/
structure FailingStage (c root : ContextId) (past : List Event)
    (rest : List (CalloutId × CalloutKind)) (s : Session) (ended : List CalloutId)
    (t : List Event) (s' : Session) : Prop extends DeletionStage c past s ended t s' where
  sublist : ended.Sublist (rest.map (·.1))
  emptied : ∀ x kind, (x, kind) ∈ rest → s'.abi.callouts.get x = none
  failed : ∀ x entry, x ∈ ended → s.abi.callouts.get x = some entry →
    FailedOnce root x entry.kind t

namespace FailingStage

variable {rest : List (CalloutId × CalloutKind)} {ended : List CalloutId} {s'' : Session}

/-- A callout that is over already gets no delivery. -/
theorem skip (h : FailingStage c root past rest s ended t s') (hid : id ∈ reservedIn past)
    (hget : s.abi.callouts.get id = none) :
    FailingStage c root past ((id, kind) :: rest) s ended t s' where
  toDeletionStage := h.toDeletionStage
  sublist := h.sublist.cons _
  emptied x kind' hmem := by
    rcases List.mem_cons.1 hmem with hx | hmem
    · cases hx
      exact (h.tended.gone id hid hget).1
    · exact h.emptied x kind' hmem
  failed := h.failed

/-- A callout that is open fails, and then the rest. -/
theorem cons (hs : s.Removing c past) (hget : s.abi.callouts.get id = some entry)
    (hfirst : DeletionStage c past s [id] t s') (honce : FailedOnce root id entry.kind t)
    (h : FailingStage c root (past ++ t) rest s' ended u s'') :
    FailingStage c root past ((id, entry.kind) :: rest) s (id :: ended) (t ++ u) s'' := by
  have hid := hs.numbered.mem_of_get hget
  have hgone := hfirst.tended.removed id hid
    (((hfirst.collects id).1 (.head _)).imp fun e he => ⟨he.1, .inr he.2⟩)
  have hlater : id ∈ reservedIn (past ++ t) := by
    rw [reservedIn_append]
    exact List.mem_append_left _ hid
  have hafter := h.tended.gone id hlater hgone
  have hnot : id ∉ ended := fun hmem => by
    obtain ⟨e, he, htakes⟩ := (h.collects id).1 hmem
    exact hafter.2 e he (.inr htakes)
  refine ⟨hfirst.trans h.toDeletionStage, h.sublist.cons_cons _, fun x kind hmem => ?_,
    fun x e hx hgetx => ?_⟩
  · rcases List.mem_cons.1 hmem with hx | hmem
    · cases hx
      exact hafter.1
    · exact h.emptied x kind hmem
  · unfold FailedOnce
    rw [deliveriesOf_append]
    rcases List.mem_cons.1 hx with rfl | hmem
    · rw [hget] at hgetx
      cases hgetx
      rw [h.spared x hnot, List.append_nil]
      exact honce
    · have hne : x ∉ [id] := by
        rw [List.mem_singleton]
        rintro rfl
        exact hnot hmem
      obtain ⟨e', hgetx', -⟩ := h.tended.taken x ((h.collects x).1 hmem)
      obtain ⟨e₀, hget₀, hreport⟩ := hfirst.tended.before (hs.numbered.mem_of_get hgetx) hgetx'
      rw [hgetx] at hget₀
      cases hget₀
      rw [hfirst.spared x hne, List.nil_append,
        ← show e'.kind = e.kind from congrArg OpenCallout.kind hreport]
      exact h.failed x e' hmem hgetx'

end FailingStage

/-- **The loop of the failure deliveries**, on the callouts that are left. -/
theorem failEach_yields (rest : List (CalloutId × CalloutKind)) (hs : s.Removing c past)
    (hlisted : Listed c past rest s.abi.callouts) :
    Yields past (failEach root codes rest) (FailingStage c root past rest s) s := by
  induction rest generalizing s past with
  | nil => exact .pure fun _ => ⟨.refl hs, .slnil, by rintro x kind ⟨⟩, by rintro x entry ⟨⟩⟩
  | cons entry rest ih =>
    obtain ⟨id, kind⟩ := entry
    obtain ⟨hid, hentry⟩ := hlisted id kind (.head _)
    have hrest : Listed c past rest s.abi.callouts := fun x k hmem => hlisted x k (.tail _ hmem)
    rw [failEach_cons]
    refine .bind_read ?_
    cases hget : s.abi.callouts.get id with
    | none => exact (ih hs hrest).mono fun _ _ _ h => h.skip hid hget
    | some entry =>
      obtain ⟨hcaller, rfl⟩ := hentry entry hget
      refine .bind (deliverFailure_yields hs hget hcaller) ?_
      rintro _ t s' ⟨hfirst, honce⟩
      refine .bind (ih hfirst.removing (hrest.of_tended hfirst.tended)) fun ended u s'' h => ?_
      refine .pure fun _ => ?_
      rw [List.append_nil]
      exact h.cons hs hget hfirst honce

/-- **What ends the callouts of `c` at `root` leaves**: none of them is open, and each failed once
    unless the guest refused its root. -/
structure EndingStage (c root : ContextId) (past : List Event) (s : Session)
    (ended : List CalloutId) (t : List Event) (s' : Session) : Prop
    extends DeletionStage c past s ended t s' where
  ascending : ended.Pairwise fun x y => x.val < y.val
  emptied : ∀ id entry, s'.abi.callouts.get id = some entry → entry.caller ≠ c
  failed : s.abi.contexts.rejectionOf root = none → ∀ id entry, id ∈ ended →
    s.abi.callouts.get id = some entry → FailedOnce root id entry.kind t
  refused : s.abi.contexts.rejectionOf root ≠ none → ∀ id, deliveriesOf id t = []

/-- A drop of the callouts that are left. -/
theorem dropOpenCallouts_yields (hs : s.Removing c past) :
    Yields past (dropOpenCallouts c) (fun dropped t s' => DeletionStage c past s dropped t s' ∧
      dropped.Pairwise (fun x y => x.val < y.val) ∧
      (∀ id entry, s'.abi.callouts.get id = some entry → entry.caller ≠ c) ∧
      ∀ id, deliveriesOf id t = []) s := by
  refine .bind_read (.bind_act (.pure fun _ => ?_))
  have hascending := s.abi.callouts.madeBy_ascending c
  have hmem : ∀ id, id ∈ (s.abi.callouts.madeBy c).map (·.1) ↔
      ∃ entry, s.abi.callouts.get id = some entry ∧ entry.caller = c := fun _ => mem_madeBy_fst
  generalize (s.abi.callouts.madeBy c).map (·.1) = dropped at hascending hmem
  have hafter := get_foldl_remove dropped s.abi.callouts
  have hremoves : ∀ id, (Event.dropped dropped).Removes id ↔ id ∈ dropped := fun id =>
    ⟨fun h => h.elim False.elim fun htakes => htakes, .inr⟩
  refine ⟨⟨⟨⟨hs.undelivered.1.idle, hs.undelivered.1.live⟩, hs.undelivered.2⟩, hs.marked, ?_, ?_,
    fun id _ => rfl, fun x _ hself => ⟨hself, rfl⟩, fun hnone => hnone⟩, hascending, ?_, fun _ => rfl⟩
  · refine .of_removed hs.numbered (next_foldl_remove _ _) rfl (fun id h => ?_) (fun id h => ?_)
      fun id h => ?_
    · exact (hafter id).trans (if_pos ((hremoves id).1 h))
    · exact (hafter id).trans (if_neg fun hid => h ((hremoves id).2 hid))
    · obtain ⟨entry, hget, hcaller⟩ := (hmem id).1 ((hremoves id).1 h)
      exact ⟨entry, hget, fun _ => hcaller⟩
  · intro id
    simp [Event.Takes]
  · intro id entry hget hcaller
    rw [callouts_mapCallouts, hafter] at hget
    split at hget
    · cases hget
    · rename_i hid
      exact hid ((hmem id).2 ⟨entry, hget, hcaller⟩)

/-- **The end of the callouts of `c`** at `root`. -/
theorem failOpenCallouts_yields (hs : s.Removing c past) :
    Yields past (failOpenCallouts c root codes) (EndingStage c root past s) s := by
  unfold failOpenCallouts
  refine .bind_read (.bind_read ?_)
  split
  · rename_i hrefused
    refine (dropOpenCallouts_yields hs).mono ?_
    rintro dropped t s' ⟨hstage, hascending, hemptied, hnone⟩
    exact ⟨hstage, hascending, hemptied, fun haccepted => absurd haccepted hrefused, fun _ => hnone⟩
  · rename_i haccepted
    refine (failEach_yields _ hs (.of_madeBy hs.numbered)).mono ?_
    intro ended t s' h
    refine ⟨h.toDeletionStage, (s.abi.callouts.madeBy_ascending c).sublist h.sublist, ?_,
      fun _ => h.failed, fun hrefused => absurd hrefused haccepted⟩
    intro id entry hget hcaller
    obtain ⟨entry₀, hget₀, hcaller₀⟩ := h.tended.own id entry hget hcaller
    rw [h.emptied id _ (mem_madeBy.2 ⟨entry₀, hget₀, hcaller₀, rfl⟩)] at hget
    cases hget

/-- The drop that ends a deletion finds no callout. -/
theorem lastDrop_yields (hs : s.Removing c past)
    (hnone : ∀ id entry, s.abi.callouts.get id = some entry → entry.caller ≠ c) :
    Yields past (dropOpenCallouts c) (fun dropped t s' => dropped = [] ∧
      DeletionStage c past s [] t s') s := by
  refine (dropOpenCallouts_yields hs).mono ?_
  rintro dropped t s' ⟨hstage, -⟩
  have hempty : dropped = [] := by
    refine List.eq_nil_iff_forall_not_mem.2 fun id hid => ?_
    obtain ⟨entry, hget, hcaller⟩ := hstage.tended.taken id ((hstage.collects id).1 hid)
    exact hnone id entry hget hcaller
  subst hempty
  exact ⟨rfl, hstage⟩

/-- The context leaves the table. -/
theorem removeContext_stage (hs : s.Removing c past) (isRoot : Bool) :
    DeletionStage c past s [] [.deleted c s.abi] (s.mapAbi (·.removeContext c isRoot)) ∧
      (s.mapAbi (·.removeContext c isRoot)).abi.contexts.get c = none := by
  have hcontexts : (s.mapAbi (·.removeContext c isRoot)).abi.contexts = s.abi.contexts.remove c := by
    cases isRoot <;> rfl
  have hcallouts : (s.mapAbi (·.removeContext c isRoot)).abi.callouts = s.abi.callouts := by
    cases isRoot <;> rfl
  have hgone : (s.mapAbi (·.removeContext c isRoot)).abi.contexts.get c = none := by
    rw [hcontexts, ContextTable.get_remove, if_pos rfl]
  refine ⟨⟨hs.undelivered.of_remove, ?_, .of_eq hs.numbered hcallouts (by simp [Event.ofCallouts]),
    .nil (by simp [Event.Takes]), fun _ _ => rfl, fun x hx hself => ?_, fun _ => hgone⟩, hgone⟩
  · cases isRoot <;> exact hs.marked
  · rw [hcontexts]
    have hget : (s.abi.contexts.remove c).get x = s.abi.contexts.get x := by
      rw [ContextTable.get_remove, if_neg hx]
    have hself' : (s.abi.contexts.remove c).rootOf x = some x := by
      unfold ContextTable.rootOf at hself ⊢
      rwa [hget]
    refine ⟨hself', ?_⟩
    have hvm : (s.abi.contexts.remove c).vmRejected = s.abi.contexts.vmRejected := by
      unfold ContextTable.remove
      split <;> rfl
    unfold ContextTable.rejectionOf ContextTable.isRejected
    rw [hvm, hself, hself', Option.bind_some, Option.bind_some, hget]

/-- A stage opens no callout for `c`. -/
theorem DeletionStage.emptied {ended : List CalloutId} (h : DeletionStage c past s ended t s')
    (hnone : ∀ id entry, s.abi.callouts.get id = some entry → entry.caller ≠ c) :
    ∀ id entry, s'.abi.callouts.get id = some entry → entry.caller ≠ c := by
  intro id entry hget hcaller
  obtain ⟨entry₀, hget₀, hcaller₀⟩ := h.tended.own id entry hget hcaller
  exact hnone id entry₀ hget₀ hcaller₀

/-- **What the deletion of `c` leaves**: each callout failed once at `root`, before the callback of
    the deletion when `c` is that root, and after it when `c` is one of its streams. -/
structure Deleted (c root : ContextId) (past : List Event) (s : Session)
    (ended : List CalloutId) (t : List Event) (s' : Session) : Prop
    extends DeletionStage c past s ended t s' where
  ascending : ended.Pairwise fun x y => x.val < y.val
  emptied : ∀ id entry, s'.abi.callouts.get id = some entry → entry.caller ≠ c
  absent : s'.abi.contexts.get c = none
  failed : s.abi.contexts.rejectionOf root = none → ∃ before exported abi after,
    t = before ++ .began .delete c none [c.wire] exported abi :: after ∧
    ∀ id entry, id ∈ ended → s.abi.callouts.get id = some entry →
      if root = c then FailedOnce root id entry.kind before ∧ deliveriesOf id after = []
      else deliveriesOf id before = [] ∧ FailedOnce root id entry.kind after
  refused : s.abi.contexts.rejectionOf root ≠ none → ∀ id, deliveriesOf id t = []

theorem deleteRoot_yields (hs : s.Removing c past) (hparent : s.abi.contexts.parent c = none) :
    Yields past (delete c codes code) (Deleted c c past s) s := by
  unfold delete
  refine .bind_read ?_
  dsimp only
  rw [hparent]
  refine .bind (failOpenCallouts_yields hs) ?_
  rintro ended t₁ s₁ h₁
  refine .bind (runDelete_yields h₁.removing) ?_
  rintro _ t₂ s₂ ⟨h₂, exported, abi, rest, rfl⟩
  obtain ⟨h₃, habsent⟩ := removeContext_stage h₂.removing true
  refine .bind_act ?_
  dsimp only
  refine .bind (M := fun failed t s' => failed = [] ∧ t = [] ∧
    s' = s₂.mapAbi (·.removeContext c true)) (.pure fun _ => ⟨rfl, rfl, rfl⟩) ?_
  rintro _ _ _ ⟨rfl, rfl, rfl⟩
  rw [List.append_nil]
  refine .bind (lastDrop_yields h₃.removing (h₃.emptied (h₂.emptied h₁.emptied))) ?_
  rintro _ t₄ s₄ ⟨rfl, h₄⟩
  refine .pure fun _ => ?_
  have hlast := h₂.trans (h₃.trans h₄)
  have hnone : ∀ id, deliveriesOf id (rest ++ ([.deleted c s₂.abi] ++ t₄)) = [] := fun id =>
    hlast.spared id (by simp)
  refine ⟨by simpa using h₁.toDeletionStage.trans hlast, by simpa using h₁.ascending,
    hlast.emptied h₁.emptied, h₄.forgotten habsent, fun haccepted => ?_, fun hrefused id => ?_⟩
  · refine ⟨t₁, exported, abi, rest ++ ([.deleted c s₂.abi] ++ t₄), by simp,
      fun id entry hmem hget => ?_⟩
    rw [if_pos rfl]
    exact ⟨h₁.failed haccepted id entry (by simpa using hmem) hget, hnone id⟩
  · rw [deliveriesOf_append, h₁.refused hrefused id, List.nil_append, List.append_nil]
    exact hnone id

theorem deleteStream_yields (hs : s.Removing c past) (hparent : s.abi.contexts.parent c = some root)
    (hne : root ≠ c) (hself : s.abi.contexts.rootOf root = some root) :
    Yields past (delete c codes code) (Deleted c root past s) s := by
  unfold delete
  refine .bind_read ?_
  dsimp only
  rw [hparent]
  refine .bind (M := fun ended t s' => ended = [] ∧ t = [] ∧ s = s')
    (.pure fun _ => ⟨rfl, rfl, rfl⟩) ?_
  rintro _ _ _ ⟨rfl, rfl, rfl⟩
  rw [List.append_nil]
  refine .bind (runDelete_yields hs) ?_
  rintro _ t₁ s₁ ⟨h₁, exported, abi, rest, rfl⟩
  obtain ⟨h₂, habsent⟩ := removeContext_stage h₁.removing false
  refine .bind_act ?_
  dsimp only
  have hfail : Yields _ (failOpenCallouts c root codes) _ _ := failOpenCallouts_yields h₂.removing
  refine .bind hfail ?_
  rintro failed t₃ s₃ h₃
  refine .bind (lastDrop_yields h₃.toDeletionStage.removing h₃.emptied) ?_
  rintro _ t₄ s₄ ⟨rfl, h₄⟩
  refine .pure fun _ => ?_
  have hfirst := h₁.trans h₂
  have hlast := h₃.toDeletionStage.trans h₄
  have hroot := (hfirst.roots root hne hself).2
  have hdelivers : ∀ id, deliveriesOf id (rest ++ ([.deleted c s₁.abi] ++ (t₃ ++ t₄))) =
      deliveriesOf id t₃ := by
    intro id
    have hrest : deliveriesOf id (rest ++ [.deleted c s₁.abi]) = [] := hfirst.spared id (by simp)
    rw [← List.append_assoc, deliveriesOf_append, hrest, List.nil_append, deliveriesOf_append,
      h₄.spared id (by simp), List.append_nil]
  refine ⟨by simpa using h₁.trans (h₂.trans hlast), by simpa using h₃.ascending,
    h₄.emptied h₃.emptied, hlast.forgotten habsent, fun haccepted => ?_, fun hrefused id => ?_⟩
  · refine ⟨[], exported, abi, rest ++ ([.deleted c s₁.abi] ++ (t₃ ++ t₄)), by simp,
      fun id entry hmem hget => ?_⟩
    rw [if_neg hne]
    have hmem' : id ∈ failed := by simpa using hmem
    obtain ⟨entry', hget', -⟩ := h₃.tended.taken id ((h₃.collects id).1 hmem')
    obtain ⟨entry₀, hget₀, hreport⟩ := hfirst.tended.before (hs.numbered.mem_of_get hget) hget'
    rw [hget] at hget₀
    cases hget₀
    refine ⟨rfl, ?_⟩
    unfold FailedOnce
    rw [hdelivers, ← show entry'.kind = entry.kind from congrArg OpenCallout.kind hreport]
    exact h₃.failed (hroot.trans haccepted) id entry' hmem' hget'
  · have hnone := h₃.refused (fun haccepted => hrefused (hroot.symm.trans haccepted)) id
    rw [← hdelivers] at hnone
    simpa using hnone

end Stages

end ProxyWasmHost
