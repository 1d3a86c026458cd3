/-
  The end of each callout, as the embedder hears of it: a deletion that breaks off loses the
  callouts that it ended, and nothing else loses one.
-/
import ProxyWasmHost.Guest.Openings
import ProxyWasmHost.Guest.Served

namespace ProxyWasmHost

open Prog Session Prologue

variable {s s' : Session} {h h' : HostState} {t u : List Event} {id : CalloutId}

/-! ## What the events tell -/

namespace Event

/-- The service takes the callout `id`. -/
def Accepts (id : CalloutId) : Event → Prop
  | .callout _ _ x op answer => x = id ∧ op.opens.isSome ∧ accepts answer = true
  | _ => False

/-- The guest cancels the callout `id`, or closes it when it is a unary call. -/
def Cancels (id : CalloutId) : Event → Prop
  | .callout _ _ x op _ => x = id ∧ op = .grpcCancel
  | _ => False

/-- The host takes the callout `id` out of the table. -/
def Takes (id : CalloutId) : Event → Prop
  | .ended x _ => x = id
  | .dropped ids => id ∈ ids
  | _ => False

theorem not_takes_of_ofHost {e : Event} (h : e.ofHost = true) : ¬ e.Takes id := by
  cases e with
  | ended | dropped => cases h
  | _ => exact False.elim

end Event

/-- Once a callout is taken, each callback that begins later returns, but for the delivery of the
    callout itself, in which the guest may trap. -/
def EndsSafely (t : List Event) : Prop :=
  ∀ before callback c callout params exported abi after,
    t = before ++ .began callback c callout params exported abi :: after →
    ∀ id, (∃ e ∈ before, e.Takes id) → (∃ value, .returned callback c value ∈ after) ∨
      callout = some id ∧ .unwound callback c ∈ after

/-! ## What steps leave -/

/-- **A callout that is open**, or that a step opens, stays open until it is cancelled or taken. -/
theorem CalloutTable.Moves.open_or_removed {table : CalloutTable} (hmoves : Moves h t table)
    (hopen : (h.abi.callouts.get id).isSome ∨ ∃ e ∈ t, e.Accepts id) :
    (table.get id).isSome ∨ ∃ e ∈ t, e.Cancels id ∨ e.Takes id := by
  have hkept : table.get id = h.abi.callouts.get id → (∀ e ∈ t, ¬ e.Accepts id) →
      (table.get id).isSome ∨ ∃ e ∈ t, e.Cancels id ∨ e.Takes id := by
    intro hget hnone
    rcases hopen with hopen | ⟨e, he, haccepts⟩
    · exact .inl (by rw [hget]; exact hopen)
    · exact absurd haccepts (hnone e he)
  cases hmoves with
  | kept silent =>
    refine hkept rfl fun e he haccepts => ?_
    have hsilent := silent e he
    cases e with
    | callout | ended | dropped => cases hsilent
    | _ => exact haccepts
  | @opened service call x op kind c root reserved answer live room reserve opens =>
    left
    rw [get_of_asked reserve]
    rcases hopen with hopen | ⟨e, he, haccepts⟩
    · split
      · rfl
      · exact hopen
    · cases List.mem_singleton.1 he
      rw [if_pos ⟨haccepts.2.2, haccepts.1.symm⟩]
      rfl
  | told opens stays =>
    refine hkept rfl fun e he haccepts => ?_
    cases List.mem_singleton.1 he
    rw [Event.Accepts, opens] at haccepts
    cases haccepts.2.1
  | closed opens stays =>
    left
    rcases hopen with hopen | ⟨e, he, haccepts⟩
    · rw [get_closeByGuest]
      split
      · rw [Option.isSome_map]
        exact hopen
      · exact hopen
    · cases List.mem_singleton.1 he
      rw [Event.Accepts, opens] at haccepts
      cases haccepts.2.1
  | @cancelled service call x answer =>
    by_cases hx : x = id
    · exact .inr ⟨_, .head _, .inl ⟨hx, rfl⟩⟩
    · refine hkept ((get_remove _ _ _).trans (if_neg (Ne.symm hx))) fun e he haccepts => ?_
      cases List.mem_singleton.1 he
      cases haccepts.2.1
  | @ended x entry =>
    by_cases hx : x = id
    · exact .inr ⟨_, .head _, .inr hx⟩
    · refine hkept ((get_remove _ _ _).trans (if_neg (Ne.symm hx))) fun e he haccepts => ?_
      cases List.mem_singleton.1 he
      exact haccepts
  | dropped ids =>
    by_cases hmem : id ∈ ids
    · exact .inr ⟨_, .head _, .inr hmem⟩
    · refine hkept ((get_foldl_remove _ _ _).trans (if_neg hmem)) fun e he haccepts => ?_
      cases List.mem_singleton.1 he
      exact haccepts
  | reentered x entry poisoned =>
    left
    rcases hopen with hopen | ⟨e, ⟨⟩, -⟩
    rw [get_enter]
    split
    · rfl
    · exact hopen

theorem Session.Step.open_or_removed_of_steps {aim : Aim}
    (path : Steps (Session.Step aim) s t s')
    (hopen : (s.abi.callouts.get id).isSome ∨ ∃ e ∈ t, e.Accepts id) :
    (s'.abi.callouts.get id).isSome ∨ ∃ e ∈ t, e.Cancels id ∨ e.Takes id := by
  refine path.relation (R := fun s t s' => (s.abi.callouts.get id).isSome ∨ (∃ e ∈ t, e.Accepts id) →
    (s'.abi.callouts.get id).isSome ∨ ∃ e ∈ t, e.Cancels id ∨ e.Takes id) ?_ ?_ ?_ hopen
  · rintro s (hopen | ⟨e, ⟨⟩, -⟩)
    exact .inl hopen
  · intro s t s' u s'' hfirst hsecond hopen
    have hmiddle : (s'.abi.callouts.get id).isSome ∨ (∃ e ∈ t, e.Cancels id ∨ e.Takes id) ∨
        ∃ e ∈ u, e.Accepts id := by
      rcases hopen with hopen | ⟨e, he, haccepts⟩
      · exact (hfirst (.inl hopen)).imp_right .inl
      · rcases List.mem_append.1 he with he | he
        · exact (hfirst (.inr ⟨e, he, haccepts⟩)).imp_right .inl
        · exact .inr (.inr ⟨e, he, haccepts⟩)
    have hlater : (s''.abi.callouts.get id).isSome ∨ (∃ e ∈ u, e.Cancels id ∨ e.Takes id) →
        (s''.abi.callouts.get id).isSome ∨ ∃ e ∈ t ++ u, e.Cancels id ∨ e.Takes id :=
      Or.imp_right fun ⟨e, he, hremoved⟩ => ⟨e, List.mem_append_right _ he, hremoved⟩
    rcases hmiddle with hopen | ⟨e, he, hremoved⟩ | haccepts
    · exact hlater (hsecond (.inl hopen))
    · exact .inr ⟨e, List.mem_append_left _ he, hremoved⟩
    · exact hlater (hsecond (.inr haccepts))
  · exact fun s t s' step => step.callouts.open_or_removed

/-- What takes a callout is a delivery of it, or a deletion. -/
theorem Session.Step.aim_of_takes {aim : Aim} (path : Steps (Session.Step aim) s t s') {e : Event}
    (he : e ∈ t) (htakes : e.Takes id) :
    (aim = .deliver id ∧ ∃ entry, e = .ended id entry) ∨ ∃ c, aim = .delete c := by
  refine path.events (I := fun _ => True) (P := fun e => e.Takes id →
    (aim = .deliver id ∧ ∃ entry, e = .ended id entry) ∨ ∃ c, aim = .delete c)
    (fun _ _ _ _ _ => trivial) ?_ trivial e he htakes
  intro s t s' _ step e he htakes
  cases step with
  | host running step => exact absurd htakes (Event.not_takes_of_ofHost (step.ofHost e he))
  | ended idle live aimed accepted =>
    cases List.mem_singleton.1 he
    cases htakes
    exact aimed.imp_left fun haim => ⟨haim, _, rfl⟩
  | dropped aimed => exact .inr ⟨_, aimed⟩
  | began | finished | returned | unwound | created | deleted =>
    cases List.mem_singleton.1 he
    exact htakes.elim
  | _ => cases he

/-! ## Callbacks that break a deletion off -/

/-- A callback takes no callout. -/
theorem Session.Performed.takes_nothing {callback : Callback} {c : ContextId} {params : List I32}
    {how : Event} (hran : s.Performed callback c params how t s') (htells : how.Tells callback c) :
    ∀ e ∈ t, ∀ id, ¬ e.Takes id := by
  obtain ⟨inner, h, path, -, rfl⟩ := hran
  intro e he id htakes
  simp only [List.mem_cons, List.mem_append, List.not_mem_nil, or_false] at he
  rcases he with rfl | he | rfl | rfl
  · exact htakes
  · exact Event.not_takes_of_ofHost (HostStep.ofHost_of_steps path e he) htakes
  · exact htakes
  · cases htells <;> exact htakes

/-- The last callback of `t` did not return, and left the callout it delivered open. -/
def BreaksOff (t : List Event) (s' : Session) : Prop :=
  ∃ before callback c callout params exported abi after,
    t = before ++ .began callback c callout params exported abi :: after ∧
    (∀ value, .returned callback c value ∉ after) ∧
    (∀ e ∈ after, ∀ id, ¬ e.Takes id) ∧
    ∀ id, callout = some id → .unwound callback c ∈ after → (s'.abi.callouts.get id).isSome

namespace BreaksOff

theorem append (h : BreaksOff t s') : BreaksOff (u ++ t) s' := by
  obtain ⟨before, callback, c, callout, params, exported, abi, after, rfl, hrest⟩ := h
  exact ⟨u ++ before, callback, c, callout, params, exported, abi, after,
    (List.append_assoc _ _ _).symm, hrest⟩

theorem congr {s'' : Session} (h : BreaksOff t s') (hcallouts : s''.abi.callouts = s'.abi.callouts) :
    BreaksOff t s'' := by
  obtain ⟨before, callback, c, callout, params, exported, abi, after, ht, hback, htakes, hopen⟩ := h
  refine ⟨before, callback, c, callout, params, exported, abi, after, ht, hback, htakes, ?_⟩
  rwa [hcallouts]

/-- **What a safe end leaves**: every callout that was taken is open again. -/
theorem get_isSome (h : BreaksOff t s') (hsafe : EndsSafely t) (htaken : ∃ e ∈ t, e.Takes id) :
    (s'.abi.callouts.get id).isSome := by
  obtain ⟨before, callback, c, callout, params, exported, abi, after, rfl, hback, htakes, hopen⟩ := h
  obtain ⟨e, he, htake⟩ := htaken
  have hbefore : e ∈ before := by
    rcases List.mem_append.1 he with he | he
    · exact he
    · rcases List.mem_cons.1 he with rfl | he
      · exact htake.elim
      · exact absurd htake (htakes e he id)
  rcases hsafe _ _ _ _ _ _ _ _ rfl id ⟨e, hbefore, htake⟩ with ⟨value, hreturned⟩ | ⟨hid, hunwound⟩
  · exact absurd hreturned (hback value)
  · exact hopen id hid hunwound

variable {callback : Callback} {c : ContextId} {params : List I32}

/-- A callback that trapped, of a guest that was lent no callout it lost. -/
theorem of_performed (hran : s.Performed callback c params (.unwound callback c) t s')
    {s'' : Session} (hopen : ∀ id, s.abi.delivery.bind (·.callout) = some id →
      (s''.abi.callouts.get id).isSome) : BreaksOff t s'' := by
  have hnothing := hran.takes_nothing .unwound
  obtain ⟨inner, h, path, -, rfl⟩ := hran
  refine ⟨[], callback, c, _, params, _, _, _, rfl, fun value hmem => ?_,
    fun e he => hnothing e (.tail _ he), fun id hid _ => hopen id hid⟩
  simp only [List.mem_append, List.mem_cons, List.not_mem_nil, reduceCtorEq, or_false] at hmem
  cases HostStep.ofHost_of_steps path _ hmem

/-- A callback in which embedder code panicked. -/
theorem of_stuck (hstuck : s.Stuck callback c params t s') (s'' : Session) : BreaksOff t s'' := by
  obtain ⟨inner, h, path, -, rfl⟩ := hstuck
  have hhost := HostStep.ofHost_of_steps path
  refine ⟨[], callback, c, _, params, _, _, _, rfl, fun value hmem => ?_, fun e he id htakes => ?_,
    fun id hid hmem => ?_⟩
  · cases hhost _ hmem
  · exact Event.not_takes_of_ofHost (hhost e he) htakes
  · cases hhost _ hmem

end BreaksOff

/-! ## The deletion -/

section Deletion

variable {c root : ContextId} {codes : CalloutId → Code} {code : Code}

/-- Exactly the callouts of `ended` were taken in `t`. -/
def Collects (ended : List CalloutId) (t : List Event) : Prop :=
  ∀ id, id ∈ ended ↔ ∃ e ∈ t, e.Takes id

theorem Collects.nil (h : ∀ e ∈ t, ∀ id, ¬ e.Takes id) : Collects [] t := fun id =>
  iff_of_false (by rintro ⟨⟩) fun ⟨e, he, htakes⟩ => h e he id htakes

theorem Collects.append_nil {ended : List CalloutId} (h : Collects ended t)
    (hu : ∀ e ∈ u, ∀ id, ¬ e.Takes id) : Collects ended (t ++ u) := by
  intro id
  rw [h id]
  constructor
  · rintro ⟨e, he, htakes⟩
    exact ⟨e, List.mem_append_left _ he, htakes⟩
  · rintro ⟨e, he, htakes⟩
    rcases List.mem_append.1 he with he | he
    · exact ⟨e, he, htakes⟩
    · exact absurd htakes (hu e he id)

theorem Collects.append {ended failed : List CalloutId} (h : Collects ended t)
    (h' : Collects failed u) : Collects (ended ++ failed) (t ++ u) := by
  intro id
  simp only [List.mem_append, h id, h' id, or_and_right, exists_or]

/-- A live guest that delivers nothing. -/
def Session.Undelivered (s : Session) : Prop := s.Live ∧ s.abi.delivery = none

section Failure

variable {kind : CalloutKind} {entry : Callout}

theorem takes_failure : (failure root id kind).takes = some id := by
  cases kind <;> rfl

theorem callout_failure : (failure root id kind).delivery.callout = some id := by
  cases kind <;> rfl

theorem context_failure : (failure root id kind).context = root := by
  cases kind <;> rfl

namespace Session

theorem taking_failure (hget : s.abi.callouts.get id = some entry) :
    s.taking (failure root id kind) = [.ended id (some entry)] := by
  unfold taking
  rw [takes_failure, Option.map_some, hget]
  rfl

/-- The guest is lent the callout that fails. -/
theorem delivery_failure (s : Session) :
    (s.lending (failure root id kind)).abi.delivery.bind (·.callout) = some id := by
  rw [s.delivery_lending]
  exact callout_failure

theorem lending_failure (s : Session) : s.lending (failure root id kind) =
    (s.mapCallouts (·.remove id)).mapAbi fun abi =>
      { abi with delivery := some (failure root id kind).delivery } := by
  unfold lending
  rw [takes_failure]

/-- The failed callout comes back when the guest did not survive. -/
theorem settled_failure (hget : s.abi.callouts.get id = some entry) (s₁ : Session) :
    s.settled (failure root id kind) s₁ = if s₁.host.poisoned then
      (s₁.mapAbi fun abi => { abi with delivery := none }).mapCallouts (·.enter id entry)
    else s₁.mapAbi fun abi => { abi with delivery := none } := by
  unfold settled entryOf
  rw [takes_failure, Option.bind_some, hget]
  rfl

end Session

/-- **One failure delivery** takes its callout, or leaves it open when the guest traps. -/
theorem deliverFailure_collects (hs : s.Undelivered)
    (hopen : (s.abi.callouts.get id).isSome) :
    Leaves (deliver (failure root id kind) code)
      (fun _ t s' => s'.Undelivered ∧ Collects [id] t) (fun _ => BreaksOff) BreaksOff s := by
  obtain ⟨entry, hget⟩ := Option.isSome_iff_exists.1 hopen
  refine (deliver_leaves hs.1).mono ?_ ?_ ?_
  · rintro _ t s' ⟨value, ⟨u, s₁, hran, rfl, rfl⟩, hover⟩
    refine ⟨⟨?_, s.delivery_settled _ s₁⟩, ?_⟩
    · cases hover with
      | returned value live => exact live
    · rw [taking_failure hget]
      refine Collects.append_nil (fun x => ?_) (hran.takes_nothing (.returned value))
      simp [Event.Takes, eq_comm]
  · rintro e t s' ⟨⟨u, s₁, hran, rfl, rfl⟩, hover, -⟩
    refine BreaksOff.append (.of_performed hran fun x hx => ?_)
    rw [s.delivery_failure] at hx
    cases hx
    have hpoisoned : s₁.host.poisoned = true := by
      cases hover with
      | unwound poisoned => exact (s.poisoned_settled _ s₁).symm.trans poisoned
    rw [settled_failure hget, if_pos hpoisoned, callouts_mapCallouts, CalloutTable.get_enter,
      if_pos rfl]
    rfl
  · rintro t s' ⟨⟨u, hstuck, rfl⟩, -⟩
    exact BreaksOff.append (.of_stuck hstuck s')

end Failure

theorem failEach_collects (rest : List (CalloutId × CalloutKind)) (hs : s.Undelivered) :
    Leaves (failEach root codes rest) (fun ended t s' => s'.Undelivered ∧ Collects ended t)
      (fun _ => BreaksOff) BreaksOff s := by
  induction rest generalizing s with
  | nil => exact .pure ⟨hs, .nil (by rintro e ⟨⟩)⟩
  | cons entry rest ih =>
    obtain ⟨id, kind⟩ := entry
    rw [failEach_cons]
    refine .bind_read ?_
    cases hget : s.abi.callouts.get id with
    | none => exact ih hs
    | some entry =>
      refine .bind (deliverFailure_collects hs (by rw [hget]; rfl)) ?_
      rintro _ t s' ⟨hs', hone⟩
      refine .bind (M := fun ended u s'' => s''.Undelivered ∧ Collects (id :: ended) (t ++ u))
        ((ih hs').mono ?_ (fun _ _ _ h => h.append) fun _ _ h => h.append) ?_
      · exact fun ended u s'' ⟨hs'', hrest⟩ => ⟨hs'', hone.append hrest⟩
      · rintro ended u s'' ⟨hs'', hall⟩
        refine .pure ⟨hs'', ?_⟩
        rwa [List.append_nil]

theorem dropOpenCallouts_collects (s : Session) :
    Leaves (dropOpenCallouts c) (fun dropped t s' => s' =
        (s.mapCallouts fun table => dropped.foldl .remove table) ∧ Collects dropped t)
      (fun _ _ _ => False) (fun _ _ => False) s := by
  refine .bind_read (.bind_act (.pure ⟨rfl, fun id => ?_⟩))
  simp [Event.Takes]

theorem failOpenCallouts_collects (hs : s.Undelivered) :
    Leaves (failOpenCallouts c root codes) (fun ended t s' => s'.Undelivered ∧ Collects ended t)
      (fun _ => BreaksOff) BreaksOff s := by
  unfold failOpenCallouts
  refine .bind_read (.bind_read ?_)
  split
  · refine (dropOpenCallouts_collects s).mono ?_ (fun _ _ _ => False.elim) fun _ _ => False.elim
    rintro dropped t _ ⟨rfl, hcollects⟩
    exact ⟨⟨⟨hs.1.idle, hs.1.live⟩, hs.2⟩, hcollects⟩
  · exact failEach_collects _ hs

/-- The callback of the deletion takes nothing. -/
theorem runDelete_collects (hs : s.Undelivered) :
    Leaves (run c .delete [c.wire] code 0) (fun _ t s' => s'.Undelivered ∧ Collects [] t)
      (fun _ => BreaksOff) BreaksOff s := by
  have hnone : ∀ id, s.abi.delivery.bind (·.callout) ≠ some id := by
    rw [hs.2]
    rintro id ⟨⟩
  refine (run_over hs.1).mono ?_ ?_ ?_
  · rintro value t s' ⟨hran, hover⟩
    have hnothing := hran.takes_nothing (.returned value)
    obtain ⟨inner, h, path, rfl, rfl⟩ := hran
    refine ⟨⟨?_, (HostKeeps.of_steps path).delivery.trans hs.2⟩, .nil hnothing⟩
    cases hover with
    | returned value live => exact live
  · rintro e t s' ⟨hran, -⟩
    exact .of_performed hran fun id hid => absurd hid (hnone id)
  · rintro t s' ⟨hstuck, -⟩
    exact .of_stuck hstuck s'

theorem Session.Undelivered.of_remove {isRoot : Bool} (hs : s.Undelivered) :
    (s.mapAbi (·.removeContext c isRoot)).Undelivered := by
  cases isRoot <;> exact ⟨⟨hs.1.idle, hs.1.live⟩, hs.2⟩

/-- What ends a deletion that has collected `ended` in `t`. -/
theorem restOfDelete_collects {ended : List CalloutId} {m : Method (List CalloutId)}
    (hended : Collects ended t) (hm : Leaves m (fun failed u s' => s'.Undelivered ∧
      Collects failed u) (fun _ => BreaksOff) BreaksOff s) :
    Leaves (do
      let failed ← m
      let dropped ← dropOpenCallouts c
      return ended ++ failed ++ dropped) (fun all u _ => Collects all (t ++ u))
      (fun _ u s' => BreaksOff (t ++ u) s') (fun u s' => BreaksOff (t ++ u) s') s := by
  refine .bind (hm.mono (fun _ _ _ h => h) (fun _ _ _ h => h.append) fun _ _ h => h.append) ?_
  rintro failed u s' ⟨-, hfailed⟩
  refine .bind ((dropOpenCallouts_collects s').mono (fun _ _ _ h => h) (fun _ _ _ => False.elim)
    fun _ _ => False.elim) ?_
  rintro dropped v _ ⟨-, hdropped⟩
  refine .pure ?_
  rw [List.append_nil, ← List.append_assoc]
  exact (hended.append hfailed).append hdropped

/-- **A deletion** collects what it takes, or breaks off. -/
theorem delete_collects (hs : s.Undelivered) :
    Leaves (delete c codes code) (fun ended t _ => Collects ended t) (fun _ => BreaksOff)
      BreaksOff s := by
  have hdeleted : ∀ abi, ∀ e ∈ [Event.deleted c abi], ∀ id, ¬ e.Takes id := by
    simp [Event.Takes]
  unfold delete
  refine .bind_read ?_
  dsimp only
  cases s.abi.contexts.parent c with
  | none =>
    refine .bind (failOpenCallouts_collects hs) ?_
    rintro ended t₁ s₁ ⟨hs₁, hended⟩
    refine .bind ((runDelete_collects hs₁).mono (fun _ _ _ h => h) (fun _ _ _ h => h.append)
      fun _ _ h => h.append) ?_
    rintro _ t₂ s₂ ⟨hs₂, hnone⟩
    have hall := (hended.append hnone).append_nil (hdeleted s₂.abi)
    rw [List.append_nil] at hall
    refine .bind_act ?_
    dsimp only
    refine (restOfDelete_collects (s := s₂.mapAbi (·.removeContext c true)) hall
      (.pure ⟨hs₂.of_remove, .nil ?_⟩)).mono ?_ ?_ ?_
    · rintro e ⟨⟩
    · exact fun _ _ _ h => by simpa using h
    · exact fun _ _ _ h => by simpa using h
    · exact fun _ _ h => by simpa using h
  | some root =>
    refine .bind (M := fun ended t s' => (ended = [] ∧ t = []) ∧ s' = s) (.pure ⟨⟨rfl, rfl⟩, rfl⟩) ?_
    rintro _ _ _ ⟨⟨rfl, rfl⟩, rfl⟩
    refine .bind (runDelete_collects hs) ?_
    rintro _ t₂ s₂ ⟨hs₂, hnone⟩
    refine .bind_act ?_
    dsimp only
    refine (restOfDelete_collects (s := s₂.mapAbi (·.removeContext c false))
      (hnone.append_nil (hdeleted s₂.abi)) (failOpenCallouts_collects hs₂.of_remove)).mono ?_ ?_ ?_
    · exact fun _ _ _ h => by simpa using h
    · exact fun _ _ _ h => by simpa using h
    · exact fun _ _ h => by simpa using h

/-- **What an `on_delete` takes**, it answers; one that fails has taken nothing, or broke off. -/
theorem onDelete_collects (hs : s.Rested) :
    Leaves (onDelete c codes code) (fun ended t _ => Collects ended t)
      (fun _ t s' => (∀ e ∈ t, ∀ id, ¬ e.Takes id) ∨ BreaksOff t s')
      (fun t s' => (∀ e ∈ t, ∀ id, ¬ e.Takes id) ∨ BreaksOff t s') s := by
  have hnil : ∀ e ∈ ([] : List Event), ∀ id, ¬ e.Takes id := by rintro e ⟨⟩
  have hserved : Reaches (.delete c) s (requireServedStream c) fun _ s₁ => LetThrough c s s₁ :=
    requireServedStream_reaches hs
  unfold onDelete
  refine .bind ((requireLive_leaves s).mono (fun _ _ _ h => h) ?_ fun _ _ => False.elim) ?_
  · rintro e t s' ⟨rfl, -⟩
    exact .inl hnil
  · rintro _ _ _ ⟨rfl, rfl, hlive⟩
    have hready := hs.ready hlive
    refine .bind (((requireServedStream_silent _ c).and (.of_follows hserved)).mono
      (fun _ _ _ h => h) ?_ ?_) ?_
    · rintro e t s' ⟨⟨rfl, -⟩, -⟩
      exact .inl hnil
    · rintro t s' ⟨⟨rfl, -⟩, -⟩
      exact .inl hnil
    · rintro _ _ s₁ ⟨⟨rfl, -⟩, -, hlet⟩
      have hready₁ := hlet.ready hready
      refine .bind_finds requireDeletable_finds (fun _ _ => ?_) (fun _ => .inl hnil) (.inl hnil)
      refine .bind_modify ?_
      refine .bind (M := fun result t s' => (∀ ended, result = .ok ended → Collects ended t) ∧
        ((∃ e, result = .error e) → BreaksOff t s')) (.attempt ((delete_collects ?_).mono ?_ ?_ ?_)) ?_
      · exact ⟨⟨hready₁.idle, hready₁.live⟩, hready₁.undelivered⟩
      · rintro ended t s' h
        exact ⟨by rintro _ ⟨⟩; exact h, by rintro ⟨e, ⟨⟩⟩⟩
      · rintro e t s' h
        exact ⟨by rintro _ ⟨⟩, fun _ => h⟩
      · exact fun t s' h => .inr h
      · rintro result t s' ⟨hok, herror⟩
        refine .bind_modify ?_
        cases result with
        | ok ended => exact .pure (by rw [List.append_nil]; exact hok ended rfl)
        | error e =>
          refine .throw (.inr ?_)
          rw [List.append_nil]
          exact (herror ⟨e, rfl⟩).congr rfl

end Deletion

/-! ## The deliveries that end nothing -/

/-- The callout whose end a call of the embedder may deliver. -/
def Op.endsCallout : Op → Option CalloutId
  | .onHttpCallResponse _ callout _ _ | .onGrpcReceive _ callout _ _ | .onGrpcClose _ callout _ _ =>
    some callout
  | _ => none

/-- A delivery of metadata takes no callout. -/
theorem metadata_takes_nothing {c : ContextId} {code : Code} {size : ℕ}
    {call : Callout → UInt32 → Delivered} (hends : ∀ entry count, (call entry count).ends = false)
    (s : Session) :
    Leaves (do
      requireLive
      let entry ← grpcAccepted c id
      let count ← wireSize size
      deliver (call entry count) code) (fun _ t _ => ∀ e ∈ t, ∀ id, ¬ e.Takes id)
      (fun _ t _ => ∀ e ∈ t, ∀ id, ¬ e.Takes id) (fun t _ => ∀ e ∈ t, ∀ id, ¬ e.Takes id) s := by
  have hnil : ∀ e ∈ ([] : List Event), ∀ id, ¬ e.Takes id := by rintro e ⟨⟩
  refine .bind ((requireLive_leaves s).mono (fun _ _ _ h => h) ?_ fun _ _ => False.elim) ?_
  · rintro e t s' ⟨rfl, -⟩
    exact hnil
  · rintro _ _ s₁ ⟨rfl, rfl, hlive⟩
    refine .bind_finds grpcAccepted_finds (fun entry _ => ?_) (fun _ => hnil) hnil
    refine .bind_finds wireSize_finds (fun count _ => ?_) (fun _ => hnil) hnil
    have htaking : s₁.taking (call entry count) = [] := by
      unfold Session.taking Delivered.takes
      rw [hends]
      rfl
    refine (deliver_leaves hlive).mono ?_ ?_ ?_
    · rintro _ t s' ⟨value, ⟨u, s₂, hran, rfl, rfl⟩, -⟩
      rw [htaking]
      exact hran.takes_nothing (.returned value)
    · rintro _ t s' ⟨⟨u, s₂, hran, rfl, rfl⟩, -⟩
      rw [htaking]
      exact hran.takes_nothing .unwound
    · rintro t s' ⟨⟨u, ⟨inner, h, path, -, rfl⟩, rfl⟩, -⟩
      rw [htaking]
      intro e he id htakes
      rcases List.mem_cons.1 he with rfl | he
      · exact htakes
      · exact Event.not_takes_of_ofHost (HostStep.ofHost_of_steps path e he) htakes

/-! ## Calls -/

/-- The embedder hears that a callout is over: it delivers the end, its service sees the cancel,
    or an `on_delete` lists it. -/
inductive Signalled (calls : List Call) (past : List Event) (id : CalloutId) : Prop
  | delivered {call : Call} (made : call ∈ calls) (ends : call.op.endsCallout = some id)
      {entry : Option Callout} (ended : .ended id entry ∈ call.trace)
  | cancelled {e : Event} (seen : e ∈ past) (cancels : e.Cancels id)
  | listed {call : Call} {c : ContextId} {codes : CalloutId → Code} {code : Code}
      {ids : List CalloutId} (made : call ∈ calls) (deletes : call.op = .onDelete c codes code)
      (answered : call.exit = .ok (.callouts ids)) (member : id ∈ ids)

theorem Signalled.mono {calls calls' : List Call} {past past' : List Event}
    (h : Signalled calls past id) (hcalls : ∀ call ∈ calls, call ∈ calls')
    (hpast : ∀ e ∈ past, e ∈ past') : Signalled calls' past' id := by
  cases h with
  | delivered made ends ended => exact .delivered (hcalls _ made) ends ended
  | cancelled seen cancels => exact .cancelled (hpast _ seen) cancels
  | listed made deletes answered member => exact .listed (hcalls _ made) deletes answered member

/-- **What an `on_delete` took** is in its answer, or open again when it ends safely. -/
theorem Session.CallPath.taken {call : Call} {c : ContextId} {codes : CalloutId → Code}
    {code : Code} (hpath : s.CallPath call s') (hop : call.op = .onDelete c codes code)
    (hsafe : EndsSafely call.trace) (htaken : ∃ e ∈ call.trace, e.Takes id) :
    (s'.abi.callouts.get id).isSome ∨ ∃ ids, call.exit = .ok (.callouts ids) ∧ id ∈ ids := by
  have hleaves : Leaves (Op.onDelete c codes code).perform
      (fun r t _ => ∃ ended, r = .callouts ended ∧ Collects ended t)
      (fun _ t s' => (∀ e ∈ t, ∀ id, ¬ e.Takes id) ∨ BreaksOff t s')
      (fun t s' => (∀ e ∈ t, ∀ id, ¬ e.Takes id) ∨ BreaksOff t s') s :=
    replying_leaves _ (onDelete_collects hpath.rested)
  rw [← hop] at hleaves
  unfold Leaves at hleaves
  rw [← hpath.trace, ← hpath.exit, ← hpath.last] at hleaves
  have hfailed : (∀ e ∈ call.trace, ∀ id, ¬ e.Takes id) ∨ BreaksOff call.trace s' →
      (s'.abi.callouts.get id).isSome := by
    rintro (hnone | hbreaks)
    · obtain ⟨e, he, htakes⟩ := htaken
      exact absurd htakes (hnone e he id)
    · exact hbreaks.get_isSome hsafe htaken
  cases hexit : call.exit with
  | ok reply =>
    rw [hexit] at hleaves
    obtain ⟨ended, rfl, hcollects⟩ := hleaves
    exact .inr ⟨ended, rfl, (hcollects id).2 htaken⟩
  | err e =>
    rw [hexit] at hleaves
    exact .inl (hfailed hleaves)
  | panicked =>
    rw [hexit] at hleaves
    exact .inl (hfailed hleaves)

/-- **A call of the embedder** loses no callout, unless it is an `on_delete` that does not end
    safely. -/
theorem Session.CallPath.signals {call : Call} (hpath : s.CallPath call s')
    (hsafe : ∀ c codes code, call.op = .onDelete c codes code → EndsSafely call.trace)
    (hopen : (s.abi.callouts.get id).isSome ∨ ∃ e ∈ call.trace, e.Accepts id) :
    (s'.abi.callouts.get id).isSome ∨ Signalled [call] call.trace id := by
  rcases Session.Step.open_or_removed_of_steps hpath.path hopen with hopen | ⟨e, he, hcancels | htakes⟩
  · exact .inl hopen
  · exact .inr (.cancelled he hcancels)
  · rcases Session.Step.aim_of_takes hpath.path he htakes with ⟨haim, entry, rfl⟩ | ⟨c, haim⟩
    · have hmetadata : ∀ {m : Method Unit} {reply : Unit → Reply},
          call.op.perform = replying m reply →
          Leaves m (fun _ t _ => ∀ e ∈ t, ∀ id, ¬ e.Takes id)
            (fun _ t _ => ∀ e ∈ t, ∀ id, ¬ e.Takes id) (fun t _ => ∀ e ∈ t, ∀ id, ¬ e.Takes id) s →
          False := by
        intro m reply hop hleaves
        rw [hpath.trace, hop, (replying_run m reply s).1] at he
        unfold Leaves at hleaves
        cases hexit : (m.run s).exit <;> rw [hexit] at hleaves <;> exact hleaves _ he id rfl
      cases hop : call.op with
      | onHttpCallResponse | onGrpcReceive | onGrpcClose =>
        rw [hop] at haim
        cases haim
        exact .inr (.delivered (.head _) (by rw [hop]; rfl) he)
      | onGrpcReceiveInitialMetadata | onGrpcReceiveTrailingMetadata =>
        exact (hmetadata (by rw [hop]; rfl) (metadata_takes_nothing (fun _ _ => rfl) s)).elim
      | _ => rw [hop] at haim; cases haim
    · cases hop : call.op with
      | onDelete c' codes code =>
        rcases hpath.taken hop (hsafe _ _ _ hop) ⟨e, he, htakes⟩ with hopen | ⟨ids, hexit, hid⟩
        · exact .inl hopen
        · exact .inr (.listed (.head _) hop hexit hid)
      | _ => rw [hop] at haim; cases haim

/-! ## Runs -/

/-- **Every callout that the service takes** is open, or the embedder heard that it is over, in
    every run whose deletions end safely. -/
theorem Run.callouts_signalled (r : Run)
    (hsafe : ∀ call ∈ r.calls, ∀ c codes code, call.op = .onDelete c codes code →
      EndsSafely call.trace) (id : CalloutId) (haccepted : ∃ e ∈ r.trace, e.Accepts id) :
    (r.last.abi.callouts.get id).isSome ∨ Signalled r.calls r.trace id := by
  refine r.induction (I := fun calls s => (∃ e ∈ r.creation ++ calls.flatMap Call.trace,
    e.Accepts id) → (s.abi.callouts.get id).isSome ∨
      Signalled calls (r.creation ++ calls.flatMap Call.trace) id) ?_ ?_ haccepted
  · intro hmade
    rw [List.flatMap_nil, List.append_nil] at hmade ⊢
    have hpath := r.fresh_ready.1
    rcases Session.Step.open_or_removed_of_steps hpath (.inr hmade) with hopen | ⟨e, he, hcancels | htakes⟩
    · exact .inl hopen
    · exact .inr (.cancelled he hcancels)
    · rcases Session.Step.aim_of_takes hpath he htakes with ⟨⟨⟩, -⟩ | ⟨c, ⟨⟩⟩
  · intro past s call s' hpast hcall hpath hmade
    rw [List.flatMap_append, List.flatMap_singleton, ← List.append_assoc] at hmade ⊢
    have hold : (∃ e ∈ r.creation ++ past.flatMap Call.trace, e.Accepts id) →
        (s.abi.callouts.get id).isSome ∨
          Signalled (past ++ [call]) (r.creation ++ past.flatMap Call.trace ++ call.trace) id := by
      intro hmade
      exact (hpast hmade).imp_right fun h => h.mono (fun _ => List.mem_append_left _)
        fun _ => List.mem_append_left _
    have hnew : (s.abi.callouts.get id).isSome ∨ (∃ e ∈ call.trace, e.Accepts id) →
        (s'.abi.callouts.get id).isSome ∨
          Signalled (past ++ [call]) (r.creation ++ past.flatMap Call.trace ++ call.trace) id := by
      intro hopen
      exact (hpath.signals (hsafe call hcall) hopen).imp_right fun h =>
        h.mono (fun _ => List.mem_append_right _) fun _ => List.mem_append_right _
    obtain ⟨e, he, haccepts⟩ := hmade
    rcases List.mem_append.1 he with he | he
    · rcases hold ⟨e, he, haccepts⟩ with hopen | hsignalled
      · exact hnew (.inl hopen)
      · exact .inr hsignalled
    · exact hnew (.inr ⟨e, he, haccepts⟩)

/-! ## Roots that are deleted with open streams -/

namespace Signals

open Openings

/-- The second stream of a root. -/
def second : CalloutId := CalloutTable.new.advance.next

/-- A root with two streams is deleted: the guest traps in the second close. -/
def losing : Run :=
  .of 10 .bare ⟨[], .info, [], [], 1, 2⟩ (.atMost none)
    [.enter .noStream, .onContextCreate none (.returning 0), .onTick .min openStream,
      .onTick .min openStream, .onDone .min (.returning 1),
      .onDelete .min (fun id => if id = .min then .returning 0 else .unwind (.trap ""))
        (.returning 0)]
    rfl (by decide)

/-- The first stream is neither open nor in an answer. -/
theorem losing_unsignalled : ¬ ∀ r : Run, (reservedIn r.trace).length < 2 ^ 32 - 1 →
    r.last.abi.currentCallback = none → ∀ id, (∃ e ∈ r.trace, e.Accepts id) →
      (r.last.abi.callouts.get id).isSome ∨ Signalled r.calls r.trace id := by
  intro hall
  have hevents : ∃ call call' request request' entry entry',
      losing.trace.filter Event.ofCallouts =
        [.callout 2 call .min (.grpcStream request) (some (.ok ())),
          .callout 2 call' second (.grpcStream request') (some (.ok ())), .ended .min entry,
          .ended second entry'] := ⟨_, _, _, _, _, _, rfl⟩
  obtain ⟨call, call', request, request', entry, entry', hevents⟩ := hevents
  have htold : ∀ e, e.ofCallouts = true → (e ∈ losing.trace ↔
      e ∈ [Event.callout 2 call .min (.grpcStream request) (some (.ok ())),
        .callout 2 call' second (.grpcStream request') (some (.ok ())), .ended .min entry,
        .ended second entry']) := by
    intro e he
    rw [← hevents, List.mem_filter, and_iff_left he]
  have hcalls : ∀ call ∈ losing.calls, call.op.endsCallout = none ∧
      ∀ ids, call.exit ≠ .ok (.callouts ids) := by
    refine List.forall_mem_cons.2 ⟨⟨rfl, ?_⟩, List.forall_mem_cons.2 ⟨⟨rfl, ?_⟩,
      List.forall_mem_cons.2 ⟨⟨rfl, ?_⟩, List.forall_mem_cons.2 ⟨⟨rfl, ?_⟩,
        List.forall_mem_cons.2 ⟨⟨rfl, ?_⟩, List.forall_mem_cons.2 ⟨⟨rfl, ?_⟩,
          List.forall_mem_nil _⟩⟩⟩⟩⟩⟩ <;> rintro ids ⟨⟩
  have haccepted : ∃ e ∈ losing.trace, e.Accepts .min :=
    ⟨.callout 2 call .min (.grpcStream request) (some (.ok ())), (htold _ rfl).2 (.head _),
      rfl, rfl, rfl⟩
  rcases hall losing (by decide) rfl .min haccepted with hopen | hsignalled
  · exact absurd hopen (by decide)
  · cases hsignalled with
    | delivered made ends ended =>
      rw [(hcalls _ made).1] at ends
      cases ends
    | @cancelled e seen cancels =>
      cases e with
      | callout service call x op answer =>
        obtain ⟨rfl, rfl⟩ := cancels
        have hmem := (htold _ rfl).1 seen
        simp at hmem
      | _ => exact cancels
    | listed made deletes answered member => exact (hcalls _ made).2 _ answered

/-- A deletion whose first delivery traps ends safely. -/
theorem endsSafely_of_first (id : CalloutId) (entry : Option Callout) (callback : Callback)
    (c : ContextId) (params : List I32) (exported : Bool) (abi abi' : AbiState) :
    EndsSafely [.ended id entry, .began callback c (some id) params exported abi, .finished abi',
      .unwound callback c] := by
  rintro before callback' c' callout params' exported' abi₁ after ht x ⟨e, he, htakes⟩
  rcases before with _ | ⟨_, _ | ⟨_, _ | ⟨_, _ | ⟨_, before⟩⟩⟩⟩
  · cases ht
  · cases ht
    cases List.mem_singleton.1 he
    cases htakes
    exact .inr ⟨rfl, by simp⟩
  · cases ht
  · cases ht
  · simp at ht

/-- A root with one stream is deleted: the guest traps in its close. -/
def keeping : Run :=
  .of 11 .bare ⟨[], .info, [], [], 1, 2⟩ (.atMost none)
    [.enter .noStream, .onContextCreate none (.returning 0), .onTick .min openStream,
      .onDone .min (.returning 1), .onDelete .min (fun _ => .unwind (.trap "")) (.returning 0)]
    rfl (by decide)

/-- The stream is open again. -/
theorem keeping_signalled : (keeping.last.abi.callouts.get .min).isSome ∨
    Signalled keeping.calls keeping.trace .min := by
  refine keeping.callouts_signalled ?_ .min ?_
  · refine List.forall_mem_cons.2 ⟨?_, List.forall_mem_cons.2 ⟨?_, List.forall_mem_cons.2 ⟨?_,
      List.forall_mem_cons.2 ⟨?_, List.forall_mem_cons.2 ⟨?_, List.forall_mem_nil _⟩⟩⟩⟩⟩
    case refine_5 => exact fun _ _ _ _ => endsSafely_of_first _ _ _ _ _ _ _ _
    all_goals rintro c codes code ⟨⟩
  · have hevent : ∃ call request, keeping.trace[6]? =
        some (.callout 2 call .min (.grpcStream request) (some (.ok ()))) := ⟨_, _, rfl⟩
    obtain ⟨call, request, hevent⟩ := hevent
    exact ⟨_, List.mem_of_getElem? hevent, rfl, rfl, rfl⟩

end Signals

end ProxyWasmHost
