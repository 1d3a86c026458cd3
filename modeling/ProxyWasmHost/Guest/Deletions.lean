/-
  What an `on_delete` answers: exactly the callouts that ended with the context, each with one
  failure delivery, whatever the guest does in the callbacks in between.
-/
import ProxyWasmHost.Guest.DeletionStages

namespace ProxyWasmHost

open Prog Session Prologue CalloutTable

variable {s s' : Session} {h h' : HostState} {past t u : List Event} {id : CalloutId}
  {c : ContextId} {table table' table'' : CalloutTable}

/-! ## The answer -/

/-- **What an `on_delete` of `c` that answers `ended` leaves**: exactly the callouts of `c` that were
    open and that the guest did not cancel ended, each with one failure delivery to `root`. -/
structure DeletesExactly (c root : ContextId) (s : Session) (ended : List CalloutId)
    (t : List Event) (s' : Session) : Prop where
  ascending : ended.Pairwise fun x y => x.val < y.val
  listed : ∀ id, id ∈ ended ↔ (∃ entry, s.abi.callouts.get id = some entry ∧ entry.caller = c) ∧
    ∀ e ∈ t, ¬ e.Cancels id
  failed : s.abi.contexts.rejectionOf root = none → ∃ before exported abi after,
    t = before ++ .began .delete c none [c.wire] exported abi :: after ∧
    ∀ id entry, id ∈ ended → s.abi.callouts.get id = some entry →
      if root = c then FailedOnce root id entry.kind before ∧ deliveriesOf id after = []
      else deliveriesOf id before = [] ∧ FailedOnce root id entry.kind after
  refused : s.abi.contexts.rejectionOf root ≠ none → ∀ id, deliveriesOf id t = []
  emptied : ∀ id entry, s'.abi.callouts.get id = some entry → entry.caller ≠ c
  absent : s'.abi.contexts.get c = none
  others : ∀ id entry, s.abi.callouts.get id = some entry → entry.caller ≠ c →
    (∀ e ∈ t, ¬ e.Cancels id) →
      ∃ entry', s'.abi.callouts.get id = some entry' ∧ entry'.report id = entry.report id
  opened : ∀ e ∈ t, ∀ id caller kind, e.Opens id caller kind → caller ≠ c ∧
    ((∀ e ∈ t, ¬ e.Cancels id) → ∃ entry, s'.abi.callouts.get id = some entry ∧
      entry.caller = caller ∧ entry.kind = kind)
  live : s'.Live

/-- A deletion reads and leaves callouts and contexts. -/
theorem DeletesExactly.congr {s₀ s₀' : Session} {root : ContextId} {ended : List CalloutId}
    (h : DeletesExactly c root s ended t s') (hcallouts : s₀.abi.callouts = s.abi.callouts)
    (hcontexts : s₀.abi.contexts = s.abi.contexts)
    (hcallouts' : s₀'.abi.callouts = s'.abi.callouts)
    (hcontexts' : s₀'.abi.contexts = s'.abi.contexts) (hlive : s₀'.Live) :
    DeletesExactly c root s₀ ended t s₀' := by
  constructor
  · exact h.ascending
  · rw [hcallouts]
    exact h.listed
  · rw [hcontexts, hcallouts]
    exact h.failed
  · rw [hcontexts]
    exact h.refused
  · rw [hcallouts']
    exact h.emptied
  · rw [hcontexts']
    exact h.absent
  · rw [hcallouts, hcallouts']
    exact h.others
  · rw [hcallouts']
    exact h.opened
  · exact hlive

/-- No event both cancels a callout and takes it. -/
theorem Event.not_cancels_of_takes {e : Event} (h : e.Takes id) : ¬ e.Cancels id := by
  cases e <;> first | exact h.elim | exact False.elim

theorem Deleted.exactly {root : ContextId} {ended : List CalloutId}
    (h : Deleted c root past s ended t s') (hnum : s.abi.callouts.Numbered past) :
    DeletesExactly c root s ended t s' where
  ascending := h.ascending
  listed id := by
    constructor
    · intro hid
      have htaken := (h.collects id).1 hid
      obtain ⟨entry, hget, hcaller⟩ := h.tended.taken id htaken
      refine ⟨⟨entry, hget, hcaller⟩, fun e he hcancels => ?_⟩
      obtain ⟨e', he', htakes⟩ := htaken
      have hne : e ≠ e' := by
        rintro rfl
        exact Event.not_cancels_of_takes htakes hcancels
      have : Std.Symm fun e e' : Event => e.Removes id → ¬ e'.Removes id :=
        ⟨fun _ _ hfirst hlater hremoves => hfirst hremoves hlater⟩
      have honce := (h.tended.once id (hnum.mem_of_get hget)).forall he he' hne
      exact honce (.inl hcancels) (.inr htakes)
    · rintro ⟨⟨entry, hget, hcaller⟩, hspared⟩
      refine (h.collects id).2 ?_
      by_contra hnone
      obtain ⟨entry', hget', hreport⟩ := h.tended.kept id entry hget fun e he hremoves =>
        hremoves.elim (hspared e he) fun htakes => hnone ⟨e, he, htakes⟩
      exact h.emptied id entry' hget' ((congrArg OpenCallout.caller hreport).trans hcaller)
  failed := h.failed
  refused := h.refused
  emptied := h.emptied
  absent := h.absent
  others id entry hget hother hspared := by
    refine h.tended.kept id entry hget fun e he hremoves => ?_
    rcases hremoves with hcancels | htakes
    · exact hspared e he hcancels
    · obtain ⟨entry', hget', hcaller⟩ := h.tended.taken id ⟨e, he, htakes⟩
      rw [hget] at hget'
      cases hget'
      exact hother hcaller
  opened e he id caller kind hopens := by
    obtain ⟨hfresh, hother, hentry⟩ := h.tended.opened e he id caller kind hopens
    refine ⟨hother, fun hspared => hentry fun e' he' hremoves => ?_⟩
    rcases hremoves with hcancels | htakes
    · exact hspared e' he' hcancels
    · obtain ⟨entry, hget, -⟩ := h.tended.taken id ⟨e', he', htakes⟩
      exact hfresh (hnum.mem_of_get hget)
  live := h.undelivered.1

/-- What a deletion proper that gets through leaves. -/
theorem delete_yields {codes : CalloutId → Code} {code : Code} (hs : s.Removing c past)
    (hwf : s.abi.contexts.WellFormed) (hknown : (s.abi.contexts.get c).isSome) :
    Yields past (delete c codes code) (fun ended t s' => ∃ root,
      s.abi.contexts.rootOf c = some root ∧ DeletesExactly c root s ended t s') s := by
  have hroot := ContextTable.rootOf_of_get hknown
  cases hparent : s.abi.contexts.parent c with
  | none =>
    rw [hparent, Option.getD_none] at hroot
    exact (deleteRoot_yields hs hparent).mono fun _ _ _ h => ⟨c, hroot, h.exactly hs.numbered⟩
  | some root =>
    rw [hparent, Option.getD_some] at hroot
    have htype := hwf.contextType_of_rootOf hroot
    have hne : root ≠ c := by
      rintro rfl
      rw [hwf.parent_eq_none htype] at hparent
      cases hparent
    exact (deleteStream_yields hs hparent hne (hwf.rootOf_of_root htype)).mono
      fun _ _ _ h => ⟨root, hroot, h.exactly hs.numbered⟩

/-- **An `on_delete` is exact.** -/
theorem onDelete_yields {codes : CalloutId → Code} {code : Code} (hs : s.Rested)
    (hwf : s.abi.contexts.WellFormed) (hnum : s.Live → s.abi.callouts.Numbered past) :
    Yields past (onDelete c codes code) (fun ended t s' => ∃ root,
      s.abi.contexts.rootOf c = some root ∧ DeletesExactly c root s ended t s') s := by
  unfold onDelete
  refine .bind (M := fun _ t s' => t = [] ∧ s = s' ∧ s.Live)
    ((requireLive_leaves s).mono ?_ (fun _ _ _ _ => trivial) fun _ _ _ => trivial) ?_
  · rintro _ _ _ ⟨rfl, rfl, hlive⟩ -
    exact ⟨rfl, rfl, hlive⟩
  rintro _ _ _ ⟨rfl, rfl, hlive⟩
  have hready := hs.ready hlive
  have hserved : Reaches .nothing s (requireServedStream c) fun _ s₁ => LetThrough c s s₁ :=
    requireServedStream_reaches hs
  refine .bind (M := fun _ t s₁ => t = [] ∧ LetThrough c s s₁)
    (((requireServedStream_silent _ c).and (.of_follows hserved)).mono ?_
      (fun _ _ _ _ => trivial) fun _ _ _ => trivial) ?_
  · rintro _ t s₁ ⟨⟨rfl, -⟩, -, hlet⟩ -
    exact ⟨rfl, hlet⟩
  rintro _ _ s₁ ⟨rfl, hlet⟩
  have hready₁ := hlet.ready hready
  refine .bind (M := fun _ t s₂ => t = [] ∧ s₁ = s₂ ∧ (s₁.abi.contexts.get c).isSome)
    (.finds requireDeletable_finds (fun _ h _ => ⟨rfl, rfl, h.1⟩) (fun _ => trivial) trivial) ?_
  rintro _ _ _ ⟨rfl, rfl, hknown⟩
  simp only [List.append_nil, List.nil_append]
  refine .bind_modify (.bind (.attempt (delete_yields ?_ ?_ hknown)) ?_)
  · refine ⟨⟨⟨hready₁.idle, hready₁.live⟩, hready₁.undelivered⟩, rfl, ?_⟩
    rw [abi_mapAbi, hlet.abi]
    exact hnum hlive
  · rw [abi_mapAbi, hlet.abi]
    exact hwf
  rintro result t s₂ hdeletes
  refine .bind_modify ?_
  cases result with
  | error e => exact Leaves.throw trivial
  | ok ended =>
    refine .pure fun _ => ?_
    obtain ⟨root, hroot, h⟩ := hdeletes ended rfl
    rw [abi_mapAbi, hlet.abi] at hroot
    refine ⟨root, hroot, ?_⟩
    rw [List.append_nil]
    exact h.congr (by rw [abi_mapAbi, hlet.abi]) (by rw [abi_mapAbi, hlet.abi]) rfl rfl
      ⟨h.live.idle, h.live.live⟩

/-! ## Runs -/

/-- Every callout that is open when an `on_delete` answered belongs to the root of its caller. -/
theorem Run.anchored_of_deleted (r : Run) {codes : CalloutId → Code} {code : Code}
    (hlive : ((onDelete c codes code).run r.last).state.Live) :
    ∀ id entry, ((onDelete c codes code).run r.last).state.abi.callouts.get id = some entry →
      ((onDelete c codes code).run r.last).state.abi.contexts.rootOf entry.caller =
        some entry.root := by
  have hpath := ((Op.onDelete c codes code).perform_acts r.last_rested r.last_sound).1
  have hrested := Session.rested_perform (.onDelete c codes code) r.last_rested r.last_sound
  have hsound := r.last_sound.steps hpath
  have hsame : ((Op.onDelete c codes code).perform.run r.last).state =
      ((onDelete c codes code).run r.last).state := (replying_run _ _ _).2
  rw [hsame] at hrested hsound
  intro id entry hget
  rcases hsound.callouts with hpoisoned | hanchors
  · rw [hlive.live] at hpoisoned
    cases hpoisoned
  · refine (hanchors id entry hget).resolve_right ?_
    rw [(hrested.ready hlive).unmarked]
    rintro ⟨⟩

/-- **Whatever the guest does in the callbacks of an `on_delete`**, after any run: when it answers,
    it answers exactly the callouts that ended with the context. -/
theorem Run.on_delete_exact (r : Run) (c : ContextId) (codes : CalloutId → Code) (code : Code)
    (ended : List CalloutId) (hok : ((onDelete c codes code).run r.last).exit = .ok ended)
    (hfew : (reservedIn (r.trace ++ ((onDelete c codes code).run r.last).trace)).length <
      2 ^ 32 - 1) :
    (∃ root, r.last.abi.contexts.rootOf c = some root ∧
      DeletesExactly c root r.last ended ((onDelete c codes code).run r.last).trace
        ((onDelete c codes code).run r.last).state) ∧
    ∀ id entry, ((onDelete c codes code).run r.last).state.abi.callouts.get id = some entry →
      ((onDelete c codes code).run r.last).state.abi.contexts.rootOf entry.caller =
        some entry.root := by
  have hall : Few (r.trace ++ ((onDelete c codes code).run r.last).trace) := by
    unfold Few
    omega
  have hyields : Yields r.trace (onDelete c codes code) _ r.last :=
    onDelete_yields r.last_rested r.last_sound.contexts
      fun hlive => r.numbered_steps r.path hlive.live hall.of_append
  unfold Yields Leaves at hyields
  rw [hok] at hyields
  obtain ⟨root, hroot, hexact⟩ := hyields hall
  exact ⟨⟨root, hroot, hexact⟩, r.anchored_of_deleted hexact.live⟩

/-! ## A root that is deleted with two streams open -/

namespace Signals

open Openings

/-- A root with two streams is done. -/
def doomed : Run :=
  .of 12 .bare ⟨[], .info, [], [], 1, 2⟩ (.atMost none)
    [.enter .noStream, .onContextCreate none (.returning 0), .onTick .min openStream,
      .onTick .min openStream, .onDone .min (.returning 1)]
    rfl (by decide)

/-- In the close of the first stream, the guest cancels the second. -/
def cancelsSecond (id : CalloutId) : Code :=
  if id = .min then .calling (.proxyGrpcCancel 2) accepting 0 else .returning 0

/-- Only the first stream is in the answer. -/
theorem doomed_deleted :
    ((onDelete .min cancelsSecond (.returning 0)).run doomed.last).exit = .ok [.min] ∧
      ∃ root, doomed.last.abi.contexts.rootOf .min = some root ∧
        DeletesExactly .min root doomed.last [.min]
          ((onDelete .min cancelsSecond (.returning 0)).run doomed.last).trace
          ((onDelete .min cancelsSecond (.returning 0)).run doomed.last).state :=
  ⟨rfl, (doomed.on_delete_exact .min cancelsSecond (.returning 0) [.min] rfl (by decide)).1⟩

end Signals

end ProxyWasmHost
