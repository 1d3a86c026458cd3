/-
  The plugins of a run whose roots come from starts: a root id names one root and is taken
  until that is deleted, and what a start refused stays refused.
-/
import ProxyWasmHost.Guest.Start

namespace ProxyWasmHost

open Prog Session Prologue

variable {aim : Aim} {s s' : Session} {t : List Event}

/-! ## What a start leaves -/

section Start

variable {plugin : PluginConfig} {codes : StartCodes} {root : ContextId}

/-- A root id that is taken is refused before anything happens. -/
theorem start_duplicate (h : s.abi.contexts.rootWithId plugin.rootId = some root) :
    (Op.start plugin codes).perform.run s =
      ⟨.err (.duplicateRootId plugin.rootId root), s, []⟩ := by
  have hstart : (start plugin codes).run s =
      ⟨.err (.duplicateRootId plugin.rootId root), s, []⟩ := by
    have hread : contexts.run s = ⟨.ok s.abi.contexts, s, []⟩ := rfl
    unfold start
    rw [bind_of_ok_nil hread, h]
    rfl
  exact bind_of_err hstart

/-- The root id is that of `root`: a start with it is refused before anything happens. -/
def Session.Taken (s : Session) (root : ContextId) (rootId : Bytes) : Prop :=
  s.abi.contexts.Named root rootId ∧ ∀ plugin codes, plugin.rootId = rootId →
    (Op.start plugin codes).perform.run s = ⟨.err (.duplicateRootId rootId root), s, []⟩

theorem Session.taken_of_named {rootId : Bytes} (hdistinct : s.abi.contexts.Distinct)
    (h : s.abi.contexts.Named root rootId) : s.Taken root rootId := by
  refine ⟨h, ?_⟩
  rintro plugin codes rfl
  exact start_duplicate (hdistinct.rootWithId h)

theorem AbiState.RefusedAt.rejectionOf {abi : AbiState} {callback : Callback}
    (h : abi.RefusedAt root callback) : abi.contexts.rejectionOf root ≠ none := by
  intro hnone
  obtain ⟨hvm, hroot⟩ := ContextTable.rejectionOf_eq_none.1 hnone
  unfold AbiState.RefusedAt at h
  split at h
  · rw [hvm] at h
    cases h.2
  · rw [hroot] at h
    cases h.2

/-- What a start of `plugin` answers and leaves. -/
structure Session.Answers (plugin : PluginConfig) (exit : Exit GuestError Reply) (t : List Event)
    (s' : Session) : Prop where
  named : ∀ root, Event.created root none ∈ t → (∃ e ∈ t, e.Begins .configure) →
    s'.abi.contexts.Named root plugin.rootId
  holds : ∀ root, exit = .ok (.started (.serving root)) →
    s'.abi.contexts.Named root plugin.rootId
  serving : ∀ root, exit = .ok (.started (.serving root)) ↔ Event.created root none ∈ t ∧
    s'.abi.contexts.rejectionOf root = none ∧ s'.host.poisoned = false
  refused : ∀ root callback, exit = .ok (.started (.refused root callback)) →
    s'.abi.RefusedAt root callback
  failed : ∀ e root, exit = .err e → Event.created root none ∈ t →
    s'.host.poisoned = true ∨ ∃ callback, s'.abi.RefusedAt root callback

/-- The root that came to its configuration has the root id. -/
theorem Session.Starts.names {r : ContextId} (h : s.Starts plugin r t s')
    (hmem : Event.created root none ∈ t) (hbegins : ∃ e ∈ t, e.Begins .configure) :
    s'.abi.contexts.Named root plugin.rootId := by
  obtain ⟨rfl, -⟩ := h.only _ _ hmem
  exact (h.configures hbegins).named

/-- A root that is refused does not serve. -/
theorem Session.Starts.not_serving {r : ContextId} {callback : Callback}
    (h : s.Starts plugin r t s') (hrefused : s'.abi.RefusedAt r callback) :
    ¬ (Event.created root none ∈ t ∧ s'.abi.contexts.rejectionOf root = none ∧
      s'.host.poisoned = false) := by
  rintro ⟨hmem, haccepted, -⟩
  obtain ⟨rfl, -⟩ := h.only _ _ hmem
  exact hrefused.rejectionOf haccepted

theorem Session.Unmade.not_created (h : s.Unmade t s') : Event.created root none ∉ t := by
  rw [h.trace]
  rintro ⟨⟩

theorem start_answers (hs : s.Rested) (hwf : s.abi.contexts.WellFormed) :
    Session.Answers plugin ((Op.start plugin codes).perform.run s).exit
      ((Op.start plugin codes).perform.run s).trace
      ((Op.start plugin codes).perform.run s).state := by
  have hleaves := replying_leaves Reply.started
    (start_leaves plugin codes hs hwf)
  change Leaves (Op.start plugin codes).perform _ _ _ s at hleaves
  unfold Leaves at hleaves
  generalize (Op.start plugin codes).perform.run s = res at hleaves
  obtain ⟨exit, s', t⟩ := res
  dsimp only at hleaves ⊢
  cases exit with
  | ok reply =>
    obtain ⟨started, rfl, hstarts, hsettled⟩ := hleaves
    cases started with
    | serving r =>
      obtain ⟨-, hlive, haccepted, -, hholds⟩ := hsettled
      refine ⟨fun root => hstarts.names, ?_, fun root => ⟨?_, ?_⟩,
        by rintro root callback ⟨⟩, by rintro e root ⟨⟩⟩
      · rintro root ⟨⟩
        exact hholds.named
      · rintro ⟨⟩
        exact ⟨hstarts.created, haccepted, hlive.live⟩
      · rintro ⟨hmem, -⟩
        obtain ⟨rfl, -⟩ := hstarts.only _ _ hmem
        rfl
    | refused r callback =>
      refine ⟨fun root => hstarts.names, by rintro root ⟨⟩, fun root => ⟨by rintro ⟨⟩, ?_⟩, ?_,
        by rintro e root ⟨⟩⟩
      · exact fun hserves => absurd hserves (hstarts.not_serving hsettled.2)
      · rintro root callback ⟨⟩
        exact hsettled.2
  | err e =>
    refine ⟨fun root hmem => ?_, by rintro root ⟨⟩, fun root => ⟨by rintro ⟨⟩, fun hserves => ?_⟩,
      by rintro root callback ⟨⟩, ?_⟩
    · rcases hleaves with h | ⟨r, hstarts, -⟩
      · exact absurd hmem h.not_created
      · exact hstarts.names hmem
    · rcases hleaves with h | ⟨r, hstarts, hpoisoned | ⟨callback, h⟩⟩
      · exact absurd hserves.1 h.not_created
      · rw [hserves.2.2] at hpoisoned
        cases hpoisoned
      · exact absurd hserves (hstarts.not_serving h)
    · rintro e root ⟨⟩ hmem
      rcases hleaves with h | ⟨r, hstarts, hend⟩
      · exact absurd hmem h.not_created
      · obtain ⟨rfl, -⟩ := hstarts.only _ _ hmem
        exact hend
  | panicked =>
    refine ⟨fun root hmem => ?_, by rintro root ⟨⟩, fun root => ⟨by rintro ⟨⟩, fun hserves => ?_⟩,
      by rintro root callback ⟨⟩, by rintro e root ⟨⟩⟩
    · rcases hleaves with h | ⟨r, hstarts, -⟩
      · exact absurd hmem h.not_created
      · exact hstarts.names hmem
    · rcases hleaves with h | ⟨r, hstarts, hpoisoned⟩
      · exact absurd hserves.1 h.not_created
      · rw [hserves.2.2] at hpoisoned
        cases hpoisoned

/-! ## What stays refused -/

/-- What the callback refused stays refused: every context, or the root until it leaves the
    table. -/
def ContextTable.StaysRefused (t : ContextTable) (root : ContextId) (callback : Callback) : Prop :=
  if callback = .vmStart then ∀ x, t.rejectionOf x = some .vmStart
  else t.get root = none ∨ t.rejectionOf root ≠ none

theorem Session.evolves_of_calls {calls : List Call} (path : Steps Session.Calls s calls s')
    (hrested : s.Rested) (hsound : s.Sound) : s.abi.contexts.Evolves s'.abi.contexts ∧
      (s.host.poisoned = true → s'.host.poisoned = true) ∧ s'.Sound := by
  have h := Session.calls_induction (I := fun _ s' => s.abi.contexts.Evolves s'.abi.contexts ∧
    (s.host.poisoned = true → s'.host.poisoned = true)) [] ?_ path hrested hsound
    ⟨.refl _, id⟩
  · exact ⟨h.1.1, h.1.2, h.2.2⟩
  · rintro past s₁ call s₂ ⟨hevolves, hpoisoned⟩ - hcall
    refine ⟨hevolves.trans ?_, fun hp => ?_⟩
    · exact hcall.path.relation (R := fun s _ s' => s.abi.contexts.Evolves s'.abi.contexts)
        (fun s => .refl _) (fun _ _ _ _ _ h h' => h.trans h') fun _ _ _ step => step.evolves
    · exact hcall.path.invariant (I := fun s => s.host.poisoned = true)
        (fun _ _ _ hp step => step.poisoned hp) (hpoisoned hp)

theorem AbiState.RefusedAt.stays {callback : Callback} {calls : List Call}
    (h : s.abi.RefusedAt root callback) (path : Steps Session.Calls s calls s')
    (hrested : s.Rested) (hsound : s.Sound) :
    s'.abi.contexts.StaysRefused root callback := by
  obtain ⟨hevolves, -, hsound'⟩ := Session.evolves_of_calls path hrested hsound
  unfold AbiState.RefusedAt at h
  unfold ContextTable.StaysRefused
  by_cases hvm : callback = .vmStart
  · rw [if_pos hvm] at h ⊢
    intro x
    unfold ContextTable.rejectionOf
    rw [if_pos (hevolves.vmRejected h.2)]
  · rw [if_neg hvm] at h ⊢
    refine (hevolves.isRejected hsound.contexts hsound'.contexts h.2).imp_right ?_
    intro hrejected hnone
    rw [(ContextTable.rejectionOf_eq_none.1 hnone).2] at hrejected
    cases hrejected

end Start

/-- **Starts**: in a run whose embedder creates, starts and configures roots with starts
    only, a root id names one root, now and in every state of the run; a start with a root
    id that is taken is refused with the guest as it was; a start answers that a root serves
    exactly when it created one that is accepted, in a guest that is not poisoned; what it
    answers or fails with otherwise stays refused, whatever is called later; and a root
    that came to its configuration takes its root id until it is deleted. -/
theorem Run.starts (r : Run) (hhand : ∀ call ∈ r.calls, call.op.byHand = false) :
    r.last.abi.contexts.Distinct ∧
    (∀ e ∈ r.trace, ∀ abi, e.snapshot = some abi → abi.contexts.Distinct) ∧
    ∀ plugin codes,
      (∀ root, r.last.abi.contexts.Named root plugin.rootId →
        (Op.start plugin codes).perform.run r.last =
          ⟨.err (.duplicateRootId plugin.rootId root), r.last, []⟩) ∧
      Session.Answers plugin ((Op.start plugin codes).perform.run r.last).exit
        ((Op.start plugin codes).perform.run r.last).trace
        ((Op.start plugin codes).perform.run r.last).state ∧
      ∀ calls s,
        Steps Session.Calls ((Op.start plugin codes).perform.run r.last).state calls s →
        (((Op.start plugin codes).perform.run r.last).state.host.poisoned = true →
          s.host.poisoned = true) ∧
        (∀ root callback,
          ((Op.start plugin codes).perform.run r.last).state.abi.RefusedAt root callback →
          s.abi.contexts.StaysRefused root callback) ∧
        ((∀ call ∈ calls, call.op.byHand = false) → ∀ root rootId,
          ((Op.start plugin codes).perform.run r.last).state.abi.contexts.Named root rootId →
          s.abi.contexts.get root = none ∨ s.Taken root rootId) := by
  obtain ⟨hdistinct, hsnapshots⟩ := r.distinct hhand
  refine ⟨hdistinct, hsnapshots, fun plugin codes => ⟨fun root hnamed => ?_, ?_, ?_⟩⟩
  · exact start_duplicate (hdistinct.rootWithId hnamed)
  · exact start_answers r.last_rested r.last_sound.contexts
  · intro calls s path
    have hpath := ((Op.start plugin codes).perform_acts r.last_rested r.last_sound).1
    have hrested := Session.rested_perform (.start plugin codes) r.last_rested r.last_sound
    have hsound := r.last_sound.steps hpath
    refine ⟨(Session.evolves_of_calls path hrested hsound).2.1,
      fun root callback hrefused => hrefused.stays path hrested hsound,
      fun hhand' root rootId hnamed => ?_⟩
    have hdistinct' : s.abi.contexts.Distinct := by
      refine Session.distinct_of_calls path hrested hsound hhand' ?_
      exact Session.distinct_of_steps hpath (Op.aim_ne_configure rfl) hdistinct
    obtain ⟨held, hholds, rfl⟩ := ContextTable.holds_of_named hnamed
    refine (Session.holds_of_calls path hrested hsound hhand' hholds).imp_right fun hheld => ?_
    exact Session.taken_of_named hdistinct' hheld.named

/-- Two plugins with different root ids start, in one guest. A second start of the first is
    refused, and a third plugin takes its root id for its root. -/
theorem Starts.twoPlugins_distinct :
    Starts.twoPlugins.last.abi.contexts.Distinct ∧
    (Op.start (Starts.plugin [1]) Starts.accepting).perform.run Starts.twoPlugins.last =
      ⟨.err (.duplicateRootId [1] .min), Starts.twoPlugins.last, []⟩ ∧
    ((Op.start (Starts.plugin [3]) Starts.accepting).perform.run Starts.twoPlugins.last).state.Taken
      ⟨3, by decide, by decide⟩ [3] := by
  have hhand : ∀ call ∈ Starts.twoPlugins.calls, call.op.byHand = false := by
    intro call hmem
    rcases List.mem_cons.1 hmem with rfl | hmem
    · rfl
    · rcases List.mem_singleton.1 hmem with rfl
      rfl
  have hstarts := Run.starts Starts.twoPlugins hhand
  obtain ⟨-, hanswers, hlater⟩ := hstarts.2.2 (Starts.plugin [3]) Starts.accepting
  refine ⟨hstarts.1, (hstarts.2.2 (Starts.plugin [1]) Starts.accepting).1 .min ?_, ?_⟩
  · exact ⟨_, Starts.plugin [1], rfl, rfl, rfl⟩
  · have hnamed := hanswers.holds ⟨3, by decide, by decide⟩ rfl
    obtain ⟨entry, -, hget, -⟩ := id hnamed
    refine ((hlater [] _ (.nil _)).2.2 (by rintro call ⟨⟩) _ _ hnamed).resolve_left fun hgone => ?_
    rw [hgone] at hget
    cases hget

end ProxyWasmHost
