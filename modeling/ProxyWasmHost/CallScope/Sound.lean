/-
  The invariant of a guest over all its steps: its contexts are well formed, and every
  open callout belongs to the root of a live context, but for those of a context that is
  being deleted.
-/
import ProxyWasmHost.CallScope.Step
import ProxyWasmHost.Context.Evolves

namespace ProxyWasmHost

open Std

/-- The caller of a callout is live and in the tree of its root, unless it is being
    deleted. -/
def AbiState.Anchors (abi : AbiState) (entry : Callout) : Prop :=
  abi.contexts.rootOf entry.caller = some entry.root ∨ abi.deleting = some entry.caller

/-- **The invariant of a guest.** -/
structure Session.Sound (s : Session) : Prop where
  contexts : s.abi.contexts.WellFormed
  callouts : s.host.poisoned = true ∨
    ∀ id entry, s.abi.callouts.get id = some entry → s.abi.Anchors entry

/-! ## Host functions -/

namespace HostStep

variable {h h' : HostState} {t : List Event}

/-- A guest that is poisoned stays so. -/
theorem poisoned (step : HostStep h t h') (hpoisoned : h.poisoned = true) :
    h'.poisoned = true := by
  cases step with
  | poison => rfl
  | _ => exact hpoisoned

theorem wellFormed (step : HostStep h t h') (hwf : h.abi.contexts.WellFormed) :
    h'.abi.contexts.WellFormed := by
  cases step with
  | done => exact hwf.done
  | setEffective => exact hwf.setEffective _
  | tickPeriod => exact hwf.setTickPeriod _ _
  | settled =>
    show h.abi.settle.contexts.WellFormed
    rwa [AbiState.contexts_settle]
  | shared op answer =>
    rename_i c _ _ _ _ _
    show (h.abi.recordShared c op answer).contexts.WellFormed
    rwa [AbiState.contexts_recordShared]
  | announced buffer =>
    show (h.abi.takeAnnounced buffer).2.contexts.WellFormed
    rwa [AbiState.contexts_takeAnnounced]
  | _ => exact hwf

/-- An entry was there before but for its closed mark, or the effective context made it. -/
theorem callout_of (step : HostStep h t h') {id : CalloutId} {entry : Callout}
    (hget : h'.abi.callouts.get id = some entry) :
    (∃ entry₀, h.abi.callouts.get id = some entry₀ ∧ entry₀.caller = entry.caller ∧
      entry₀.root = entry.root ∧ entry₀.kind = entry.kind) ∨
    (h.abi.callouts.get id = none ∧ h.abi.contexts.rootOf entry.caller = some entry.root ∧
      h.abi.isDeleting entry.caller = false) := by
  have hclosed : ∀ id' : CalloutId, (h.abi.callouts.closeByGuest id').get id = some entry →
      ∃ entry₀, h.abi.callouts.get id = some entry₀ ∧ entry₀.caller = entry.caller ∧
        entry₀.root = entry.root ∧ entry₀.kind = entry.kind := by
    intro id' hget
    obtain ⟨entry₀, closed, hget₀, rfl⟩ := CalloutTable.entry_of_closeByGuest hget
    exact ⟨entry₀, hget₀, rfl, rfl, rfl⟩
  have hsame : h.abi.callouts.get id = some entry →
      ∃ entry₀, h.abi.callouts.get id = some entry₀ ∧ entry₀.caller = entry.caller ∧
        entry₀.root = entry.root ∧ entry₀.kind = entry.kind :=
    fun hget => ⟨entry, hget, rfl, rfl, rfl⟩
  cases step with
  | opened answer live hc hroot hdel hlen hres hop =>
    dsimp only [HostState.mapAbi, AbiState.withCallouts] at hget
    rw [CalloutTable.get_of_asked hres] at hget
    split at hget
    · rename_i hid
      cases hget
      exact .inr ⟨hid.2 ▸ (CalloutTable.get_of_reserve hres).1, hroot, hdel⟩
    · exact .inl (hsame hget)
  | sent message endOfStream answer =>
    dsimp only [HostState.mapAbi, AbiState.withCallouts] at hget
    split at hget
    · exact .inl (hclosed _ hget)
    · exact .inl (hsame hget)
  | cancelled =>
    dsimp only [HostState.mapAbi, AbiState.withCallouts] at hget
    rw [CalloutTable.get_remove] at hget
    split at hget
    · cases hget
    · exact .inl (hsame hget)
  | closed => exact .inl (hclosed _ hget)
  | announced buffer =>
    change (h.abi.takeAnnounced buffer).2.callouts.get id = some entry at hget
    rw [AbiState.callouts_takeAnnounced] at hget
    exact .inl (hsame hget)
  | settled =>
    change h.abi.settle.callouts.get id = some entry at hget
    rw [AbiState.callouts_settle] at hget
    exact .inl (hsame hget)
  | shared op answer =>
    change (h.abi.recordShared _ op answer).callouts.get id = some entry at hget
    rw [AbiState.callouts_recordShared] at hget
    exact .inl (hsame hget)
  | memory | poison | called | logged | stream | done | setEffective | tickPeriod =>
    exact .inl (hsame hget)

end HostStep

/-! ## Steps of a guest -/

namespace Session

variable {s s' : Session} {aim : Aim} {t : List Event}

/-- **The table of the contexts evolves along every step.** -/
theorem Step.evolves (step : s.Step aim t s') : s.abi.contexts.Evolves s'.abi.contexts := by
  cases step with
  | host running step => exact .of_keeps (HostKeeps.of_step step).contexts
  | began => exact .of_keeps (.setEffective _ _)
  | created aimed idle live vm accepted create =>
    exact .create (ContextTable.creates_of_create create)
  | streamKind stream agrees => exact .setStreamKind agrees
  | state => exact .setState _ _ _
  | plugin => exact .setPlugin _ _ _
  | rejected => exact .reject _ _
  | rejectedVm => exact .rejectVm _ _
  | deleted =>
    rename_i c isRoot _ _ _ _ _ _ _
    cases isRoot <;> exact .remove _ _
  | _ => exact .refl _

/-- A guest that is poisoned stays so. -/
theorem Step.poisoned (step : s.Step aim t s') (hpoisoned : s.host.poisoned = true) :
    s'.host.poisoned = true := by
  cases step with
  | host running step => exact step.poisoned hpoisoned
  | poison | abandoned => rfl
  | _ => exact hpoisoned

/-- An invariant whose callouts stay anchored, in a table that keeps their roots. -/
theorem Sound.of_rootOf (h : s.Sound) (hwf : s'.abi.contexts.WellFormed)
    (hpoisoned : s.host.poisoned = true → s'.host.poisoned = true)
    (hroot : ∀ x root, s.abi.contexts.rootOf x = some root → s'.abi.contexts.rootOf x = some root)
    (hdeleting : s'.abi.deleting = s.abi.deleting)
    (hcallouts : ∀ id entry, s'.abi.callouts.get id = some entry →
      s.abi.callouts.get id = some entry) : s'.Sound := by
  refine ⟨hwf, h.callouts.imp hpoisoned fun hanchors id entry hget => ?_⟩
  refine (hanchors id entry (hcallouts id entry hget)).imp (hroot _ _) fun hd => ?_
  exact hdeleting.trans hd

/-- A change that the invariant does not look at. -/
theorem Sound.congr (h : s.Sound) (hpoisoned : s.host.poisoned = true → s'.host.poisoned = true)
    (hcontexts : s'.abi.contexts = s.abi.contexts) (hdeleting : s'.abi.deleting = s.abi.deleting)
    (hcallouts : s'.abi.callouts = s.abi.callouts) : s'.Sound :=
  h.of_rootOf (hcontexts ▸ h.contexts) hpoisoned (fun _ _ hx => hcontexts.symm ▸ hx) hdeleting
    fun _ _ hget => hcallouts ▸ hget

theorem Sound.host {h : HostState} (hs : s.Sound) (step : HostStep s.host t h) :
    Session.Sound { s with host := h } := by
  have hkeeps := HostKeeps.of_step step
  refine ⟨step.wellFormed hs.contexts, hs.callouts.imp step.poisoned fun hanchors id entry hget => ?_⟩
  rcases step.callout_of hget with ⟨entry₀, hget₀, hcaller, hroot, -⟩ | ⟨-, hroot, -⟩
  · refine (hanchors id entry₀ hget₀).imp (fun hroot₀ => ?_) fun hdeleting => ?_
    · rw [← hcaller, ← hroot]
      exact (hkeeps.contexts.rootOf _).trans hroot₀
    · rw [← hcaller]
      exact hkeeps.deleting.trans hdeleting
  · exact .inl ((hkeeps.contexts.rootOf _).trans hroot)

/-- A context that is created changes the root of no other. -/
theorem rootOf_of_creates {t t' : ContextTable} {parent : Option ContextId} {id x root : ContextId}
    (hwf : t.WellFormed) (hcreates : t.Creates parent id t') (hx : t.rootOf x = some root) :
    t'.rootOf x = some root := by
  have hne : x ≠ id := by
    rintro rfl
    unfold ContextTable.rootOf at hx
    rw [hcreates.id_eq, hwf.get_next] at hx
    cases hx
  unfold ContextTable.rootOf at hx ⊢
  rw [hcreates.get_eq, if_neg hne]
  exact hx

/-- **Every step keeps the invariant.** -/
theorem Sound.step (h : s.Sound) (step : s.Step aim t s') : s'.Sound := by
  cases step with
  | host running step => exact h.host step
  | began params may =>
    exact h.of_rootOf (h.contexts.setEffective _) id
      (fun x root hx => ((ContextTable.Keeps.setEffective _ _).rootOf x).trans hx) rfl
      fun _ _ hget => hget
  | poison | abandoned => exact h.congr (fun _ => rfl) rfl rfl rfl
  | created aimed idle live vm accepted create =>
    have hcreates := ContextTable.creates_of_create create
    exact h.of_rootOf (h.contexts.create hcreates) (fun hp => hp)
      (fun _ _ hx => rootOf_of_creates h.contexts hcreates hx) rfl fun _ _ hget => hget
  | streamKind stream agrees =>
    exact h.of_rootOf (h.contexts.setStreamKind _ stream) id
      (fun _ _ hx => (ContextTable.rootOf_setStreamKind _).trans hx) rfl fun _ _ hget => hget
  | state =>
    exact h.of_rootOf (h.contexts.setState _) id
      (fun _ _ hx => (ContextTable.rootOf_setState _).trans hx) rfl fun _ _ hget => hget
  | plugin root plugin aimed =>
    exact h.of_rootOf (h.contexts.setPlugin _ _) id
      (fun _ _ hx => (ContextTable.rootOf_setPlugin _).trans hx) rfl fun _ _ hget => hget
  | rejected =>
    exact h.of_rootOf (h.contexts.reject _) id
      (fun _ _ hx => (ContextTable.rootOf_reject).trans hx) rfl fun _ _ hget => hget
  | rejectedVm =>
    exact h.of_rootOf (h.contexts.rejectVm _) id (fun _ _ hx => hx) rfl fun _ _ hget => hget
  | ended =>
    refine h.of_rootOf h.contexts id (fun _ _ hx => hx) rfl fun x entry hget => ?_
    dsimp only [Session.mapCallouts, Session.mapAbi, Session.mapHost, HostState.mapAbi,
      Session.abi] at hget
    rw [CalloutTable.get_remove] at hget
    split at hget
    · cases hget
    · exact hget
  | reentered id entry poisoned => exact ⟨h.contexts, .inl poisoned⟩
  | marked aimed unmarked =>
    refine ⟨h.contexts, h.callouts.imp_right fun hanchors id entry hget => ?_⟩
    rcases hanchors id entry hget with hroot | hdeleting
    · exact .inl hroot
    · rw [unmarked] at hdeleting
      cases hdeleting
  | unmarked aimed empty =>
    rcases empty with hpoisoned | ⟨mark, hempty⟩
    · exact ⟨h.contexts, .inl hpoisoned⟩
    · refine ⟨h.contexts, h.callouts.imp_right fun hanchors id entry hget => .inl ?_⟩
      rcases hanchors id entry hget with hroot | hdeleting
      · exact hroot
      · rw [mark, Option.some.injEq] at hdeleting
        exact absurd hdeleting.symm (hempty id entry hget)
  | deleted aimed idle live mark known root children =>
    rename_i c isRoot
    have hcontexts : (s.abi.removeContext c isRoot).contexts = s.abi.contexts.remove c := by
      cases isRoot <;> rfl
    have hdeleting : (s.abi.removeContext c isRoot).deleting = s.abi.deleting := by
      cases isRoot <;> rfl
    have hcallouts : (s.abi.removeContext c isRoot).callouts = s.abi.callouts := by
      cases isRoot <;> rfl
    refine ⟨hcontexts.symm ▸ h.contexts.remove children, h.callouts.imp_right
      fun hanchors id entry hget => ?_⟩
    by_cases hcaller : entry.caller = c
    · exact .inr (hdeleting.trans (hcaller.symm ▸ mark))
    · refine (hanchors id entry (hcallouts ▸ hget)).imp (fun hroot => ?_) fun hd => hdeleting.trans hd
      show (s.abi.removeContext c isRoot).contexts.rootOf entry.caller = _
      rw [hcontexts]
      unfold ContextTable.rootOf
      rw [ContextTable.get_remove, if_neg hcaller]
      exact hroot
  | dropped aimed idle live =>
    refine h.of_rootOf h.contexts id (fun _ _ hx => hx) rfl fun x entry hget => ?_
    dsimp only [Session.mapCallouts, Session.mapAbi, Session.mapHost, HostState.mapAbi,
      Session.abi] at hget
    rw [CalloutTable.get_foldl_remove] at hget
    split at hget
    · cases hget
    · exact hget
  | _ => exact h.congr id rfl rfl rfl

end Session

end ProxyWasmHost
