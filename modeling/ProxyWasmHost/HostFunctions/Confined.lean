/-
  The host functions a guest calls while a context of one root is effective stay with
  that root.
-/
import ProxyWasmHost.HostFunctions.Step

namespace ProxyWasmHost

open Std

theorem AbiState.effective_of_context {abi : AbiState} {c : ContextId}
    (h : abi.context = some c) :
    abi.contexts.effective = some c ∧ abi.contexts.rejectionOf c = none := by
  unfold AbiState.context at h
  split at h
  · rename_i heff
    split at h
    · rename_i haccepted
      cases h
      exact ⟨heff, haccepted⟩
    · cases h
  · cases h

/-- **What happened since `start` stayed with `root`**: the effective context is in its
    tree, and so is whatever tick period, registrant or callout is new. -/
structure Confined (root : ContextId) (start abi : AbiState) : Prop where
  contexts : start.contexts.Keeps abi.contexts
  effective : ∃ c, abi.contexts.effective = some c ∧ start.contexts.rootOf c = some root
  tickPeriods : ∀ x, x ≠ root → (abi.contexts.get x).map (·.tickPeriod) =
    (start.contexts.get x).map (·.tickPeriod)
  changes : ∀ x, x ≠ root → abi.changes.tickPeriods[x]? = start.changes.tickPeriods[x]?
  registrants : ∀ queue x, x ∈ abi.registered queue → x = root ∨ x ∈ start.registered queue
  callouts : ∀ id entry, abi.callouts.get id = some entry →
    (entry.root = root ∧ start.contexts.rootOf entry.caller = some root) ∨
    ∃ entry₀, start.callouts.get id = some entry₀ ∧ entry₀.caller = entry.caller ∧
      entry₀.root = entry.root

namespace Confined

variable {root : ContextId} {start abi : AbiState} {h h' : HostState} {t : List Event}

/-- The effective context is the one a host function acts for. -/
theorem rootOf_context (hc : Confined root start abi) {c : ContextId}
    (hcontext : abi.context = some c) : start.contexts.rootOf c = some root := by
  obtain ⟨c', heff, hroot⟩ := hc.effective
  rw [(AbiState.effective_of_context hcontext).1] at heff
  cases heff
  exact hroot

/-- A callback starts confined. -/
theorem setEffective {c : ContextId} {callback : Option Callback}
    (hc : abi.contexts.rootOf c = some root) :
    Confined root abi { abi with
      contexts := (abi.contexts.setEffective c).2, currentCallback := callback } where
  contexts := .setEffective _ _
  effective := by
    refine ⟨c, ?_, hc⟩
    unfold ContextTable.rootOf at hc
    cases hget : abi.contexts.get c with
    | none => rw [hget] at hc; cases hc
    | some entry => dsimp only; rw [ContextTable.setEffective_of_get hget]
  tickPeriods x _ := by rw [ContextTable.get_setEffective]
  changes _ _ := rfl
  registrants _ _ hx := .inr hx
  callouts _ entry hget := .inr ⟨entry, hget, rfl, rfl⟩

/-- A change of what confinement does not look at. -/
theorem congr {abi' : AbiState} (hc : Confined root start abi)
    (hcontexts : abi'.contexts = abi.contexts)
    (hchanges : abi'.changes.tickPeriods = abi.changes.tickPeriods)
    (hregistrants : abi'.registrants = abi.registrants)
    (hcallouts : abi'.callouts = abi.callouts) : Confined root start abi' where
  contexts := hcontexts ▸ hc.contexts
  effective := hcontexts ▸ hc.effective
  tickPeriods := hcontexts ▸ hc.tickPeriods
  changes := hchanges ▸ hc.changes
  registrants queue x hx := hc.registrants queue x
    (by unfold AbiState.registered at hx ⊢; rwa [hregistrants] at hx)
  callouts := hcallouts ▸ hc.callouts

/-- An earlier state with more callouts. -/
theorem of_start {start' : AbiState} (hc : Confined root start abi)
    (hcontexts : start.contexts = start'.contexts)
    (hchanges : start.changes.tickPeriods = start'.changes.tickPeriods)
    (hregistrants : start.registrants = start'.registrants)
    (hcallouts : ∀ id entry, start.callouts.get id = some entry →
      start'.callouts.get id = some entry) : Confined root start' abi where
  contexts := hcontexts ▸ hc.contexts
  effective := hcontexts ▸ hc.effective
  tickPeriods := hcontexts ▸ hc.tickPeriods
  changes := hchanges ▸ hc.changes
  registrants queue x hx := (hc.registrants queue x hx).imp_right fun hx => by
    unfold AbiState.registered at hx ⊢; rwa [← hregistrants]
  callouts id entry hget := by
    rw [← hcontexts]
    exact (hc.callouts id entry hget).imp_right fun ⟨entry₀, hget₀, hsame⟩ =>
      ⟨entry₀, hcallouts id entry₀ hget₀, hsame⟩

theorem settle (hc : Confined root start abi) : Confined root start abi.settle := by
  unfold AbiState.settle
  dsimp only
  split
  · exact hc
  · refine ⟨hc.contexts, hc.effective, hc.tickPeriods, hc.changes, ?_, hc.callouts⟩
    intro queue x hx
    unfold AbiState.registered at hx
    rw [ExtTreeMap.getElem?_empty, Option.getD_none] at hx
    exact absurd hx ExtTreeSet.not_mem_empty

theorem registerQueue (hc : Confined root start abi) (queue : QueueId) (name : Bytes) :
    Confined root start (abi.registerQueue queue root name) := by
  unfold AbiState.registerQueue
  split
  · exact hc
  · refine ⟨hc.contexts, hc.effective, hc.tickPeriods, hc.changes, ?_, hc.callouts⟩
    intro queue' x hx
    unfold AbiState.registered at hx
    dsimp only at hx
    rw [ExtTreeMap.getElem?_insert] at hx
    split at hx
    · rename_i hqueue
      rw [Option.getD_some, ExtTreeSet.mem_insert] at hx
      rcases hx with hx | hx
      · exact .inl (Std.LawfulEqOrd.compare_eq_iff_eq.1 hx).symm
      · rw [← Std.LawfulEqOrd.compare_eq_iff_eq.1 hqueue]
        exact hc.registrants queue x hx
    · exact hc.registrants queue' x hx

theorem recordShared (hc : Confined root start abi) {c : ContextId} (op : SharedOp)
    (answer : Answer (Except Status SharedReply)) (hcontext : abi.context = some c) :
    Confined root start (abi.recordShared c op answer) := by
  unfold AbiState.recordShared
  split
  · rename_i name queue
    unfold recordRegistered
    dsimp only
    split
    · rename_i root' hroot'
      have hroot : start.contexts.rootOf c = some root' := by
        rw [← hc.contexts.rootOf]; exact hroot'
      rw [hc.rootOf_context hcontext] at hroot
      cases hroot
      exact (hc.congr rfl rfl rfl rfl : Confined root start
        ((abi.grantQueue queue).holdSharedName (.registered name))).registerQueue queue name
    · exact hc.congr rfl rfl rfl rfl
  · exact hc.congr rfl rfl rfl rfl
  · exact hc.congr rfl rfl rfl rfl
  · exact hc

/-- The table of the callouts with entries of its own tree only. -/
theorem withCallouts (hc : Confined root start abi) {callouts : CalloutTable}
    (hnew : ∀ id entry, callouts.get id = some entry →
      (entry.root = root ∧ start.contexts.rootOf entry.caller = some root) ∨
      ∃ entry₀, abi.callouts.get id = some entry₀ ∧ entry₀.caller = entry.caller ∧
        entry₀.root = entry.root) : Confined root start (abi.withCallouts callouts) := by
  refine ⟨hc.contexts, hc.effective, hc.tickPeriods, hc.changes, hc.registrants, ?_⟩
  intro id entry hget
  rcases hnew id entry hget with hnew | ⟨entry₀, hget₀, hcaller, hroot⟩
  · exact .inl hnew
  · rw [← hcaller, ← hroot]
    exact hc.callouts id entry₀ hget₀

theorem closeByGuest (hc : Confined root start abi) (id : CalloutId) :
    Confined root start (abi.withCallouts (abi.callouts.closeByGuest id)) := by
  refine hc.withCallouts fun x entry hget => .inr ?_
  obtain ⟨entry₀, closed, hget₀, rfl⟩ := CalloutTable.entry_of_closeByGuest hget
  exact ⟨entry₀, hget₀, rfl, rfl⟩

/-- **Every step of a host function stays with the root.** -/
theorem step (hc : Confined root start h.abi) (hstep : HostStep h t h') :
    Confined root start h'.abi := by
  cases hstep with
  | memory | poison | called | logged | stream => exact hc
  | announced buffer =>
    obtain ⟨announced, heq⟩ := h.abi.takeAnnounced_eq buffer
    show Confined root start (h.abi.takeAnnounced buffer).2
    rw [heq]
    exact hc.congr rfl rfl rfl rfl
  | done heff hdone =>
    refine ⟨hc.contexts.trans (.done _), ?_, ?_, hc.changes, hc.registrants, hc.callouts⟩
    · obtain ⟨c, heff, hroot⟩ := hc.effective
      exact ⟨c, h.abi.contexts.effective_done.trans heff, hroot⟩
    · intro x hx
      rw [← hc.tickPeriods x hx]
      show (h.abi.contexts.done.2.get x).map _ = _
      rcases h.abi.contexts.done_cases with heq | ⟨id, -, -, heq⟩ <;> rw [heq]
      unfold ContextTable.setState
      rw [ContextTable.get_modify]
      split
      · rw [Option.map_map]
        rfl
      · rfl
  | setEffective heff hroot hrej hid =>
    rename_i current id
    refine ⟨hc.contexts.trans (.setEffective _ _), ?_, ?_, hc.changes, hc.registrants,
      hc.callouts⟩
    · obtain ⟨c, heff', hroot'⟩ := hc.effective
      rw [heff] at heff'
      cases heff'
      refine ⟨id, (ContextTable.effective_of_setEffective hid).1, ?_⟩
      rw [← hc.contexts.rootOf, hroot, hc.contexts.rootOf, hroot']
    · intro x hx
      rw [← hc.tickPeriods x hx]
      show ((h.abi.contexts.setEffective id).2.get x).map _ = _
      rw [ContextTable.get_setEffective]
  | tickPeriod period live hcontext hroot hset =>
    rename_i c root'
    rw [hc.contexts.rootOf, hc.rootOf_context hcontext] at hroot
    cases hroot
    have hroot : h.abi.contexts.rootOf c = some root := by
      rw [hc.contexts.rootOf]; exact hc.rootOf_context hcontext
    refine ⟨hc.contexts.trans (.setTickPeriod _ _ _), ?_, ?_, ?_, hc.registrants, hc.callouts⟩
    · obtain ⟨c', heff, hroot'⟩ := hc.effective
      exact ⟨c', (h.abi.contexts.effective_setTickPeriod c period).trans heff, hroot'⟩
    · intro x hx
      rw [← hc.tickPeriods x hx]
      show ((h.abi.contexts.setTickPeriod c period).2.get x).map _ = _
      rcases h.abi.contexts.setTickPeriod_cases c period with heq | ⟨root', entry, hroot', -, heq⟩ <;>
        rw [heq]
      cases hroot.symm.trans hroot'
      rw [ContextTable.get_modify, if_neg hx]
    · intro x hx
      show (h.abi.changes.tickPeriods.insert root period)[x]? = _
      rw [ExtTreeMap.getElem?_insert, if_neg, hc.changes x hx]
      rw [Std.LawfulEqOrd.compare_eq_iff_eq]
      exact Ne.symm hx
  | settled => exact hc.settle
  | shared op answer live hcontext hgranted hholds => exact hc.recordShared op answer hcontext
  | opened answer live hcontext hroot hdel hlen hres hop =>
    rename_i c root' id reserved kind op
    have hc' := hc.rootOf_context hcontext
    rw [hc.contexts.rootOf, hc'] at hroot
    cases hroot
    refine hc.withCallouts fun x entry hx => ?_
    rw [CalloutTable.get_of_asked hres] at hx
    split at hx
    · cases hx
      exact .inl ⟨rfl, hc'⟩
    · exact .inr ⟨entry, hx, rfl, rfl⟩
  | sent message endOfStream answer live hcontext hget hkind hopen =>
    split
    · exact hc.closeByGuest _
    · exact hc
  | cancelled answer live hcontext hget hkind =>
    refine hc.withCallouts fun x entry hx => .inr ⟨entry, ?_, rfl, rfl⟩
    rw [CalloutTable.get_remove] at hx
    split at hx
    · cases hx
    · exact hx
  | closed answer live hcontext hget hkind hopen => exact hc.closeByGuest _

theorem steps (hc : Confined root start h.abi) (path : Steps HostStep h t h') :
    Confined root start h'.abi :=
  path.invariant (I := fun h => Confined root start h.abi) (fun _ _ _ => step) hc

end Confined

end ProxyWasmHost
