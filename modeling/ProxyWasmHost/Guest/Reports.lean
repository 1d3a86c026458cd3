/-
  The reports of `take_changes`: an embedder that keeps a ledger of them knows the tick
  period of every root, and every queue that a root registered.
-/
import ProxyWasmHost.Guest.Path
import ProxyWasmHost.Lib.TreeMap

namespace ProxyWasmHost

open Std Prog Session Prologue

/-! ## The ledger -/

/-- What an embedder knows from the reports: the last period reported for each root, and
    the registrations reported, with the shared services the guest had then. -/
structure Ledger where
  shared : ServiceId
  periods : ContextId → Option ℕ
  registered : ServiceId → QueueId → ContextId → Prop

namespace Ledger

/-- The ledger with one more report. -/
def add (l : Ledger) (changes : Changes) : Ledger where
  shared := l.shared
  periods root := changes.tickPeriods[root]?.getD (l.periods root)
  registered service queue root := l.registered service queue root ∨
    service = l.shared ∧ ∃ entry ∈ changes.queues, entry.queue = queue ∧ entry.root = root

/-- The ledger after a call. -/
def call (l : Ledger) (call : Call) : Ledger :=
  match call.op, call.exit with
  | .setServices services, _ => { l with shared := services.shared }
  | .takeChanges, .ok (.changes changes) => l.add changes
  | _, _ => l

end Ledger

/-- The ledger of an embedder that read every report of a run. -/
def Run.ledger (r : Run) : Ledger :=
  r.calls.foldl Ledger.call ⟨r.services.shared, fun _ => none, fun _ _ _ => False⟩

/-! ## Registrants and periods -/

namespace AbiState

variable {abi abi' : AbiState} {queue q : QueueId} {root x : ContextId} {name : Bytes}

theorem registered_registerQueue :
    x ∈ (abi.registerQueue queue root name).registered q ↔
      x ∈ abi.registered q ∨ q = queue ∧ x = root := by
  unfold registerQueue
  split
  · rename_i hold
    refine ⟨.inl, ?_⟩
    rintro (h | ⟨rfl, rfl⟩)
    · exact h
    · exact ExtTreeSet.contains_iff_mem.1 hold
  · unfold registered
    dsimp only
    rw [ExtTreeMap.get?_insert]
    by_cases hq : q = queue
    · rw [if_pos hq, Option.getD_some, ExtTreeSet.mem_insert, LawfulEqOrd.compare_eq_iff_eq, hq]
      exact ⟨fun h => h.symm.imp_right fun hx => ⟨rfl, hx.symm⟩,
        fun h => h.symm.imp_left fun hx => hx.2.symm⟩
    · rw [if_neg hq]
      exact ⟨.inl, fun h => h.resolve_right fun hx => hq hx.1⟩

theorem registered_forgetRegistrant :
    x ∈ (abi.forgetRegistrant root).registered q ↔ x ≠ root ∧ x ∈ abi.registered q := by
  unfold forgetRegistrant registered
  dsimp only
  rw [ExtTreeMap.getElem?_filterMap']
  cases hroots : abi.registrants[q]? with
  | none => simp
  | some roots =>
    rw [Option.bind_some, Option.getD_some]
    have herase : x ∈ roots.erase root ↔ x ≠ root ∧ x ∈ roots := by
      rw [ExtTreeSet.mem_erase, ne_eq, LawfulEqOrd.compare_eq_iff_eq]
      exact and_congr_left' (not_congr eq_comm)
    split
    · rename_i hempty
      rw [← herase, ExtTreeSet.isEmpty_iff.1 hempty, Option.getD_none]
    · rw [Option.getD_some]
      exact herase

end AbiState

namespace ContextTable

variable {t t' : ContextTable} {id root x : ContextId}

theorem tickPeriod_modify {f : ContextEntry → ContextEntry}
    (htype : ∀ entry, (f entry).contextType = entry.contextType)
    (hperiod : ∀ entry, (f entry).tickPeriod = entry.tickPeriod) :
    (t.modify id f).tickPeriod x = t.tickPeriod x := by
  unfold tickPeriod
  rw [get_modify]
  split
  · cases t.get x with
    | none => rfl
    | some entry =>
      show (if (f entry).contextType = .root then (f entry).tickPeriod else none) =
        if entry.contextType = .root then entry.tickPeriod else none
      rw [htype, hperiod]
  · rfl

theorem tickPeriod_of_none (h : t.get x = none) : t.tickPeriod x = none := by
  unfold tickPeriod
  rw [h]
  rfl

theorem tickPeriod_done : t.done.2.tickPeriod x = t.tickPeriod x := by
  rcases t.done_cases with heq | ⟨id, -, -, heq⟩ <;> rw [heq]
  exact tickPeriod_modify (fun _ => rfl) fun _ => rfl

theorem tickPeriod_setEffective : (t.setEffective id).2.tickPeriod x = t.tickPeriod x := by
  unfold tickPeriod
  rw [get_setEffective]

theorem tickPeriod_setPlugin (plugin : PluginConfig) :
    (t.setPlugin root plugin).tickPeriod x = t.tickPeriod x := by
  unfold ContextTable.setPlugin
  split
  · exact tickPeriod_modify (fun _ => rfl) fun _ => rfl
  · rfl

theorem tickPeriod_create {parent : Option ContextId} (hwf : t.WellFormed)
    (hcreates : t.Creates parent id t') : t'.tickPeriod x = t.tickPeriod x := by
  by_cases hx : x = id
  · subst hx
    have hnone : t.get x = none := by
      rw [hcreates.id_eq]
      exact hwf.get_next
    rw [tickPeriod_of_none hnone]
    unfold tickPeriod
    rw [hcreates.get_eq, if_pos rfl]
    show (if typeUnder parent = .root then none else none) = none
    split <;> rfl
  · unfold tickPeriod
    rw [hcreates.get_eq, if_neg hx]

theorem tickPeriod_remove :
    (t.remove id).tickPeriod x = if x = id then none else t.tickPeriod x := by
  split
  · rename_i hx
    exact tickPeriod_of_none (by rw [get_remove, if_pos hx])
  · rename_i hx
    unfold tickPeriod
    rw [get_remove, if_neg hx]

/-- The period that a guest sets is the one of the root. -/
theorem tickPeriod_setTickPeriod (hwf : t.WellFormed) (hroot : t.rootOf id = some root)
    (period : Option ℕ) : (t.setTickPeriod id period).2.tickPeriod x =
      if x = root then period else t.tickPeriod x := by
  have htype := hwf.contextType_of_rootOf hroot
  obtain ⟨entry, hget⟩ := Option.isSome_iff_exists.1 (isSome_of_contextType htype)
  have hentry : entry.contextType = .root := by
    unfold contextType at htype
    rw [hget] at htype
    exact Option.some.inj htype
  unfold ContextTable.setTickPeriod
  rw [hroot]
  dsimp only
  rw [hget]
  dsimp only
  unfold tickPeriod
  rw [get_modify]
  by_cases hx : x = root
  · rw [if_pos hx, if_pos hx, hx, hget]
    exact if_pos hentry
  · rw [if_neg hx, if_neg hx]

end ContextTable

/-! ## What the ledger and the pending changes say together -/

/-- **The ledger with the pending changes is the guest**: they give the tick period of
    every root, a pending registration names a registrant, and a registrant is pending or
    was reported with the services that granted it. -/
structure Ledger.Agrees (l : Ledger) (abi : AbiState) : Prop where
  periods : ∀ root, abi.changes.tickPeriods[root]?.getD (l.periods root) =
    abi.contexts.tickPeriod root
  pending : ∀ entry ∈ abi.changes.queues, entry.root ∈ abi.registered entry.queue
  reported : ∀ queue root, root ∈ abi.registered queue →
    (∃ entry ∈ abi.changes.queues, entry.queue = queue ∧ entry.root = root) ∨
    ∃ service, abi.grantedAgainst = some service ∧ l.registered service queue root

namespace Ledger.Agrees

variable {l : Ledger} {abi abi' : AbiState}

/-- A change of nothing that the ledger is about. -/
theorem congr (h : l.Agrees abi)
    (hperiods : ∀ root, abi'.contexts.tickPeriod root = abi.contexts.tickPeriod root)
    (hchanges : abi'.changes = abi.changes) (hregistrants : abi'.registrants = abi.registrants)
    (hgranted : abi'.grantedAgainst = abi.grantedAgainst) : l.Agrees abi' := by
  have hregistered : ∀ queue, abi'.registered queue = abi.registered queue := fun queue => by
    unfold AbiState.registered
    rw [hregistrants]
  refine ⟨fun root => ?_, fun entry hmem => ?_, fun queue root hroot => ?_⟩
  · rw [hchanges, hperiods]
    exact h.periods root
  · rw [hregistered]
    exact h.pending entry (hchanges ▸ hmem)
  · rw [hchanges, hgranted]
    exact h.reported queue root (hregistered queue ▸ hroot)

theorem settle (h : l.Agrees abi) : l.Agrees abi.settle := by
  unfold AbiState.settle
  dsimp only
  split
  · exact h
  · exact ⟨h.periods, fun entry hmem => by simp at hmem, fun queue root hroot => by
      simp [AbiState.registered] at hroot⟩

theorem setTickPeriod {id root : ContextId} (h : l.Agrees abi) (hwf : abi.contexts.WellFormed)
    (hroot : abi.contexts.rootOf id = some root) (period : Option ℕ) :
    l.Agrees ((abi.withContexts (abi.contexts.setTickPeriod id period).2).noteTickPeriod root
      period) where
  periods x := by
    show (abi.changes.tickPeriods.insert root period)[x]?.getD _ =
      (abi.contexts.setTickPeriod id period).2.tickPeriod x
    rw [ExtTreeMap.get?_insert, ContextTable.tickPeriod_setTickPeriod hwf hroot]
    split
    · rfl
    · exact h.periods x
  pending := h.pending
  reported := h.reported

theorem registerQueue {queue : QueueId} {root : ContextId} {name : Bytes} (h : l.Agrees abi) :
    l.Agrees (abi.registerQueue queue root name) := by
  by_cases hold : (abi.registered queue).contains root
  · unfold AbiState.registerQueue
    rw [if_pos hold]
    exact h
  · have hregistered : ∀ q x, x ∈ (abi.registerQueue queue root name).registered q ↔
        x ∈ abi.registered q ∨ q = queue ∧ x = root :=
      fun q x => AbiState.registered_registerQueue
    have hnew : (abi.registerQueue queue root name).changes =
        { abi.changes with queues := insert ⟨queue, root, name⟩ abi.changes.queues } := by
      unfold AbiState.registerQueue
      rw [if_neg hold]
    have hsame : (abi.registerQueue queue root name).contexts = abi.contexts ∧
        (abi.registerQueue queue root name).grantedAgainst = abi.grantedAgainst := by
      unfold AbiState.registerQueue
      rw [if_neg hold]
      exact ⟨rfl, rfl⟩
    refine ⟨fun x => ?_, fun entry hmem => ?_, fun q x hx => ?_⟩
    · rw [hnew, hsame.1]
      exact h.periods x
    · rw [hnew, Finset.mem_insert] at hmem
      refine (hregistered _ _).2 ?_
      rcases hmem with rfl | hmem
      · exact .inr ⟨rfl, rfl⟩
      · exact .inl (h.pending entry hmem)
    · rw [hnew, hsame.2]
      rcases (hregistered q x).1 hx with hx | ⟨rfl, rfl⟩
      · refine (h.reported q x hx).imp_left ?_
        rintro ⟨entry, hmem, hentry⟩
        exact ⟨entry, Finset.mem_insert_of_mem hmem, hentry⟩
      · exact .inl ⟨_, Finset.mem_insert_self _ _, rfl, rfl⟩

theorem forgetRegistrant {root : ContextId} (h : l.Agrees abi)
    (hpending : ∀ entry ∈ abi.changes.queues, entry.root ≠ root) :
    l.Agrees (abi.forgetRegistrant root) where
  periods := h.periods
  pending entry hmem := AbiState.registered_forgetRegistrant.2
    ⟨hpending entry hmem, h.pending entry hmem⟩
  reported queue x hx := h.reported queue x (AbiState.registered_forgetRegistrant.1 hx).2

end Ledger.Agrees

/-! ## What a step keeps -/

/-- A context that leaves the table takes nothing along that the embedder still has to hear
    of: it has no tick period, and no registration of it is pending. -/
def Event.Clean : Event → Prop
  | .deleted id abi => abi.contexts.tickPeriod id = none ∧
      ∀ entry ∈ abi.changes.queues, entry.root ≠ id
  | _ => True

instance : DecidablePred Event.Clean := fun e => by
  unfold Event.Clean
  split <;> infer_instance

variable {aim : Aim} {s s' : Session} {t : List Event} {l : Ledger}

theorem Ledger.Agrees.host {h h' : HostState} (hagrees : l.Agrees h.abi)
    (hwf : h.abi.contexts.WellFormed) (step : HostStep h t h') : l.Agrees h'.abi := by
  cases step with
  | done => exact hagrees.congr (fun _ => ContextTable.tickPeriod_done) rfl rfl rfl
  | setEffective => exact hagrees.congr (fun _ => ContextTable.tickPeriod_setEffective) rfl rfl rfl
  | tickPeriod period live hc hroot hset => exact hagrees.setTickPeriod hwf hroot period
  | settled => exact hagrees.settle
  | announced buffer =>
    obtain ⟨announced, heq⟩ := h.abi.takeAnnounced_eq buffer
    show l.Agrees (h.abi.takeAnnounced buffer).2
    rw [heq]
    exact hagrees.congr (fun _ => rfl) rfl rfl rfl
  | shared op answer =>
    rename_i c _ _ _ _ _
    show l.Agrees (h.abi.recordShared c op answer)
    unfold AbiState.recordShared
    split
    · unfold recordRegistered
      dsimp only
      have hgranted : ∀ queue name, l.Agrees ((h.abi.grantQueue queue).holdSharedName name) :=
        fun _ _ => hagrees.congr (fun _ => rfl) rfl rfl rfl
      split
      · exact (hgranted _ _).registerQueue
      · exact hgranted _ _
    · exact hagrees.congr (fun _ => rfl) rfl rfl rfl
    · exact hagrees.congr (fun _ => rfl) rfl rfl rfl
    · exact hagrees
  | _ => exact hagrees.congr (fun _ => rfl) rfl rfl rfl

/-- **Every step keeps the ledger true**, unless it takes the changes or deletes a context
    that the embedder still has to hear of. -/
theorem Ledger.Agrees.step (h : l.Agrees s.abi) (hwf : s.abi.contexts.WellFormed)
    (haim : aim ≠ .changes) (step : s.Step aim t s') (hclean : ∀ e ∈ t, e.Clean) :
    l.Agrees s'.abi := by
  cases step with
  | host running step => exact h.host hwf step
  | began params may => exact h.congr (fun _ => ContextTable.tickPeriod_setEffective) rfl rfl rfl
  | created aimed idle live vm accepted create =>
    exact h.congr (fun _ => ContextTable.tickPeriod_create hwf
      (ContextTable.creates_of_create create)) rfl rfl rfl
  | streamKind | state | rejected =>
    exact h.congr (fun _ => ContextTable.tickPeriod_modify (fun _ => rfl) fun _ => rfl) rfl rfl rfl
  | plugin root plugin aimed =>
    exact h.congr (fun _ => ContextTable.tickPeriod_setPlugin plugin) rfl rfl rfl
  | deleted aimed idle live mark known root children =>
    rename_i id isRoot
    obtain ⟨hperiod, hpending⟩ := hclean _ (.head _)
    have hremoved : l.Agrees (s.abi.withContexts (s.abi.contexts.remove id)) := by
      refine h.congr (fun x => ?_) rfl rfl rfl
      show (s.abi.contexts.remove id).tickPeriod x = _
      rw [ContextTable.tickPeriod_remove]
      split
      · rename_i hx
        rw [hx, hperiod]
      · rfl
    cases isRoot with
    | true => exact hremoved.forgetRegistrant hpending
    | false => exact hremoved
  | changes aimed => exact absurd aimed haim
  | _ => exact h.congr (fun _ => rfl) rfl rfl rfl

theorem Ledger.Agrees.steps (h : l.Agrees s.abi) (hsound : s.Sound) (haim : aim ≠ .changes)
    (path : Steps (Session.Step aim) s t s') (hclean : ∀ e ∈ t, e.Clean) : l.Agrees s'.abi := by
  induction path with
  | nil => exact h
  | cons step _ ih =>
    refine ih (h.step hsound.contexts haim step fun e he => hclean e (List.mem_append_left _ he))
      (hsound.step step) fun e he => hclean e (List.mem_append_right _ he)

/-! ## What a call keeps -/

/-- Only the embedder replaces the services. -/
theorem Session.Step.services_eq (step : s.Step aim t s') (haim : aim ≠ .services) :
    s'.abi.services = s.abi.services := by
  cases step with
  | host running step => exact (HostKeeps.of_step step).services
  | services services aimed => exact absurd aimed haim
  | deleted aimed idle live mark known root children =>
    rename_i c isRoot
    cases isRoot <;> rfl
  | _ => rfl

theorem Session.services_of_steps (path : Steps (Session.Step aim) s t s')
    (haim : aim ≠ .services) : s'.abi.services = s.abi.services :=
  path.invariant (I := fun s' => s'.abi.services = s.abi.services)
    (fun _ _ _ hI step => (step.services_eq haim).trans hI) rfl

/-- The ledger of an embedder that knows the services of the guest. -/
structure Ledger.Keeps (l : Ledger) (s : Session) : Prop where
  agrees : l.Agrees s.abi
  shared : l.shared = s.abi.services.shared

/-- A report, which loses no registration that is pending. -/
theorem Ledger.Keeps.add (h : l.Keeps s)
    (hcurrent : s.abi.grantsAreCurrent = true ∨ s.abi.changes.queues = ∅) :
    (l.add s.abi.takeChanges.1).Keeps (s.mapAbi fun _ => s.abi.takeChanges.2) where
  shared := h.shared
  agrees :=
    { periods := fun root => by
        have hperiods := h.agrees.periods root
        show (∅ : ExtTreeMap ContextId (Option ℕ))[root]?.getD
          (s.abi.takeChanges.1.tickPeriods[root]?.getD (l.periods root)) = _
        rw [ExtTreeMap.getElem?_empty, Option.getD_none]
        unfold AbiState.takeChanges
        split <;> exact hperiods
      pending := fun entry hmem => by
        change entry ∈ (∅ : Finset QueueRegistration) at hmem
        simp at hmem
      reported := fun queue root hroot => by
        refine .inr ?_
        rcases h.agrees.reported queue root hroot with ⟨entry, hmem, hentry⟩ | ⟨service, hgranted, hold⟩
        · rcases hcurrent with hcurrent | hnone
          · refine ⟨l.shared, ?_, .inr ⟨rfl, entry, ?_, hentry⟩⟩
            · rw [h.shared]
              exact of_decide_eq_true hcurrent
            · unfold AbiState.takeChanges
              rw [if_pos hcurrent]
              exact hmem
          · rw [hnone] at hmem
            simp at hmem
        · exact ⟨service, hgranted, .inl hold⟩ }

/-- **Every call keeps the ledger true.** -/
theorem Ledger.Keeps.call {call : Call} (h : l.Keeps s) (hcall : s.CallPath call s')
    (hclean : ∀ e ∈ call.trace, e.Clean)
    (htaken : call.op = .takeChanges →
      s.abi.grantsAreCurrent = true ∨ s.abi.changes.queues = ∅) : (l.call call).Keeps s' := by
  by_cases hchanges : call.op = .takeChanges
  · have hexit := hcall.exit
    have hlast := hcall.last
    rw [hchanges] at hexit hlast
    have hledger : l.call call = l.add s.abi.takeChanges.1 := by
      unfold Ledger.call
      rw [hchanges, hexit]
      rfl
    rw [hledger, hlast]
    exact h.add (htaken hchanges)
  by_cases hservices : ∃ services, call.op = .setServices services
  · obtain ⟨services, hop⟩ := hservices
    have hlast := hcall.last
    rw [hop] at hlast
    have hledger : l.call call = { l with shared := services.shared } := by
      unfold Ledger.call
      rw [hop]
    rw [hledger, hlast]
    exact ⟨⟨h.agrees.periods, h.agrees.pending, h.agrees.reported⟩, rfl⟩
  · have haim : call.op.aim ≠ .changes ∧ call.op.aim ≠ .services := by
      refine ⟨fun haim => ?_, fun haim => ?_⟩ <;> cases hop : call.op <;> rw [hop] at haim <;>
        cases haim
      · exact hchanges hop
      · exact hservices ⟨_, hop⟩
    have hledger : l.call call = l := by
      unfold Ledger.call
      split
      · exact absurd ⟨_, ‹_›⟩ hservices
      · exact absurd ‹_› hchanges
      · rfl
    rw [hledger]
    refine ⟨h.agrees.steps hcall.sound haim.1 hcall.path hclean, ?_⟩
    rw [h.shared, Session.services_of_steps hcall.path haim.2]

/-- What a true ledger says about a report. -/
theorem Ledger.Keeps.says (h : l.Keeps s) :
    (∀ root period, s.abi.takeChanges.1.tickPeriods[root]? = some period →
      s.abi.contexts.tickPeriod root = period) ∧
    (∀ entry ∈ s.abi.takeChanges.1.queues, entry.root ∈ s.abi.registrantsOf entry.queue) ∧
    (∀ root, s.abi.contexts.tickPeriod root ≠ l.periods root →
      (s.abi.takeChanges.1.tickPeriods[root]?).isSome) ∧
    (∀ queue root, root ∈ s.abi.registrantsOf queue →
      ¬ l.registered s.abi.services.shared queue root →
      ∃ entry ∈ s.abi.takeChanges.1.queues, entry.queue = queue ∧ entry.root = root) ∧
    ∀ root, (l.add s.abi.takeChanges.1).periods root = s.abi.contexts.tickPeriod root := by
  have hperiods : s.abi.takeChanges.1.tickPeriods = s.abi.changes.tickPeriods := by
    unfold AbiState.takeChanges
    split <;> rfl
  have hcurrent : ∀ queue root, root ∈ s.abi.registrantsOf queue ↔
      s.abi.grantsAreCurrent = true ∧ root ∈ s.abi.registered queue := by
    intro queue root
    unfold AbiState.registrantsOf
    split
    · rename_i hcurrent
      rw [ExtTreeSet.mem_toList]
      exact ⟨fun hmem => ⟨hcurrent, hmem⟩, And.right⟩
    · rename_i hnot
      exact ⟨fun hmem => by simp at hmem, fun hmem => absurd hmem.1 hnot⟩
  have hqueues : s.abi.grantsAreCurrent = true →
      s.abi.takeChanges.1.queues = s.abi.changes.queues := by
    intro hcurrent
    unfold AbiState.takeChanges
    rw [if_pos hcurrent]
  have hagrees := h.agrees.periods
  refine ⟨?_, ?_, ?_, ?_, ?_⟩
  · intro root period hreported
    rw [← hagrees root, ← hperiods, hreported]
    rfl
  · intro entry hmem
    by_cases hnow : s.abi.grantsAreCurrent = true
    · rw [hqueues hnow] at hmem
      exact (hcurrent _ _).2 ⟨hnow, h.agrees.pending entry hmem⟩
    · unfold AbiState.takeChanges at hmem
      rw [if_neg hnow] at hmem
      simp at hmem
  · intro root hdiffers
    rw [hperiods]
    by_contra hnone
    rw [Option.not_isSome_iff_eq_none] at hnone
    refine hdiffers ?_
    rw [← hagrees root, hnone]
    rfl
  · intro queue root hroot hnew
    obtain ⟨hnow, hroot⟩ := (hcurrent queue root).1 hroot
    rcases h.agrees.reported queue root hroot with hpending | ⟨service, hgranted, hold⟩
    · rw [hqueues hnow]
      exact hpending
    · have hservice : s.abi.grantedAgainst = some s.abi.services.shared := of_decide_eq_true hnow
      rw [hgranted, Option.some.injEq] at hservice
      rw [hservice] at hold
      exact absurd hold hnew
  · intro root
    show s.abi.takeChanges.1.tickPeriods[root]?.getD _ = _
    rw [hperiods]
    exact hagrees root

/-- **Reports**: in a run that deletes no context whose changes the embedder still has to
    hear of, and in which no report is taken while registrations are pending that the
    services of the guest did not grant, `take_changes` reports what the guest has now, every
    period that the ledger has not, and every registration that was not reported with these
    services; and the ledger then has the tick period of every root. -/
theorem Run.reports (r : Run) (hclean : ∀ e ∈ r.trace, e.Clean)
    (htaken : ∀ before call after s, r.calls = before ++ call :: after →
      Steps Session.Calls r.fresh before s → call.op = .takeChanges →
      s.abi.grantsAreCurrent = true ∨ s.abi.changes.queues = ∅) :
    ∃ changes, (Op.takeChanges.perform.run r.last).exit = .ok (.changes changes) ∧
      (∀ root period, changes.tickPeriods[root]? = some period →
        r.last.abi.contexts.tickPeriod root = period) ∧
      (∀ entry ∈ changes.queues, entry.root ∈ r.last.abi.registrantsOf entry.queue) ∧
      (∀ root, r.last.abi.contexts.tickPeriod root ≠ r.ledger.periods root →
        (changes.tickPeriods[root]?).isSome) ∧
      (∀ queue root, root ∈ r.last.abi.registrantsOf queue →
        ¬ r.ledger.registered r.last.abi.services.shared queue root →
        ∃ entry ∈ changes.queues, entry.queue = queue ∧ entry.root = root) ∧
      ∀ root, (r.ledger.add changes).periods root = r.last.abi.contexts.tickPeriod root := by
  have hkeeps : r.ledger.Keeps r.last := by
    refine r.induction_at (I := fun past s =>
      (past.foldl Ledger.call ⟨r.services.shared, fun _ => none, fun _ _ _ => False⟩).Keeps s) ?_ ?_
    · have hnew : Ledger.Keeps ⟨r.services.shared, fun _ => none, fun _ _ _ => False⟩ r.first :=
        ⟨⟨fun root => rfl, fun entry hmem => by
          change entry ∈ (∅ : Finset QueueRegistration) at hmem
          simp at hmem, fun queue root hroot => by
          change root ∈ (∅ : ExtTreeMap QueueId (ExtTreeSet ContextId))[queue]?.getD ∅ at hroot
          simp at hroot⟩, rfl⟩
      refine ⟨hnew.agrees.steps (Session.sound_new _ _ _ _) (by rintro ⟨⟩) r.fresh_ready.1
        fun e he => hclean e (List.mem_append_left _ he), ?_⟩
      rw [List.foldl_nil, Session.services_of_steps r.fresh_ready.1 (by rintro ⟨⟩)]
      rfl
    · intro before call after s s' hcalls hpath hI hcall
      rw [List.foldl_append]
      refine hI.call hcall (fun e he => hclean e ?_) fun hop =>
        htaken before call after s hcalls hpath hop
      refine List.mem_append_right _ (List.mem_flatMap.2 ⟨call, ?_, he⟩)
      rw [hcalls]
      exact List.mem_append_right _ (.head _)
  exact ⟨r.last.abi.takeChanges.1, rfl, hkeeps.says⟩

/-! ## A root that is deleted, and services that are replaced -/

namespace Reports

def root : ContextId := .min

def services (shared : ServiceId) : VmServices := ⟨[], .info, [], [], shared, 2⟩

/-- Guest code that sets a tick period. -/
def setPeriod : Code := .calling (.proxySetTickPeriodMilliseconds 250) .refusing 0

/-- A root sets a tick period and is deleted. -/
def deleted : Run :=
  .of 0 .bare (services 1) (.atMost none)
    [.enter .noStream, .onContextCreate none setPeriod, .onDone root (.returning 1),
      .onDelete root (fun _ => .returning 0) (.returning 0), .finish]
    rfl (by decide)

/-- An embedder that gives every queue one identifier. -/
def oneQueue : World :=
  { World.refusing with
    shared :=
      { World.refusing.shared with
        registerSharedQueue := fun _ _ _ => some (.ok .min) } }

/-- A root registers a queue, and the embedder takes the changes while it has replaced the
    shared services for a while. -/
def replaced : Run :=
  .of 0 .bare (services 1) (.atMost none)
    [.enter .noStream,
      .onContextCreate none (.calling (.proxyRegisterSharedQueue 0 0 0) oneQueue 0), .finish,
      .setServices (services 7), .takeChanges, .setServices (services 1)]
    rfl (by decide)

/-- The period of the deleted root is reported, and the registration is not. -/
theorem deleted_reported :
    (∃ changes, (Op.takeChanges.perform.run deleted.last).exit = .ok (.changes changes) ∧
      changes.tickPeriods[root]? = some (some 250) ∧
      deleted.last.abi.contexts.tickPeriod root = none) ∧
    ∃ changes, (Op.takeChanges.perform.run replaced.last).exit = .ok (.changes changes) ∧
      replaced.last.abi.registrantsOf .min = [root] ∧
      changes.queues = ∅ ∧
      ∀ call ∈ replaced.calls, ∀ earlier, call.exit = .ok (.changes earlier) → earlier.queues = ∅ := by
  refine ⟨⟨_, rfl, by decide, by decide⟩, _, rfl, by decide, by decide, ?_⟩
  intro call hmem earlier hexit
  iterate 5
    rcases List.mem_cons.1 hmem with rfl | hmem
    · first
        | cases hexit
          done
        | cases hexit
          rfl
  rcases List.mem_singleton.1 hmem with rfl
  cases hexit

/-- A root that sets a tick period. -/
def ticking : Run :=
  .of 0 .bare (services 1) (.atMost none)
    [.enter .noStream, .onContextCreate none setPeriod, .finish] rfl (by decide)

theorem ticking_reported : ∃ changes, (Op.takeChanges.perform.run ticking.last).exit =
    .ok (.changes changes) ∧ (ticking.ledger.add changes).periods root = some 250 := by
  have htaken : ∀ call ∈ ticking.calls, call.op ≠ .takeChanges := by
    intro call hmem hop
    rcases List.mem_cons.1 hmem with rfl | hmem
    · cases hop
    rcases List.mem_cons.1 hmem with rfl | hmem
    · cases hop
    rcases List.mem_singleton.1 hmem with rfl
    cases hop
  obtain ⟨changes, hexit, -, -, -, -, hperiods⟩ := Run.reports ticking (by decide)
    fun before call after s hcalls _ hop => absurd hop (htaken call (by simp [hcalls]))
  exact ⟨changes, hexit, hperiods root⟩

end Reports

end ProxyWasmHost
