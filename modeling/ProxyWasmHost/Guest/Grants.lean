/-
  The grants of a guest and the shared services that gave them: however the embedder replaces
  the services, an identifier reaches the service that answered it and no other.
-/
import ProxyWasmHost.Guest.Contexts
import ProxyWasmHost.Guest.Reports
import ProxyWasmHost.Lib.Scan

namespace ProxyWasmHost

open Prog Session Prologue

variable {h h' : HostState} {s s' : Session} {aim : Aim} {t past : List Event} {queue : QueueId}
  {metric : MetricId} {root : ContextId} {service : ServiceId}

/-! ## What the events tell of the services -/

/-- An identifier that a guest gets from the shared services. -/
inductive Grant where
  | queue (id : QueueId)
  | metric (id : MetricId)
  deriving DecidableEq

/-- The identifier that an operation presents. -/
def SharedOp.presents : SharedOp → Option Grant
  | .enqueueSharedQueue queue _ | .dequeueSharedQueue queue => some (.queue queue)
  | .recordMetric metric _ | .incrementMetric metric _ | .getMetric metric => some (.metric metric)
  | _ => none

/-- The identifier that an operation gives when it is answered. -/
def SharedOp.grants : SharedOp → SharedReply → Option Grant
  | .registerSharedQueue _ _, .queue queue | .resolveSharedQueue _ _, .queue queue =>
    some (.queue queue)
  | .defineMetric _ _ _, .metric metric => some (.metric metric)
  | _, _ => none

/-- The service that an event settles the grants against, or asks. -/
def Event.against : Event → Option ServiceId
  | .settled service | .shared service _ _ _ _ => some service
  | _ => none

/-- An event concerns no other shared service. -/
def Event.Agrees (service : ServiceId) (e : Event) : Prop :=
  ∀ other, e.against = some other → other = service

/-- `service` answers a guest an identifier. -/
inductive Event.Answers (service : ServiceId) (guest : GuestId) (grant : Grant) : Event → Prop
  | shared {call : Invocation} {op : SharedOp} {reply : SharedReply} {abi : AbiState}
      (caller : call.guest = guest) (given : op.grants reply = some grant) :
      Answers service guest grant (.shared service call op (some (.ok reply)) abi)

/-- `service` answers a context of `root` the queue that the context registers. -/
inductive Event.Registers (service : ServiceId) (root : ContextId) (queue : QueueId) : Event → Prop
  | shared {call : Invocation} {vmId name : Bytes} {abi : AbiState}
      (caller : abi.contexts.rootOf call.context = some root) :
      Registers service root queue (.shared service call (.registerSharedQueue vmId name)
        (some (.ok (.queue queue))) abi)

/-- The guest holds an identifier. -/
def AbiState.HoldsGrant (abi : AbiState) : Grant → Prop
  | .queue queue => queue ∈ abi.queues
  | .metric metric => metric ∈ abi.metrics

theorem AbiState.holdsGrant_of_holds {abi : AbiState} {op : SharedOp} {grant : Grant}
    (hholds : abi.Holds op) (hop : op.presents = some grant) : abi.HoldsGrant grant := by
  cases op with
  | enqueueSharedQueue | dequeueSharedQueue | recordMetric | incrementMetric | getMetric =>
    cases hop
    exact hholds
  | _ => cases hop

/-! ## The past of the grants -/

/-- **The grants of a guest have a past**: the service they were granted against answered each of
    them, and nothing was settled against another service since. -/
structure AbiState.Granted (abi : AbiState) (past : List Event) : Prop where
  held : ∀ grant, abi.HoldsGrant grant → ∃ service, abi.grantedAgainst = some service ∧
    Since (Event.Answers service abi.guest grant) (Event.Agrees service) past
  registered : ∀ queue root, root ∈ abi.registered queue → ∃ service,
    abi.grantedAgainst = some service ∧
    Since (Event.Registers service root queue) (Event.Agrees service) past

theorem AbiState.not_registered_new {guest : GuestId} {services : VmServices} :
    root ∉ (AbiState.new guest services).registered queue := by
  simp [AbiState.registered, AbiState.new]

namespace AbiState.Granted

variable {abi abi' : AbiState}

theorem new (guest : GuestId) (services : VmServices) :
    (AbiState.new guest services).Granted [] where
  held grant hheld := by cases grant <;> simp [HoldsGrant, AbiState.new] at hheld
  registered queue root hroot := absurd hroot not_registered_new

/-- Events of the service that the grants are of. -/
theorem append (hg : abi.Granted past)
    (ht : ∀ service, abi.grantedAgainst = some service → ∀ e ∈ t, e.Agrees service) :
    abi.Granted (past ++ t) := by
  refine ⟨fun grant hheld => ?_, fun queue root hroot => ?_⟩
  · obtain ⟨service, hservice, hsince⟩ := hg.held grant hheld
    exact ⟨service, hservice, hsince.append (ht service hservice)⟩
  · obtain ⟨service, hservice, hsince⟩ := hg.registered queue root hroot
    exact ⟨service, hservice, hsince.append (ht service hservice)⟩

/-- Fewer grants, of the same service. -/
theorem mono (hg : abi.Granted past) (hguest : abi'.guest = abi.guest)
    (hgranted : abi'.grantedAgainst = abi.grantedAgainst)
    (hheld : ∀ grant, abi'.HoldsGrant grant → abi.HoldsGrant grant)
    (hregistered : ∀ queue root, root ∈ abi'.registered queue → root ∈ abi.registered queue) :
    abi'.Granted past := by
  refine ⟨fun grant h => ?_, fun queue root h => ?_⟩
  · rw [hguest, hgranted]
    exact hg.held grant (hheld grant h)
  · rw [hgranted]
    exact hg.registered queue root (hregistered queue root h)

/-- A change of nothing that the grants are about. -/
theorem congr (hg : abi.Granted past) (hguest : abi'.guest = abi.guest)
    (hgranted : abi'.grantedAgainst = abi.grantedAgainst) (hqueues : abi'.queues = abi.queues)
    (hmetrics : abi'.metrics = abi.metrics) (hregistrants : abi'.registrants = abi.registrants) :
    abi'.Granted past := by
  refine hg.mono hguest hgranted (fun grant h => ?_) fun queue root h => ?_
  · cases grant with
    | queue queue => exact (congrArg (queue ∈ ·) hqueues).mp h
    | metric metric => exact (congrArg (metric ∈ ·) hmetrics).mp h
  · unfold AbiState.registered at h ⊢
    exact hregistrants ▸ h

/-- **A settlement** forgets the grants of another service. -/
theorem settle (hg : abi.Granted past) :
    abi.settle.Granted (past ++ [.settled abi.services.shared]) := by
  unfold AbiState.settle
  dsimp only
  split
  · rename_i hsame
    refine hg.append fun service hservice e he other hother => ?_
    cases List.mem_singleton.1 he
    cases hother
    exact Option.some.inj (hsame.symm.trans hservice)
  · refine ⟨fun grant hheld => ?_, fun queue root hroot => ?_⟩
    · cases grant <;> simp [HoldsGrant] at hheld
    · simp [AbiState.registered] at hroot

end AbiState.Granted

/-! ## What an answer grants -/

namespace AbiState

variable {abi : AbiState} {c : ContextId} {op : SharedOp} {name : Bytes} {q : QueueId}
  {answer : Answer (Except Status SharedReply)} {grant : Grant}

theorem grants_recordRegistered :
    (recordRegistered name c queue abi).queues = insert queue abi.queues ∧
      (recordRegistered name c queue abi).metrics = abi.metrics ∧
      (recordRegistered name c queue abi).grantedAgainst = abi.grantedAgainst ∧
      (recordRegistered name c queue abi).guest = abi.guest := by
  unfold recordRegistered registerQueue
  dsimp only
  split
  · split <;> exact ⟨rfl, rfl, rfl, rfl⟩
  · exact ⟨rfl, rfl, rfl, rfl⟩

/-- The registrant that a registration adds is the root of the caller. -/
theorem registered_recordRegistered (h : root ∈ (recordRegistered name c queue abi).registered q) :
    root ∈ abi.registered q ∨ q = queue ∧ abi.contexts.rootOf c = some root := by
  unfold recordRegistered at h
  dsimp only at h
  split at h
  · rename_i found hroot
    refine (registered_registerQueue.1 h).imp_right ?_
    rintro ⟨hq, rfl⟩
    exact ⟨hq, hroot⟩
  · exact .inl h

theorem grantedAgainst_recordShared :
    (abi.recordShared c op answer).grantedAgainst = abi.grantedAgainst ∧
      (abi.recordShared c op answer).guest = abi.guest := by
  unfold recordShared
  split
  · exact grants_recordRegistered.2.2
  · exact ⟨rfl, rfl⟩
  · exact ⟨rfl, rfl⟩
  · exact ⟨rfl, rfl⟩

/-- **An answer grants what it names**, and nothing else. -/
theorem holdsGrant_recordShared (h : (abi.recordShared c op answer).HoldsGrant grant) :
    abi.HoldsGrant grant ∨ ∃ reply, answer = some (.ok reply) ∧ op.grants reply = some grant := by
  have hinsert : ∀ {queues : Finset QueueId} {queue : QueueId}, queues = insert queue abi.queues →
      ∀ x ∈ queues, x = queue ∨ x ∈ abi.queues := by
    rintro _ queue rfl x hx
    exact Finset.mem_insert.1 hx
  unfold recordShared at h
  split at h
  · rename_i name queue
    cases grant with
    | queue x =>
      rcases hinsert grants_recordRegistered.1 x h with rfl | hx
      · exact .inr ⟨_, rfl, rfl⟩
      · exact .inl hx
    | metric x => exact .inl ((congrArg (x ∈ ·) grants_recordRegistered.2.1).mp h)
  · rename_i name queue
    cases grant with
    | queue x =>
      rcases hinsert rfl x h with rfl | hx
      · exact .inr ⟨_, rfl, rfl⟩
      · exact .inl hx
    | metric x => exact .inl h
  · rename_i name metric
    cases grant with
    | queue x => exact .inl h
    | metric x =>
      rcases Finset.mem_insert.1 h with rfl | hx
      · exact .inr ⟨_, rfl, rfl⟩
      · exact .inl hx
  · exact .inl h

theorem registered_recordShared (h : root ∈ (abi.recordShared c op answer).registered q) :
    root ∈ abi.registered q ∨ ∃ vmId name, op = .registerSharedQueue vmId name ∧
      answer = some (.ok (.queue q)) ∧ abi.contexts.rootOf c = some root := by
  unfold recordShared at h
  split at h
  · rcases registered_recordRegistered h with hold | ⟨rfl, hroot⟩
    · exact .inl hold
    · exact .inr ⟨_, _, rfl, rfl, hroot⟩
  · exact .inl h
  · exact .inl h
  · exact .inl h

/-- **An operation** of the service that the grants are of. -/
theorem Granted.recordShared (hg : abi.Granted past) (hservice : abi.grantedAgainst = some service)
    {call : Invocation} (hguest : call.guest = abi.guest) :
    (abi.recordShared call.context op answer).Granted
      (past ++ [.shared service call op answer abi]) := by
  have hpast : abi.Granted (past ++ [.shared service call op answer abi]) := by
    refine hg.append fun service' hservice' e he other hother => ?_
    cases List.mem_singleton.1 he
    cases hother
    exact Option.some.inj (hservice.symm.trans hservice')
  obtain ⟨hagainst, hguest'⟩ := @grantedAgainst_recordShared abi call.context op answer
  refine ⟨fun grant hheld => ?_, fun queue root hroot => ?_⟩
  · rw [hagainst, hguest']
    rcases holdsGrant_recordShared hheld with hold | ⟨reply, rfl, hgrants⟩
    · exact hpast.held grant hold
    · exact ⟨service, hservice, .last (.shared hguest hgrants)⟩
  · rw [hagainst]
    rcases registered_recordShared hroot with hold | ⟨vmId, name, rfl, rfl, hcaller⟩
    · exact hpast.registered queue root hold
    · exact ⟨service, hservice, .last (.shared hcaller)⟩

end AbiState

/-! ## Steps -/

/-- An event that is of no shared service agrees with each. -/
theorem Event.agrees_of_none {e : Event} (h : e.against = none) : e.Agrees service := by
  intro other hother
  rw [h] at hother
  cases hother

/-- An event asks a service for `guest` about identifiers only that the service answered it, and
    with nothing settled against another service since. -/
def Event.Founded (guest : GuestId) (past : List Event) : Event → Prop
  | .shared service call op _ _ => call.guest = guest ∧ ∀ grant, op.presents = some grant →
      Since (Event.Answers service guest grant) (Event.Agrees service) past
  | _ => True

/-- **A step of a host function** keeps the past of the grants, and what it presents has one. -/
theorem AbiState.Granted.host (hg : h.abi.Granted past) (step : HostStep h t h') :
    h'.abi.Granted (past ++ t) ∧ ∀ e ∈ t, e.Founded h.abi.guest past := by
  have hplain : ∀ e ∈ t, e.against = none → e.Founded h.abi.guest past := by
    intro e he hnone
    cases e with
    | shared => cases hnone
    | _ => trivial
  have hkept : h'.abi.guest = h.abi.guest → h'.abi.grantedAgainst = h.abi.grantedAgainst →
      h'.abi.queues = h.abi.queues → h'.abi.metrics = h.abi.metrics →
      h'.abi.registrants = h.abi.registrants → (∀ e ∈ t, e.against = none) →
      h'.abi.Granted (past ++ t) ∧ ∀ e ∈ t, e.Founded h.abi.guest past :=
    fun hguest hgranted hqueues hmetrics hregistrants hnone =>
      ⟨(hg.congr hguest hgranted hqueues hmetrics hregistrants).append fun service _ e he =>
        e.agrees_of_none (hnone e he), fun e he => hplain e he (hnone e he)⟩
  cases step with
  | settled =>
    refine ⟨hg.settle, fun e he => ?_⟩
    cases List.mem_singleton.1 he
    trivial
  | shared op answer live hc hgranted hholds hroom =>
    rename_i c
    have hguest : (h.abi.invocation c).guest = h.abi.guest := rfl
    refine ⟨AbiState.Granted.recordShared hg hgranted hguest, fun e he => ?_⟩
    cases List.mem_singleton.1 he
    refine ⟨rfl, fun grant hop => ?_⟩
    obtain ⟨service, hservice, hsince⟩ := hg.held grant (AbiState.holdsGrant_of_holds hholds hop)
    rw [hgranted] at hservice
    cases hservice
    exact hsince
  | announced buffer =>
    obtain ⟨announced, heq⟩ := h.abi.takeAnnounced_eq buffer
    exact hkept (congrArg (·.guest) heq) (congrArg (·.grantedAgainst) heq)
      (congrArg (·.queues) heq) (congrArg (·.metrics) heq) (congrArg (·.registrants) heq)
      (by rintro e ⟨⟩)
  | memory | poison | setEffective | tickPeriod =>
    exact hkept rfl rfl rfl rfl rfl (by rintro e ⟨⟩)
  | called | logged | stream | done | opened | sent | cancelled | closed =>
    refine hkept rfl rfl rfl rfl rfl fun e he => ?_
    cases List.mem_singleton.1 he
    rfl

/-- **A step of a guest** keeps the past of the grants. -/
theorem AbiState.Granted.step (hg : s.abi.Granted past) (step : s.Step aim t s') :
    s'.abi.Granted (past ++ t) ∧ s'.abi.guest = s.abi.guest ∧
      ∀ e ∈ t, e.Founded s.abi.guest past := by
  have hnil : s'.abi.Granted past → s'.abi.Granted (past ++ []) := fun hg => by
    rwa [List.append_nil]
  have hone : ∀ e, e.against = none → t = [e] → s'.abi.Granted past →
      s'.abi.Granted (past ++ t) := by
    rintro e hnone rfl hg'
    refine hg'.append fun service _ e' he => ?_
    cases List.mem_singleton.1 he
    exact e.agrees_of_none hnone
  cases step with
  | host running step =>
    obtain ⟨hg', hfounded⟩ := hg.host step
    exact ⟨hg', (HostKeeps.of_step step).guest, hfounded⟩
  | began | finished | returned | unwound | created | ended | dropped =>
    refine ⟨hone _ rfl rfl (hg.congr rfl rfl rfl rfl rfl), rfl, fun e he => ?_⟩
    cases List.mem_singleton.1 he
    trivial
  | deleted aimed idle live mark known root children =>
    rename_i c isRoot
    refine ⟨hone _ rfl rfl ?_, by cases isRoot <;> rfl, fun e he => ?_⟩
    · cases isRoot with
      | false => exact hg.congr rfl rfl rfl rfl rfl
      | true =>
        exact hg.mono rfl rfl (fun grant hheld => hheld) fun queue root hroot =>
          (AbiState.registered_forgetRegistrant.1 hroot).2
    · cases List.mem_singleton.1 he
      trivial
  | _ => exact ⟨hnil (hg.congr rfl rfl rfl rfl rfl), rfl, by rintro e ⟨⟩⟩

/-! ## The registrants -/

/-- The context is a root of the table. -/
def ContextTable.IsRoot (table : ContextTable) (root : ContextId) : Prop :=
  (table.get root).map (·.parent) = some none

namespace ContextTable.IsRoot

variable {table table' : ContextTable}

theorem of_rootOf {c : ContextId} (hwf : table.WellFormed) (hroot : table.rootOf c = some root) :
    table.IsRoot root := by
  have htype := hwf.contextType_of_rootOf hroot
  obtain ⟨entry, hget⟩ := Option.isSome_iff_exists.1 (isSome_of_contextType htype)
  unfold ContextTable.contextType at htype
  rw [hget, Option.map_some, Option.some.injEq] at htype
  unfold IsRoot
  rw [hget, Option.map_some, hwf.parent_of_root hget htype]

theorem contextType_eq (h : table.IsRoot root) (hwf : table.WellFormed) :
    table.contextType root = some .root := by
  unfold IsRoot at h
  obtain ⟨entry, hget, hparent⟩ := Option.map_eq_some_iff.1 h
  have hfits := hwf.fits root entry hget
  unfold ContextTable.contextType
  rw [hget, Option.map_some]
  cases htype : entry.contextType with
  | root => rfl
  | stream =>
    rw [ContextEntry.Fits, htype, hparent] at hfits
    cases hfits.1

/-- A root stays until it is deleted. -/
theorem moves (h : table.IsRoot root) (hwf : table.WellFormed) (moves : table.Moves t table')
    (hgone : ∀ abi, .deleted root abi ∉ t) : table'.IsRoot root := by
  unfold IsRoot at h ⊢
  cases moves with
  | created creates =>
    obtain ⟨entry, hget, -⟩ := Option.map_eq_some_iff.1 h
    rw [creates.get_eq, if_neg]
    · exact h
    · rintro rfl
      rw [creates.id_eq, hwf.get_next] at hget
      cases hget
  | deleted shown known children =>
    rw [get_remove, if_neg]
    · exact h
    · rintro rfl
      exact hgone _ (.head _)
  | kept next parents none_made none_gone => rw [parents, h]

end ContextTable.IsRoot

/-- The registrants are roots of the table. -/
def AbiState.RegistrantsLive (abi : AbiState) : Prop :=
  ∀ queue root, root ∈ abi.registered queue → abi.contexts.IsRoot root

/-- A host function adds no registrant but the root of a context. -/
theorem HostStep.registered (step : HostStep h t h') (hwf : h.abi.contexts.WellFormed)
    (hroot : root ∈ h'.abi.registered queue) :
    root ∈ h.abi.registered queue ∨ h.abi.contexts.IsRoot root := by
  cases step with
  | settled =>
    left
    change root ∈ h.abi.settle.registered queue at hroot
    unfold AbiState.settle at hroot
    dsimp only at hroot
    split at hroot
    · exact hroot
    · simp [AbiState.registered] at hroot
  | shared op answer live hc hgranted hholds hroom =>
    refine (AbiState.registered_recordShared hroot).imp_right ?_
    rintro ⟨vmId, name, -, -, hcaller⟩
    exact .of_rootOf hwf hcaller
  | announced buffer =>
    left
    obtain ⟨announced, heq⟩ := h.abi.takeAnnounced_eq buffer
    change root ∈ (h.abi.takeAnnounced buffer).2.registered queue at hroot
    rw [heq] at hroot
    exact hroot
  | _ => exact .inl hroot

theorem AbiState.RegistrantsLive.step (hlive : s.abi.RegistrantsLive)
    (hwf : s.abi.contexts.WellFormed) (step : s.Step aim t s') : s'.abi.RegistrantsLive := by
  intro queue root hroot
  have hmoves := step.moves
  have hkept : s.abi.contexts.IsRoot root → (∀ abi, .deleted root abi ∉ t) →
      s'.abi.contexts.IsRoot root := fun h hgone => h.moves hwf hmoves hgone
  cases step with
  | host running step =>
    refine hkept ((step.registered hwf hroot).elim (hlive queue root) id) fun abi hmem => ?_
    exact (step.not_made hmem).2 root abi rfl
  | deleted aimed idle live mark known root' children =>
    rename_i c isRoot
    have hmem : root ∈ s.abi.registered queue := by
      cases isRoot with
      | false => exact hroot
      | true => exact (AbiState.registered_forgetRegistrant.1 hroot).2
    have hold : s.abi.contexts.IsRoot root := hlive queue root hmem
    refine hkept hold fun abi hdeleted => ?_
    cases List.mem_singleton.1 hdeleted
    have hparent : s.abi.contexts.parent root = none :=
      hwf.parent_eq_none (hold.contextType_eq hwf)
    rw [hparent] at root'
    subst root'
    exact (AbiState.registered_forgetRegistrant.1 hroot).1 rfl
  | began | finished | returned | unwound | created | ended | dropped =>
    refine hkept (hlive queue root hroot) fun abi hdeleted => ?_
    cases List.mem_singleton.1 hdeleted
  | _ => exact hkept (hlive queue root hroot) (by rintro abi ⟨⟩)

/-- The embedder tells a root of a queue, and is not turned away, only when the root is one of the
    registrants. -/
theorem onQueueReady_accepts {code : Code}
    (haccepts : ((onQueueReady root queue code).run s).trace ≠ [] ∨
      ∃ u, ((onQueueReady root queue code).run s).exit = .ok u) :
    root ∈ s.abi.registrantsOf queue := by
  by_contra hnot
  have hleaves : Leaves (onQueueReady root queue code) (fun _ _ _ => False) (fun _ t _ => t = [])
      (fun t _ => t = []) s := by
    unfold onQueueReady
    refine .bind ((requireLive_leaves s).mono (fun _ _ _ h => h) (fun _ _ _ h => h.1)
      fun _ _ => False.elim) ?_
    rintro _ t _ ⟨rfl, rfl, -⟩
    refine .bind_finds requireRoot_finds (fun _ _ => ?_) (fun _ => rfl) rfl
    refine .bind_finds accepted_finds (fun _ _ => ?_) (fun _ => rfl) rfl
    exact .bind_read (.bind_require (fun hmem => absurd hmem hnot) fun _ => rfl)
  unfold Leaves at hleaves
  cases hexit : ((onQueueReady root queue code).run s).exit with
  | ok u => rw [hexit] at hleaves; exact hleaves
  | err e =>
    rw [hexit] at hleaves
    rcases haccepts with htrace | ⟨u, hok⟩
    · exact htrace hleaves
    · rw [hexit] at hok; cases hok
  | panicked =>
    rw [hexit] at hleaves
    rcases haccepts with htrace | ⟨u, hok⟩
    · exact htrace hleaves
    · rw [hexit] at hok; cases hok

/-! ## Runs -/

namespace Run

variable (r : Run)

theorem granted : r.last.abi.Granted r.trace ∧ r.last.abi.RegistrantsLive :=
  (r.history (I := fun past s => s.abi.Granted past ∧ s.abi.RegistrantsLive)
    ⟨.new _ _, fun _ _ hroot => absurd hroot AbiState.not_registered_new⟩
    fun _ _ _ _ _ _ ⟨hg, hlive⟩ hsound step =>
      ⟨(hg.step step).1, hlive.step hsound.contexts step⟩)

/-- **What is asked of a service has a past.** -/
theorem founded {past rest : List Event} {e : Event} (ht : r.trace = past ++ e :: rest) :
    e.Founded r.guest past := by
  refine r.path.in_past (I := fun past s => s.abi.Granted past ∧ s.abi.guest = r.guest)
    (P := fun past e => e.Founded r.guest past) ?_ ?_ ⟨.new _ _, rfl⟩ ht
  · rintro s t s' ⟨aim, -, -, step⟩
    exact step.one
  · rintro past s t s' ⟨hg, hguest⟩ ⟨aim, -, -, step⟩
    obtain ⟨hg', hguest', hfounded⟩ := hg.step step
    exact ⟨⟨hg', hguest'.trans hguest⟩, hguest ▸ hfounded⟩

/-- A root that is told of a queue registered it with the service the guest has now. -/
theorem registrant_known (hroot : root ∈ r.last.abi.registrantsOf queue) :
    r.last.abi.contexts.contextType root = some .root ∧
      Since (Event.Registers r.last.abi.services.shared root queue)
        (Event.Agrees r.last.abi.services.shared) r.trace := by
  obtain ⟨hg, hlive⟩ := r.granted
  unfold AbiState.registrantsOf at hroot
  split at hroot
  · rename_i hcurrent
    have hcurrent : r.last.abi.grantedAgainst = some r.last.abi.services.shared :=
      of_decide_eq_true hcurrent
    have hmem : root ∈ r.last.abi.registered queue := Std.ExtTreeSet.mem_toList.1 hroot
    obtain ⟨service, hservice, hsince⟩ := hg.registered queue root hmem
    cases hcurrent.symm.trans hservice
    exact ⟨(hlive queue root hmem).contextType_eq r.last_sound.contexts, hsince⟩
  · cases hroot

/-- **Grants end with their service.** Whatever the embedder replaces the shared services by and
    when, an identifier that reaches a service was answered to this guest by that service, with
    nothing settled against another since; and every root that is told of a queue is a live root
    that registered the queue with the service the guest has now. -/
theorem grants_end_with_service (queue : QueueId) (root : ContextId) (code : Code) :
    (∀ past rest service call op answer abi,
      r.trace = past ++ .shared service call op answer abi :: rest →
      call.guest = r.guest ∧ ∀ grant, op.presents = some grant →
        Since (Event.Answers service r.guest grant) (Event.Agrees service) past) ∧
    (root ∈ r.last.abi.registrantsOf queue →
      r.last.abi.contexts.contextType root = some .root ∧
        Since (Event.Registers r.last.abi.services.shared root queue)
          (Event.Agrees r.last.abi.services.shared) r.trace) ∧
    (((onQueueReady root queue code).run r.last).trace ≠ [] ∨
        (∃ u, ((onQueueReady root queue code).run r.last).exit = .ok u) →
      r.last.abi.contexts.contextType root = some .root ∧
        Since (Event.Registers r.last.abi.services.shared root queue)
          (Event.Agrees r.last.abi.services.shared) r.trace) :=
  ⟨fun _ _ _ _ _ _ _ ht => r.founded ht, r.registrant_known,
    fun haccepts => r.registrant_known (onQueueReady_accepts haccepts)⟩

end Run

end ProxyWasmHost
