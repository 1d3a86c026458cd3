/-
  The limit of the identifiers a guest holds: no call makes a guest hold more than the
  embedder allows, unless a service answers a new identifier for a name that the guest
  already has one for.
-/
import ProxyWasmHost.Guest.Path

namespace ProxyWasmHost

namespace Id

variable {kind : IdKind}

/-- There are fewer than `2 ^ 32` identifiers of a kind. -/
theorem card_le (ids : Finset (Id kind)) : ids.card ≤ 2 ^ 32 := by
  have hsub : ids.image Id.val ⊆ Finset.range (2 ^ 32) := by
    intro n hn
    obtain ⟨id, -, rfl⟩ := Finset.mem_image.1 hn
    exact Finset.mem_range.2 id.lt
  have hcard := Finset.card_le_card hsub
  rwa [Finset.card_image_of_injective _ fun _ _ => Id.ext, Finset.card_range] at hcard

end Id

namespace AbiState

/-- How many queue and metric identifiers a guest holds. -/
def held (abi : AbiState) : ℕ := abi.queues.card + abi.metrics.card

/-- The count that the limit is compared with never saturates. -/
theorem sharedNames_eq (abi : AbiState) : abi.sharedNames = abi.held := by
  have hqueues := Id.card_le abi.queues
  have hmetrics := Id.card_le abi.metrics
  unfold sharedNames held satAdd
  exact Nat.min_eq_left (by unfold usizeMax; omega)

/-- Whether an answer gives the guest an identifier it does not hold. -/
def gains (abi : AbiState) : SharedOp → SharedReply → Bool
  | .registerSharedQueue _ _, .queue queue | .resolveSharedQueue _ _, .queue queue =>
    queue ∉ abi.queues
  | .defineMetric _ _ _, .metric metric => metric ∉ abi.metrics
  | _, _ => false

theorem held_settle (abi : AbiState) : abi.settle.held ≤ abi.held := by
  unfold settle held
  dsimp only
  split
  · exact Nat.le_refl _
  · exact Nat.zero_le _

theorem held_takeAnnounced (abi : AbiState) (buffer : BufferType) :
    (abi.takeAnnounced buffer).2.held = abi.held := by
  obtain ⟨announced, heq⟩ := abi.takeAnnounced_eq buffer
  rw [heq]
  rfl

theorem held_grantQueue (abi : AbiState) (queue : QueueId) :
    (abi.grantQueue queue).held ≤ abi.held + if queue ∈ abi.queues then 0 else 1 := by
  unfold grantQueue held
  dsimp only
  rw [Finset.card_insert_eq_ite]
  split <;> omega

theorem held_grantMetric (abi : AbiState) (metric : MetricId) :
    (abi.grantMetric metric).held ≤ abi.held + if metric ∈ abi.metrics then 0 else 1 := by
  unfold grantMetric held
  dsimp only
  rw [Finset.card_insert_eq_ite]
  split <;> omega

theorem held_recordRegistered (abi : AbiState) (name : Bytes) (caller : ContextId)
    (queue : QueueId) :
    (recordRegistered name caller queue abi).held = (abi.grantQueue queue).held := by
  unfold recordRegistered registerQueue
  dsimp only
  split
  · split <;> rfl
  · rfl

/-- An answer adds no identifier, or one that is new. -/
theorem held_recordShared (abi : AbiState) (caller : ContextId) (op : SharedOp)
    (answer : Answer (Except Status SharedReply)) :
    (abi.recordShared caller op answer).held ≤ abi.held ∨
      (abi.recordShared caller op answer).held ≤ abi.held + 1 ∧
        ∃ reply, answer = some (.ok reply) ∧ abi.gains op reply = true := by
  have hqueue : ∀ queue, (abi.grantQueue queue).held ≤ abi.held ∨
      (abi.grantQueue queue).held ≤ abi.held + 1 ∧ queue ∉ abi.queues := by
    intro queue
    have hle := held_grantQueue abi queue
    by_cases hmem : queue ∈ abi.queues
    · rw [if_pos hmem] at hle; exact .inl hle
    · rw [if_neg hmem] at hle; exact .inr ⟨hle, hmem⟩
  have hmetric : ∀ metric, (abi.grantMetric metric).held ≤ abi.held ∨
      (abi.grantMetric metric).held ≤ abi.held + 1 ∧ metric ∉ abi.metrics := by
    intro metric
    have hle := held_grantMetric abi metric
    by_cases hmem : metric ∈ abi.metrics
    · rw [if_pos hmem] at hle; exact .inl hle
    · rw [if_neg hmem] at hle; exact .inr ⟨hle, hmem⟩
  unfold recordShared
  split
  · rw [held_recordRegistered]
    exact (hqueue _).imp_right fun ⟨hle, hnew⟩ => ⟨hle, _, rfl, decide_eq_true hnew⟩
  · exact (hqueue _).imp_right fun ⟨hle, hnew⟩ => ⟨hle, _, rfl, decide_eq_true hnew⟩
  · exact (hmetric _).imp_right fun ⟨hle, hnew⟩ => ⟨hle, _, rfl, decide_eq_true hnew⟩
  · exact .inl (Nat.le_refl _)

end AbiState

/-- Whether a service answers a new identifier for a name that the guest holds, while it
    holds as many identifiers as it may. -/
def Event.overruns (max : ℕ) : Event → Bool
  | .shared _ _ op (some (.ok reply)) abi =>
    op.sharedName.any abi.holdsSharedName && decide (max ≤ abi.held) && abi.gains op reply
  | _ => false

/-- A new identifier is asked for by a name. -/
theorem AbiState.sharedName_of_gains {abi : AbiState} {op : SharedOp} {reply : SharedReply}
    (h : abi.gains op reply = true) : ∃ name, op.sharedName = some name := by
  cases op <;> cases reply <;> first | cases h | exact ⟨_, rfl⟩

/-- **A step within the limit**: unless its event overruns, a guest within the limit
    stays so. -/
theorem HostStep.held {h h' : HostState} {t : List Event} {max : ℕ} (step : HostStep h t h')
    (hmax : h.limits.maxSharedNames = some max) (hheld : h.abi.held ≤ max)
    (hover : ∀ e ∈ t, e.overruns max = false) : h'.abi.held ≤ max := by
  cases step with
  | settled => exact (AbiState.held_settle _).trans hheld
  | announced buffer => exact (AbiState.held_takeAnnounced _ _).symm ▸ hheld
  | shared op answer live hc hgranted hholds hroom =>
    rcases AbiState.held_recordShared h.abi _ op answer with hsame | ⟨hone, reply, rfl, hnew⟩
    · exact hsame.trans hheld
    · refine hone.trans ?_
      obtain ⟨name, hname⟩ := AbiState.sharedName_of_gains hnew
      rcases hroom name hname with hnamed | hfewer
      · have hfew : (op.sharedName.any h.abi.holdsSharedName && decide (max ≤ h.abi.held) &&
            h.abi.gains op reply) = false := hover _ (.head _)
        rw [hname, Option.any_some, hnamed, hnew, Bool.true_and, Bool.and_true,
          decide_eq_false_iff_not] at hfew
        omega
      · have hfew := hfewer max hmax
        rw [AbiState.sharedNames_eq] at hfew
        exact hfew
  | _ => exact hheld

/-- Only host functions give a guest identifiers. -/
theorem Session.Step.held {s s' : Session} {aim : Aim} {t : List Event} {max : ℕ}
    (step : s.Step aim t s') (hmax : s.host.limits.maxSharedNames = some max)
    (hheld : s.abi.held ≤ max) (hover : ∀ e ∈ t, e.overruns max = false) : s'.abi.held ≤ max := by
  cases step with
  | host running step => exact step.held hmax hheld hover
  | deleted aimed idle live mark known root children =>
    rename_i c isRoot
    have hsame : (s.abi.removeContext c isRoot).held = s.abi.held := by cases isRoot <;> rfl
    exact hsame.symm ▸ hheld
  | _ => exact hheld

/-- **The shared name limit**: in a run in which no answer overruns it, a guest never
    holds more queue and metric identifiers than the embedder allows, neither between two
    calls nor inside one. -/
theorem Run.held_le (r : Run) {max : ℕ} (hmax : r.limits.maxSharedNames = some max)
    (hover : ∀ e ∈ r.trace, e.overruns max = false) :
    r.last.abi.queues.card + r.last.abi.metrics.card ≤ max ∧
      ∀ e ∈ r.trace, ∀ abi, e.snapshot = some abi → abi.queues.card + abi.metrics.card ≤ max := by
  have hhistory := r.history (I := fun past s => s.host.limits = r.limits ∧
    ((∀ e ∈ past, e.overruns max = false) → s.abi.held ≤ max ∧
      ∀ e ∈ past, ∀ abi, e.snapshot = some abi → abi.held ≤ max)) ?_ ?_
  · exact hhistory.2 hover
  · exact ⟨rfl, fun _ => ⟨Nat.zero_le _, by rintro e ⟨⟩⟩⟩
  · rintro aim past s t s' - ⟨hlimits, hI⟩ - step
    refine ⟨step.limits.trans hlimits, fun hover => ?_⟩
    obtain ⟨hheld, hpast⟩ := hI fun e he => hover e (List.mem_append_left _ he)
    refine ⟨step.held (hlimits.symm ▸ hmax) hheld fun e he =>
      hover e (List.mem_append_right _ he), fun e he abi hshow => ?_⟩
    rcases List.mem_append.1 he with he | he
    · exact hpast e he abi hshow
    · rw [step.snapshot he hshow]
      exact hheld

/-! ## A guest whose VM changes its name -/

namespace SharedNames

/-- A store that has one queue for each VM, whatever its name. -/
def perVm : World :=
  { World.refusing with
    shared :=
      { World.refusing.shared with
        registerSharedQueue := fun _ vmId _ =>
          some (.ok (if vmId = [1] then .min else Id.min.checkedSucc.getD .min)) } }

/-- Guest code that registers the queue with the empty name. -/
def register : Code := .calling (.proxyRegisterSharedQueue 0 0 0) perVm 1

def services (vmId : Bytes) : VmServices := ⟨[], .info, vmId, [], 1, 2⟩

/-- A guest that may hold one identifier registers a queue, is given another VM id, and
    registers the queue again. -/
def twoVms : Run :=
  .of 0 .bare (services [1]) (.atMost (some 1))
    [.enter .noStream, .onContextCreate none register, .finish, .setServices (services [2]),
      .enter .noStream, .onTick .min register]
    rfl (by decide)

/-- It ends with two identifiers. -/
theorem twoVms_held : twoVms.limits.maxSharedNames = some 1 ∧
    twoVms.last.abi.queues.card + twoVms.last.abi.metrics.card = 2 := by decide

/-- A guest that registers the same queue twice for the same VM. -/
def oneVm : Run :=
  .of 0 .bare (services [1]) (.atMost (some 1))
    [.enter .noStream, .onContextCreate none register, .onTick .min register]
    rfl (by decide)

theorem oneVm_held : oneVm.last.abi.queues.card + oneVm.last.abi.metrics.card ≤ 1 :=
  (Run.held_le oneVm (show oneVm.limits.maxSharedNames = some 1 from rfl) (by decide)).1

end SharedNames

end ProxyWasmHost
