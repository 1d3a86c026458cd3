/-
  What a guest can reach of a store it shares with the guests of other VMs.

  The identifiers of queues and metrics are small numbers that run through all VMs, so any guest
  can guess one. A guest reaches a metric only if it defined it in its own VM, and a queue only if
  it registered it there or resolved it by its name; all else of another VM stays as it is.
-/
import ProxyWasmHost.System.Process

namespace ProxyWasmHost

open Std InMemoryStore

attribute [local instance] lexOrd

/-! ## What a guest obtained -/

theorem SharedOp.grants_queue {op : SharedOp} {reply : SharedReply} {queue : QueueId}
    (h : op.grants reply = some (.queue queue)) : ∃ vmId name, reply = .queue queue ∧
      (op = .registerSharedQueue vmId name ∨ op = .resolveSharedQueue vmId name) := by
  unfold grants at h
  split at h <;> cases h
  · exact ⟨_, _, rfl, .inl rfl⟩
  · exact ⟨_, _, rfl, .inr rfl⟩

theorem SharedOp.grants_metric {op : SharedOp} {reply : SharedReply} {metric : MetricId}
    (h : op.grants reply = some (.metric metric)) :
    ∃ vmId kind name, reply = .metric metric ∧ op = .defineMetric vmId kind name := by
  unfold grants at h
  split at h <;> cases h
  exact ⟨_, _, _, rfl, rfl⟩

namespace Occurrence

/-- The guest `id` gets the queue under a name, which is one of its own VM unless it resolves it. -/
inductive Obtains (service : ServiceId) (id : GuestId) (vmId name : Bytes) (queue : QueueId) :
    Occurrence → Prop
  | registered {call : Invocation} {abi : AbiState} (own : abi.services.vmId = vmId) :
      Obtains service id vmId name queue (.guest id (.shared service call
        (.registerSharedQueue vmId name) (some (.ok (.queue queue))) abi))
  | resolved {call : Invocation} {abi : AbiState} :
      Obtains service id vmId name queue (.guest id (.shared service call
        (.resolveSharedQueue vmId name) (some (.ok (.queue queue))) abi))

/-- The guest `id` gets the metric of this kind under a name of its own VM. -/
inductive Defines (service : ServiceId) (id : GuestId) (vmId name : Bytes) (kind : MetricType)
    (metric : MetricId) : Occurrence → Prop
  | defined {call : Invocation} {abi : AbiState} (own : abi.services.vmId = vmId) :
      Defines service id vmId name kind metric (.guest id (.shared service call
        (.defineMetric vmId kind name) (some (.ok (.metric metric))) abi))

/-- The guest `id` is shown in the VM `vmId`. -/
def InVm (id : GuestId) (vmId : Bytes) : Occurrence → Prop
  | .guest id' event => id' = id ∧ event.snapshot.map (·.services.vmId) = some vmId
  | .embedder _ _ => False

instance (id : GuestId) (vmId : Bytes) : ∀ o : Occurrence, Decidable (o.InVm id vmId)
  | .guest id' event =>
    inferInstanceAs (Decidable (id' = id ∧ event.snapshot.map (·.services.vmId) = some vmId))
  | .embedder _ _ => inferInstanceAs (Decidable False)

theorem Defines.inVm {service : ServiceId} {id : GuestId} {vmId name : Bytes} {kind : MetricType}
    {metric : MetricId} {o : Occurrence} (h : o.Defines service id vmId name kind metric) :
    o.InVm id vmId := by
  obtain ⟨own⟩ := h
  exact ⟨rfl, congrArg some own⟩

/-- It happens to a guest that was in another VM whenever `past` shows it. -/
def Foreign (vmId : Bytes) (past : List Occurrence) : Occurrence → Prop
  | .guest id _ => ∀ o ∈ past, ¬ o.InVm id vmId
  | .embedder _ _ => False

instance (vmId : Bytes) (past : List Occurrence) : ∀ o : Occurrence, Decidable (o.Foreign vmId past)
  | .guest id _ => inferInstanceAs (Decidable (∀ o ∈ past, ¬ o.InVm id vmId))
  | .embedder _ _ => inferInstanceAs (Decidable False)

end Occurrence

theorem Occurrence.Foreign.mono {vmId : Bytes} {past past' : List Occurrence} {o : Occurrence}
    (h : o.Foreign vmId past') (hsub : past ⊆ past') : o.Foreign vmId past := by
  cases o with
  | guest id event => exact fun o ho => h o (hsub ho)
  | embedder => exact h

namespace Process

variable {p : Process} {past rest mid : List Occurrence} {o : Occurrence} {id : GuestId}
  {call : Invocation} {op : SharedOp} {answer : Answer (Except Status SharedReply)} {abi : AbiState}
  {vmId name : Bytes} {queue : QueueId} {metric : MetricId} {kind : MetricType}

/-- What a guest asks for itself is for the VM it has then. -/
theorem madeFor_own
    (ht : p.trace = past ++ .guest id (.shared p.service call op answer abi) :: rest)
    (hop : op.madeFor = some vmId) : abi.services.vmId = vmId := by
  obtain ⟨r, -, -, htrace⟩ := p.exists_run ht
  have hwithin : Event.Within r.limits (.shared p.service call op answer abi) :=
    r.within _ (by rw [htrace]; simp)
  exact (hwithin.2 vmId hop).symm

/-- An answer that a guest got is the one of the store. -/
theorem change_of_shared {reply : Except Status SharedReply}
    (ht : p.trace = past ++ .guest id (.shared p.service call op (some reply) abi) :: rest) :
    Change (p.storeAfter past) op reply
      (p.storeAfter (past ++ [.guest id (.shared p.service call op (some reply) abi)])) := by
  have hasked : (Occurrence.guest id (.shared p.service call op (some reply) abi)).asked
      p.service = some (op, some reply) := if_pos rfl
  rcases p.fits ht _ hasked with hreply | ⟨hnone, -⟩
  · obtain rfl : reply = ((p.storeAfter past).answer op).1 := Option.some.inj hreply
    rw [storeAfter_concat, Occurrence.act, Occurrence.asks, hasked]
    exact change_of_answer _ _
  · cases hnone

/-- The answer that gave a guest what it presents. -/
theorem exists_answer {grant : Grant}
    (ht : p.trace = past ++ .guest id (.shared p.service call op answer abi) :: rest)
    (hop : op.presents = some grant) : ∃ earlier later call' op' reply abi',
      past = earlier ++ .guest id (.shared p.service call' op' (some (.ok reply)) abi') :: later ∧
      op'.grants reply = some grant := by
  obtain ⟨r, -, rfl, htrace⟩ := p.exists_run ht
  obtain ⟨before, e, after, hpast, hanswers, -⟩ := (r.founded htrace).2 grant hop
  obtain ⟨earlier, later, rfl, -⟩ := exists_of_mem_ofGuest hpast
  obtain ⟨-, given⟩ := hanswers
  exact ⟨earlier, later, _, _, _, _, rfl, given⟩

/-- **The queue that a guest presents** has a name under which the guest got it, and which stands
    for it still. -/
theorem queue_obtained
    (ht : p.trace = past ++ .guest id (.shared p.service call op answer abi) :: rest)
    (hop : op.presents = some (.queue queue)) : ∃ vmId name,
      (∃ o ∈ past, o.Obtains p.service id vmId name queue) ∧
      (p.storeAfter past).queues.byName[(vmId, name)]? = some queue := by
  obtain ⟨earlier, later, call', op', reply, abi', rfl, given⟩ := exists_answer ht hop
  obtain ⟨vmId, name, rfl, hop'⟩ := SharedOp.grants_queue given
  rw [List.append_assoc, List.cons_append] at ht
  have hname := byName_of_change hop' (change_of_shared ht)
  refine ⟨vmId, name, ⟨_, List.mem_append_right _ (.head _), ?_⟩, ?_⟩
  · rcases hop' with rfl | rfl
    · exact .registered (madeFor_own ht rfl)
    · exact .resolved
  · rw [List.append_cons, storeAfter_append]
    exact byName_after hname _

/-- **The metric that a guest presents** has a name of a VM of the guest, under which the guest
    defined it, and which stands for it still. -/
theorem metric_defined
    (ht : p.trace = past ++ .guest id (.shared p.service call op answer abi) :: rest)
    (hop : op.presents = some (.metric metric)) : ∃ vmId name kind,
      (∃ o ∈ past, o.Defines p.service id vmId name kind metric) ∧
      (p.storeAfter past).MetricNamed (vmId, name) metric kind := by
  obtain ⟨earlier, later, call', op', reply, abi', rfl, given⟩ := exists_answer ht hop
  obtain ⟨vmId, kind, name, rfl, rfl⟩ := SharedOp.grants_metric given
  rw [List.append_assoc, List.cons_append] at ht
  have hnamed := metricNamed_of_change (change_of_shared ht)
  refine ⟨vmId, name, kind, ⟨_, List.mem_append_right _ (.head _), ?_⟩, ?_⟩
  · exact .defined (madeFor_own ht rfl)
  · rw [List.append_cons, storeAfter_append]
    exact hnamed.after (p.consistent_storeAfter _) _

end Process

/-! ## What others leave -/

/-- A call that is not made for a VM, and presents no metric of it, leaves its data and metrics,
    and each of its queues that the call does not present. -/
theorem InMemoryStore.view_spared {s s' : InMemoryStore} {op : SharedOp}
    {reply : Except Status SharedReply} {v : Bytes} (hs : s.Consistent)
    (hchange : Change s op reply s') (hmade : op.madeFor ≠ some v)
    (hmetric : ∀ metric, op.presents = some (.metric metric) →
      ∀ name : Bytes, s.metrics.byName[(v, name)]? ≠ some metric) :
    (s'.view v).data = (s.view v).data ∧ (s'.view v).metrics = (s.view v).metrics ∧
      ∀ name : Bytes, (∀ queue, op.presents = some (.queue queue) →
        s.queues.byName[(v, name)]? ≠ some queue) →
        (s'.view v).queues name = (s.view v).queues name := by
  cases hchange with
  | @written vmId key value cas hsize hkeys hcas =>
    rw [view_putData, if_neg fun hv => hmade (congrArg some hv)]
    exact ⟨rfl, rfl, fun _ _ => rfl⟩
  | @registered vmId name id hname hroom hid =>
    rw [view_addQueue hs hid, if_neg fun hv => hmade (congrArg some hv)]
    exact ⟨rfl, rfl, fun _ _ => rfl⟩
  | @defined vmId kind name id hname hroom hid =>
    rw [view_addMetric hs hid, if_neg fun hv => hmade (congrArg some hv)]
    exact ⟨rfl, rfl, fun _ _ => rfl⟩
  | pushed hitems hroom | popped hitems =>
    refine ⟨rfl, rfl, fun name hother => ?_⟩
    rw [queues_setItems, if_neg (hother _ rfl)]
  | recorded hheld hkind | incremented hheld hvalue htakes =>
    refine ⟨rfl, funext fun name => ?_, fun _ _ => rfl⟩
    rw [metrics_setMetric, if_neg (hmetric _ rfl name)]
  | refused | read | found | resolved | known | observed | measured =>
    exact ⟨rfl, rfl, fun _ _ => rfl⟩

namespace Process

variable {p : Process} {past rest mid : List Occurrence} {o : Occurrence} {v name : Bytes}

/-- The guest of an occurrence resolved this name of the VM `v` before. -/
def Resolved (p : Process) (v name : Bytes) (past : List Occurrence) : Occurrence → Prop
  | .guest id _ => ∃ o ∈ past, ∃ queue, o.Obtains p.service id v name queue
  | .embedder _ _ => False

/-- **One occurrence** of a guest that is not of the VM `v`. -/
theorem view_foreign (ht : p.trace = past ++ o :: rest) (hforeign : o.Foreign v (past ++ [o])) :
    ((p.storeAfter (past ++ [o])).view v).data = ((p.storeAfter past).view v).data ∧
      ((p.storeAfter (past ++ [o])).view v).metrics = ((p.storeAfter past).view v).metrics ∧
      ∀ name, ¬ p.Resolved v name past o →
        ((p.storeAfter (past ++ [o])).view v).queues name =
          ((p.storeAfter past).view v).queues name := by
  rcases p.storeAfter_change past o with ⟨heq, -⟩ | ⟨op, hasks, hchange⟩
  · rw [heq]
    exact ⟨rfl, rfl, fun _ _ => rfl⟩
  have hs := p.consistent_storeAfter past
  cases o with
  | embedder => exact hforeign.elim
  | guest id event =>
    obtain ⟨call, answer, abi, rfl⟩ := Occurrence.of_asks hasks
    have hspared := view_spared (v := v) hs hchange
      (fun hmade => hforeign _ (List.mem_append_right _ (.head _))
        ⟨rfl, congrArg some (madeFor_own ht hmade)⟩)
      fun metric hop name hname => ?_
    · refine ⟨hspared.1, hspared.2.1, fun name hresolved => hspared.2.2 name ?_⟩
      intro queue hop hname
      obtain ⟨vmId', name', ⟨o, ho, hobtains⟩, hname'⟩ := queue_obtained ht hop
      cases hs.queues.numbered.injective _ _ _ hname hname'
      exact hresolved ⟨o, ho, queue, hobtains⟩
    · obtain ⟨vmId', name', kind, ⟨o, ho, hdefines⟩, hnamed⟩ := metric_defined ht hop
      cases hs.metrics.numbered.injective _ _ _ hname hnamed.1
      exact hforeign o (List.mem_append_left _ ho) hdefines.inVm

/-- **A guest reaches what it was given a name for.** Whatever the guests of a process do and in
    whatever order, an identifier that a guest presents to the store is one that this guest got
    from the store earlier: a metric, under a name of a VM that the guest was in when it defined
    it; a queue, under a name that it registered in its VM then, or resolved. The name stands for
    the identifier still. All that the guest asks by name, a resolution apart, is in its VM. -/
theorem reaches_what_it_names (p : Process) {past rest : List Occurrence} {id : GuestId}
    {call : Invocation} {op : SharedOp} {answer : Answer (Except Status SharedReply)}
    {abi : AbiState}
    (ht : p.trace = past ++ .guest id (.shared p.service call op answer abi) :: rest) :
    (∀ queue, op.presents = some (.queue queue) → ∃ vmId name,
      (∃ o ∈ past, o.Obtains p.service id vmId name queue) ∧
      (p.storeAfter past).queues.byName[(vmId, name)]? = some queue) ∧
    (∀ metric, op.presents = some (.metric metric) → ∃ vmId name kind,
      (∃ o ∈ past, o.Defines p.service id vmId name kind metric) ∧
      (p.storeAfter past).MetricNamed (vmId, name) metric kind) ∧
    ∀ vmId, op.madeFor = some vmId → abi.services.vmId = vmId :=
  ⟨fun _ hop => queue_obtained ht hop, fun _ hop => metric_defined ht hop,
    fun _ hop => madeFor_own ht hop⟩

/-- The second guest takes a value from the queue that it resolved. -/
theorem taker_reaches_its_queue : ∃ vmId name,
    (∃ o ∈ TwoGuests.both.trace.take 43, o.Obtains 1 2 vmId name .min) ∧
      (TwoGuests.both.storeAfter (TwoGuests.both.trace.take 43)).queues.byName[(vmId, name)]? =
        some .min := by
  obtain ⟨call, op, answer, abi, ht, hop⟩ : ∃ call op answer abi,
      TwoGuests.both.trace = TwoGuests.both.trace.take 43 ++
        .guest 2 (.shared 1 call op answer abi) :: TwoGuests.both.trace.drop 44 ∧
      op.presents = some (.queue .min) := ⟨_, _, _, _, rfl, rfl⟩
  exact (reaches_what_it_names TwoGuests.both ht).1 _ hop

theorem Resolved.mono {later : List Occurrence} (h : p.Resolved v name past o) :
    p.Resolved v name (past ++ later) o := by
  cases o with
  | guest id event =>
    obtain ⟨o, ho, hobtains⟩ := h
    exact ⟨o, List.mem_append_left _ ho, hobtains⟩
  | embedder => exact h

/-- **Guests of other VMs leave the part of a VM as it is.** Over any stretch of a process in which
    only guests run that were never in the VM `v` up to its end, every value of `v` with its number
    and every metric of `v` stay, and so does each queue of `v` that none of these guests resolved
    by its name. -/
theorem others_leave (p : Process) {past mid rest : List Occurrence} {v : Bytes}
    (ht : p.trace = past ++ mid ++ rest) (hforeign : ∀ o ∈ mid, o.Foreign v (past ++ mid)) :
    ((p.storeAfter (past ++ mid)).view v).data = ((p.storeAfter past).view v).data ∧
    ((p.storeAfter (past ++ mid)).view v).metrics = ((p.storeAfter past).view v).metrics ∧
    ∀ name, (∀ o ∈ mid, ¬ p.Resolved v name (past ++ mid) o) →
      ((p.storeAfter (past ++ mid)).view v).queues name =
        ((p.storeAfter past).view v).queues name := by
  induction mid using List.reverseRecOn generalizing rest with
  | nil =>
    rw [List.append_nil]
    exact ⟨rfl, rfl, fun _ _ => rfl⟩
  | append_singleton mid o ih =>
    rw [← List.append_assoc] at ht ⊢
    have ht' : p.trace = past ++ mid ++ o :: rest := by rw [ht, List.append_assoc]; rfl
    have hbefore : ∀ o' ∈ mid, o'.Foreign v (past ++ mid) := fun o' ho' =>
      (hforeign o' (List.mem_append_left _ ho')).mono (by simp)
    obtain ⟨hdata, hmetrics, hqueues⟩ := ih ht' hbefore
    obtain ⟨hdata', hmetrics', hqueues'⟩ := view_foreign ht' (by simpa using hforeign o (by simp))
    refine ⟨hdata'.trans hdata, hmetrics'.trans hmetrics, fun name hnone => ?_⟩
    refine (hqueues' name fun hresolved => ?_).trans (hqueues name fun o' ho' hresolved => ?_)
    · exact hnone o (by simp) (by simpa using hresolved.mono)
    · exact hnone o' (List.mem_append_left _ ho') (by simpa using hresolved.mono)

/-- The second guest leaves the values of the first, and its metrics. -/
theorem taker_leaves_values :
    ((TwoGuests.both.storeAfter TwoGuests.both.trace).view [0]).data =
        ((TwoGuests.both.storeAfter (inTurn [TwoGuests.first])).view [0]).data ∧
      ((TwoGuests.both.storeAfter TwoGuests.both.trace).view [0]).metrics =
        ((TwoGuests.both.storeAfter (inTurn [TwoGuests.first])).view [0]).metrics := by
  have ht : TwoGuests.both.trace = inTurn [TwoGuests.first] ++ inTurn [TwoGuests.second] ++ [] :=
    rfl
  have hleave := others_leave TwoGuests.both (v := [0]) ht (by decide)
  exact ⟨hleave.1, hleave.2.1⟩

end Process

end ProxyWasmHost
