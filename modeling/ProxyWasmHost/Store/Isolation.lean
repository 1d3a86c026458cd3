/-
  What a VM sees of a store it shares with others: its part of the store is a function
  of its own accepted calls, whatever identifiers the store gave out to others.
-/
import ProxyWasmHost.Store.Consistent
import Mathlib.Logic.Function.Basic

namespace ProxyWasmHost

open Std Function

attribute [local instance] lexOrd

/-! ## The store of one VM -/

/-- A call of one VM, with names in place of the identifiers. -/
inductive VmOp where
  | getSharedData (key : Bytes)
  | setSharedData (key value : Bytes) (cas : Option UInt32)
  | registerSharedQueue (name : Bytes)
  | resolveSharedQueue (name : Bytes)
  | enqueueSharedQueue (name value : Bytes)
  | dequeueSharedQueue (name : Bytes)
  | defineMetric (kind : MetricType) (name : Bytes)
  | recordMetric (name : Bytes) (value : UInt64)
  | incrementMetric (name : Bytes) (delta : Int64)
  | getMetric (name : Bytes)
  deriving DecidableEq

/-- Whether a call reads a value that others might have changed. -/
def VmOp.isRead : VmOp → Bool
  | .getSharedData _ | .dequeueSharedQueue _ | .getMetric _ => true
  | _ => false

/-- The part of a store that one VM sees: what its names stand for. -/
@[ext] structure VmStore where
  data : Bytes → Option (Bytes × NonZeroU32)
  queues : Bytes → Option (List Bytes)
  metrics : Bytes → Option MetricEntry

namespace VmStore

/-- The number that guards a value after a write. -/
def casAfter (v : VmStore) (key : Bytes) : NonZeroU32 :=
  (v.data key).elim ⟨1, one_ne_zero⟩ fun held => nextCas held.2

/-- A metric with an observation, which a histogram drops. -/
def observe (value : UInt64) (entry : MetricEntry) : MetricEntry :=
  if entry.kind = .histogram then entry else { entry with value }

/-- A metric with a delta that fits. -/
def add (delta : Int64) (entry : MetricEntry) : MetricEntry :=
  { entry with value := (checkedAddSigned entry.value delta).getD entry.value }

/-- The store of a VM with the value of one key replaced. -/
def withData (v : VmStore) (key : Bytes) (value : Option (Bytes × NonZeroU32)) : VmStore :=
  { v with data := update v.data key value }

def withQueue (v : VmStore) (name : Bytes) (items : Option (List Bytes)) : VmStore :=
  { v with queues := update v.queues name items }

def withMetric (v : VmStore) (name : Bytes) (entry : Option MetricEntry) : VmStore :=
  { v with metrics := update v.metrics name entry }

/-- What an accepted call of the VM does. -/
def apply (v : VmStore) : VmOp → VmStore
  | .setSharedData key value _ => v.withData key (some (value, v.casAfter key))
  | .registerSharedQueue name => v.withQueue name (some ((v.queues name).getD []))
  | .enqueueSharedQueue name value => v.withQueue name ((v.queues name).map (· ++ [value]))
  | .dequeueSharedQueue name => v.withQueue name ((v.queues name).map List.tail)
  | .defineMetric kind name => v.withMetric name (some ((v.metrics name).getD ⟨kind, 0⟩))
  | .recordMetric name value => v.withMetric name ((v.metrics name).map (observe value))
  | .incrementMetric name delta => v.withMetric name ((v.metrics name).map (add delta))
  | .getSharedData _ | .resolveSharedQueue _ | .getMetric _ => v

/-- What an accepted call does, when it is one of the VM. -/
def applied (v : VmStore) (op : Option VmOp) : VmStore := op.elim v v.apply

/-- A call that is one of the VM when it passes the VM's id. -/
theorem applied_own (v : VmStore) (own : Prop) [Decidable own] (op : VmOp) :
    v.applied (if own then some op else none) = if own then v.apply op else v := by
  split <;> rfl

/-- A call that is one of the VM when its identifier has a name there. -/
theorem applied_named (v : VmStore) (name : Option Bytes) (op : Bytes → VmOp) :
    v.applied (name.map op) = name.elim v fun n => v.apply (op n) := by
  cases name <;> rfl

@[simp] theorem withQueue_self (v : VmStore) (name : Bytes) : v.withQueue name (v.queues name) = v :=
  VmStore.ext rfl (update_eq_self _ _) rfl

@[simp] theorem withMetric_self (v : VmStore) (name : Bytes) :
    v.withMetric name (v.metrics name) = v :=
  VmStore.ext rfl rfl (update_eq_self _ _)

theorem eq_withData {v w : VmStore} {key : Bytes} {value : Option (Bytes × NonZeroU32)}
    (hdata : ∀ k, w.data k = if k = key then value else v.data k) (hqueues : w.queues = v.queues)
    (hmetrics : w.metrics = v.metrics) : w = v.withData key value := by
  refine VmStore.ext (funext fun k => ?_) hqueues hmetrics
  rw [hdata, withData]
  exact (update_apply _ _ _ _).symm

theorem eq_withQueue {v w : VmStore} {name : Bytes} {items : Option (List Bytes)}
    (hqueues : ∀ n, w.queues n = if n = name then items else v.queues n) (hdata : w.data = v.data)
    (hmetrics : w.metrics = v.metrics) : w = v.withQueue name items := by
  refine VmStore.ext hdata (funext fun n => ?_) hmetrics
  rw [hqueues, withQueue]
  exact (update_apply _ _ _ _).symm

theorem eq_withMetric {v w : VmStore} {name : Bytes} {entry : Option MetricEntry}
    (hmetrics : ∀ n, w.metrics n = if n = name then entry else v.metrics n)
    (hdata : w.data = v.data) (hqueues : w.queues = v.queues) : w = v.withMetric name entry := by
  refine VmStore.ext hdata hqueues (funext fun n => ?_)
  rw [hmetrics, withMetric]
  exact (update_apply _ _ _ _).symm

/-- What a read of the VM answers. -/
def read (v : VmStore) : VmOp → Option (Except Status SharedReply)
  | .getSharedData key =>
    some ((v.data key).elim (.error .notFound) fun held =>
      .ok (.value ⟨held.1, held.2.val, held.2.property⟩))
  | .dequeueSharedQueue name =>
    some ((v.queues name).elim (.error .notFound) fun items =>
      items.head?.elim (.error .empty) fun value => .ok (.bytes value))
  | .getMetric name =>
    some ((v.metrics name).elim (.error .notFound) fun entry =>
      if entry.kind = .histogram then .error .badArgument else .ok (.number entry.value))
  | _ => none

end VmStore

namespace InMemoryStore

/-- The part of `s` that is under `vmId`. -/
def view (s : InMemoryStore) (vmId : Bytes) : VmStore where
  data key := s.data[(vmId, key)]?
  queues name := s.queues.byName[(vmId, name)]?.bind fun id => s.queues.items[id]?
  metrics name := s.metrics.byName[(vmId, name)]?.bind fun id => s.metrics.entries[id]?

theorem queues_view (s : InMemoryStore) (vmId name : Bytes) : (s.view vmId).queues name =
    s.queues.byName[(vmId, name)]?.bind fun id => s.queues.items[id]? := rfl

theorem metrics_view (s : InMemoryStore) (vmId name : Bytes) : (s.view vmId).metrics name =
    s.metrics.byName[(vmId, name)]?.bind fun id => s.metrics.entries[id]? := rfl

/-! ## The calls of a VM in a run -/

/-- The calls of a run, each with its answer. -/
def calls : InMemoryStore → List SharedOp → List (SharedOp × Except Status SharedReply)
  | _, [] => []
  | s, op :: ops => (op, (s.answer op).1) :: calls (s.answer op).2 ops

/-- The name for which the store answered a queue identifier to a register with `vmId`. -/
def queueName (vmId : Bytes) (past : List (SharedOp × Except Status SharedReply))
    (queue : QueueId) : Option Bytes :=
  past.findSome? fun
    | (.registerSharedQueue v name, .ok (.queue id)) =>
      if v = vmId ∧ id = queue then some name else none
    | _ => none

/-- The name for which the store answered a metric identifier to a define with `vmId`. -/
def metricName (vmId : Bytes) (past : List (SharedOp × Except Status SharedReply))
    (metric : MetricId) : Option Bytes :=
  past.findSome? fun
    | (.defineMetric v _ name, .ok (.metric id)) =>
      if v = vmId ∧ id = metric then some name else none
    | _ => none

/-- A call as one of the VM `vmId`, when it passes that VM id, or an identifier that the
    store answered under it. -/
def vmOp (vmId : Bytes) (past : List (SharedOp × Except Status SharedReply)) :
    SharedOp → Option VmOp
  | .getSharedData v key => if v = vmId then some (.getSharedData key) else none
  | .setSharedData v key value cas =>
    if v = vmId then some (.setSharedData key value cas) else none
  | .registerSharedQueue v name => if v = vmId then some (.registerSharedQueue name) else none
  | .resolveSharedQueue v name => if v = vmId then some (.resolveSharedQueue name) else none
  | .enqueueSharedQueue queue value =>
    (queueName vmId past queue).map fun name => .enqueueSharedQueue name value
  | .dequeueSharedQueue queue => (queueName vmId past queue).map .dequeueSharedQueue
  | .defineMetric v kind name => if v = vmId then some (.defineMetric kind name) else none
  | .recordMetric metric value =>
    (metricName vmId past metric).map fun name => .recordMetric name value
  | .incrementMetric metric delta =>
    (metricName vmId past metric).map fun name => .incrementMetric name delta
  | .getMetric metric => (metricName vmId past metric).map .getMetric

/-- The accepted operations of a VM, in the calls that follow those of `past`. -/
def acceptedFrom (vmId : Bytes) : List (SharedOp × Except Status SharedReply) →
    List (SharedOp × Except Status SharedReply) → List VmOp
  | _, [] => []
  | past, (op, reply) :: rest =>
    (if reply.isOk then (vmOp vmId past op).toList else []) ++
      acceptedFrom vmId (past ++ [(op, reply)]) rest

/-- The accepted operations of a VM in a run. -/
def acceptedOf (vmId : Bytes) (past : List (SharedOp × Except Status SharedReply)) : List VmOp :=
  acceptedFrom vmId [] past

/-! ## What the answers of a run tell of the names -/

variable {s s' : InMemoryStore} {op : SharedOp} {reply : Except Status SharedReply}
  {past : List (SharedOp × Except Status SharedReply)} {vmId name : Bytes}

/-- The answers so far are those that gave the names of `s` their identifiers. -/
structure Knows (past : List (SharedOp × Except Status SharedReply)) (s : InMemoryStore) :
    Prop where
  queues : ∀ vmId name id, (SharedOp.registerSharedQueue vmId name, .ok (.queue id)) ∈ past ↔
    s.queues.byName[(vmId, name)]? = some id
  metrics : ∀ vmId name id,
    (∃ kind, (SharedOp.defineMetric vmId kind name, .ok (.metric id)) ∈ past) ↔
      s.metrics.byName[(vmId, name)]? = some id

theorem knows_new (limits : InMemoryStoreLimits) (observer : Bool) :
    Knows [] (new limits observer) where
  queues _ _ _ := by simp [new]
  metrics _ _ _ := by simp [new]

/-- A call that gives no queue an identifier. -/
theorem Knows.queues_kept (h : Knows past s) (hkept : s'.queues.byName = s.queues.byName)
    (hnot : ∀ vmId name id, (op, reply) ≠ (.registerSharedQueue vmId name, .ok (.queue id))) :
    ∀ vmId name id, (SharedOp.registerSharedQueue vmId name, .ok (.queue id)) ∈
        past ++ [(op, reply)] ↔ s'.queues.byName[(vmId, name)]? = some id := by
  intro vmId name id
  rw [hkept, ← h.queues, List.mem_append, List.mem_singleton]
  exact or_iff_left (Ne.symm (hnot vmId name id))

/-- A call that gives no metric an identifier. -/
theorem Knows.metrics_kept (h : Knows past s) (hkept : s'.metrics.byName = s.metrics.byName)
    (hnot : ∀ vmId kind name id, (op, reply) ≠ (.defineMetric vmId kind name, .ok (.metric id))) :
    ∀ vmId name id, (∃ kind, (SharedOp.defineMetric vmId kind name, .ok (.metric id)) ∈
        past ++ [(op, reply)]) ↔ s'.metrics.byName[(vmId, name)]? = some id := by
  intro vmId name id
  rw [hkept, ← h.metrics]
  refine exists_congr fun kind => ?_
  rw [List.mem_append, List.mem_singleton]
  exact or_iff_left (Ne.symm (hnot vmId kind name id))

/-- **One call** tells of the name it gave an identifier to. -/
theorem Knows.change (h : Knows past s) (hchange : Change s op reply s') :
    Knows (past ++ [(op, reply)]) s' := by
  cases hchange with
  | refused | read | written | resolved | pushed | popped | observed | recorded | incremented
  | measured =>
    exact ⟨h.queues_kept rfl (by rintro _ _ _ ⟨⟩), h.metrics_kept rfl (by rintro _ _ _ _ ⟨⟩)⟩
  | found hname =>
    refine ⟨fun vmId name id => ?_, h.metrics_kept rfl (by rintro _ _ _ _ ⟨⟩)⟩
    rw [← h.queues, List.mem_append, List.mem_singleton]
    refine or_iff_left_of_imp fun heq => ?_
    cases heq
    exact (h.queues _ _ _).2 hname
  | @registered v n new hname hroom hid =>
    refine ⟨fun vmId name id => ?_, h.metrics_kept rfl (by rintro _ _ _ _ ⟨⟩)⟩
    show _ ↔ (s.queues.byName.insert (v, n) new)[(vmId, name)]? = some id
    rw [ExtTreeMap.get?_insert, List.mem_append, List.mem_singleton, h.queues]
    split
    · rename_i heq
      cases heq
      simp [hname, eq_comm]
    · rename_i hne
      refine or_iff_left fun heq => hne ?_
      cases heq
      rfl
  | known hname hentry hkind =>
    refine ⟨h.queues_kept rfl (by rintro _ _ _ ⟨⟩), fun vmId name id => ?_⟩
    rw [← h.metrics]
    simp only [List.mem_append, List.mem_singleton]
    refine ⟨?_, fun ⟨kind, hmem⟩ => ⟨kind, .inl hmem⟩⟩
    rintro ⟨kind, hmem | heq⟩
    · exact ⟨kind, hmem⟩
    · cases heq
      exact (h.metrics _ _ _).2 hname
  | @defined v k n new hname hroom hid =>
    refine ⟨h.queues_kept rfl (by rintro _ _ _ ⟨⟩), fun vmId name id => ?_⟩
    show _ ↔ (s.metrics.byName.insert (v, n) new)[(vmId, name)]? = some id
    have hpast := h.metrics vmId name id
    rw [ExtTreeMap.get?_insert]
    simp only [List.mem_append, List.mem_singleton]
    split
    · rename_i heq
      cases heq
      rw [hname] at hpast
      constructor
      · rintro ⟨kind, hmem | heq⟩
        · cases hpast.1 ⟨kind, hmem⟩
        · cases heq
          rfl
      · rintro ⟨⟩
        exact ⟨k, .inr rfl⟩
    · rename_i hne
      rw [← hpast]
      refine ⟨?_, fun ⟨kind, hmem⟩ => ⟨kind, .inl hmem⟩⟩
      rintro ⟨kind, hmem | heq⟩
      · exact ⟨kind, hmem⟩
      · cases heq
        exact absurd rfl hne

/-- The name of a queue identifier is the one it was answered to. -/
theorem Knows.queueName_iff (h : Knows past s) (hs : s.Consistent) {queue : QueueId} :
    queueName vmId past queue = some name ↔ s.queues.byName[(vmId, name)]? = some queue := by
  have hmem : ∀ n, queueName vmId past queue = some n →
      s.queues.byName[(vmId, n)]? = some queue := by
    intro n hn
    obtain ⟨⟨op, reply⟩, hmem, hfound⟩ := List.exists_of_findSome?_eq_some hn
    rw [← h.queues]
    split at hfound
    · rename_i heq
      cases heq
      rw [Option.ite_none_right_eq_some, Option.some.injEq] at hfound
      obtain ⟨⟨rfl, rfl⟩, rfl⟩ := hfound
      exact hmem
    · cases hfound
  refine ⟨hmem name, fun hname => ?_⟩
  cases hn : queueName vmId past queue with
  | none =>
    have hnone := List.findSome?_eq_none_iff.1 hn _ ((h.queues _ _ _).2 hname)
    simp at hnone
  | some n =>
    have hsame := hs.queues.numbered.injective _ _ _ (hmem n hn) hname
    cases hsame
    rfl

theorem Knows.metricName_iff (h : Knows past s) (hs : s.Consistent) {metric : MetricId} :
    metricName vmId past metric = some name ↔ s.metrics.byName[(vmId, name)]? = some metric := by
  have hmem : ∀ n, metricName vmId past metric = some n →
      s.metrics.byName[(vmId, n)]? = some metric := by
    intro n hn
    obtain ⟨⟨op, reply⟩, hmem, hfound⟩ := List.exists_of_findSome?_eq_some hn
    rw [← h.metrics]
    split at hfound
    · rename_i heq
      cases heq
      rw [Option.ite_none_right_eq_some, Option.some.injEq] at hfound
      obtain ⟨⟨rfl, rfl⟩, rfl⟩ := hfound
      exact ⟨_, hmem⟩
    · cases hfound
  refine ⟨hmem name, fun hname => ?_⟩
  cases hn : metricName vmId past metric with
  | none =>
    obtain ⟨kind, hkind⟩ := (h.metrics _ _ _).2 hname
    have hnone := List.findSome?_eq_none_iff.1 hn _ hkind
    simp at hnone
  | some n =>
    have hsame := hs.metrics.numbered.injective _ _ _ (hmem n hn) hname
    cases hsame
    rfl

/-! ## What a call does to the part of a VM -/

theorem queues_setItems (s : InMemoryStore) (queue : QueueId) (items : List Bytes)
    (vmId name : Bytes) : ((s.setItems queue items).view vmId).queues name =
      if s.queues.byName[(vmId, name)]? = some queue then some items
      else (s.view vmId).queues name := by
  show (s.queues.byName[(vmId, name)]?.bind fun id =>
    (s.queues.items.insert queue items)[id]?) = _
  rw [queues_view]
  cases s.queues.byName[(vmId, name)]? with
  | none => rfl
  | some id =>
    simp only [Option.bind_some, ExtTreeMap.get?_insert, Option.some.injEq]

theorem metrics_setMetric (s : InMemoryStore) (metric : MetricId) (entry : MetricEntry)
    (vmId name : Bytes) : ((s.setMetric metric entry).view vmId).metrics name =
      if s.metrics.byName[(vmId, name)]? = some metric then some entry
      else (s.view vmId).metrics name := by
  show (s.metrics.byName[(vmId, name)]?.bind fun id =>
    (s.metrics.entries.insert metric entry)[id]?) = _
  rw [metrics_view]
  cases s.metrics.byName[(vmId, name)]? with
  | none => rfl
  | some id =>
    simp only [Option.bind_some, ExtTreeMap.get?_insert, Option.some.injEq]

theorem queues_addQueue (hs : s.Consistent) {v n : Bytes} {id : QueueId}
    (hid : id.val = s.queues.next + 1) (vmId name : Bytes) :
    ((s.addQueue (v, n) id).view vmId).queues name =
      if (vmId, name) = (v, n) then some [] else (s.view vmId).queues name := by
  show ((s.queues.byName.insert (v, n) id)[(vmId, name)]?.bind fun x =>
    (s.queues.items.insert id [])[x]?) = _
  rw [ExtTreeMap.get?_insert]
  split
  · rw [Option.bind_some, ExtTreeMap.get?_insert, if_pos rfl]
  · rw [queues_view]
    cases hname : s.queues.byName[(vmId, name)]? with
    | none => rfl
    | some x =>
      have hle := hs.queues.numbered.bounded _ _ hname
      have hne : x ≠ id := by
        rintro rfl
        omega
      simp only [Option.bind_some, ExtTreeMap.get?_insert, if_neg hne]

theorem metrics_addMetric (hs : s.Consistent) {v n : Bytes} {id : MetricId} {kind : MetricType}
    (hid : id.val = s.metrics.next + 1) (vmId name : Bytes) :
    ((s.addMetric (v, n) id kind).view vmId).metrics name =
      if (vmId, name) = (v, n) then some ⟨kind, 0⟩ else (s.view vmId).metrics name := by
  show ((s.metrics.byName.insert (v, n) id)[(vmId, name)]?.bind fun x =>
    (s.metrics.entries.insert id ⟨kind, 0⟩)[x]?) = _
  rw [ExtTreeMap.get?_insert]
  split
  · rw [Option.bind_some, ExtTreeMap.get?_insert, if_pos rfl]
  · rw [metrics_view]
    cases hname : s.metrics.byName[(vmId, name)]? with
    | none => rfl
    | some x =>
      have hle := hs.metrics.numbered.bounded _ _ hname
      have hne : x ≠ id := by
        rintro rfl
        omega
      simp only [Option.bind_some, ExtTreeMap.get?_insert, if_neg hne]

theorem data_putData (s : InMemoryStore) (v k value : Bytes) (number : NonZeroU32)
    (vmId key : Bytes) : ((s.putData (v, k) value number).view vmId).data key =
      if (vmId, key) = (v, k) then some (value, number) else (s.view vmId).data key :=
  ExtTreeMap.get?_insert _ _ _ _

/-- The items of a queue that is no queue of the VM. -/
theorem view_setItems_other (hs : s.Consistent) (h : Knows past s) {queue : QueueId}
    {items : List Bytes} (hname : queueName vmId past queue = none) :
    (s.setItems queue items).view vmId = s.view vmId := by
  refine VmStore.ext rfl (funext fun n => ?_) rfl
  rw [queues_setItems, if_neg]
  intro hn
  rw [(h.queueName_iff hs).2 hn] at hname
  cases hname

/-- The items of a queue of the VM. -/
theorem view_setItems (hs : s.Consistent) (h : Knows past s) {queue : QueueId}
    {held : List Bytes} (hname : queueName vmId past queue = some name)
    (hheld : s.queues.items[queue]? = some held) (items : List Bytes) :
    (s.view vmId).queues name = some held ∧
      (s.setItems queue items).view vmId = (s.view vmId).withQueue name (some items) := by
  have hid := (h.queueName_iff hs).1 hname
  refine ⟨by rw [queues_view, hid, Option.bind_some, hheld],
    VmStore.eq_withQueue (fun n => ?_) rfl rfl⟩
  rw [queues_setItems]
  refine if_congr ⟨fun hid' => ?_, by rintro rfl; exact hid⟩ rfl rfl
  have hsame := hs.queues.numbered.injective _ _ _ hid' hid
  cases hsame
  rfl

theorem view_setMetric_other (hs : s.Consistent) (h : Knows past s) {metric : MetricId}
    {entry : MetricEntry} (hname : metricName vmId past metric = none) :
    (s.setMetric metric entry).view vmId = s.view vmId := by
  refine VmStore.ext rfl rfl (funext fun n => ?_)
  rw [metrics_setMetric, if_neg]
  intro hn
  rw [(h.metricName_iff hs).2 hn] at hname
  cases hname

theorem view_setMetric (hs : s.Consistent) (h : Knows past s) {metric : MetricId}
    {held : MetricEntry} (hname : metricName vmId past metric = some name)
    (hheld : s.metrics.entries[metric]? = some held) (entry : MetricEntry) :
    (s.view vmId).metrics name = some held ∧
      (s.setMetric metric entry).view vmId = (s.view vmId).withMetric name (some entry) := by
  have hid := (h.metricName_iff hs).1 hname
  refine ⟨by rw [metrics_view, hid, Option.bind_some, hheld],
    VmStore.eq_withMetric (fun n => ?_) rfl rfl⟩
  rw [metrics_setMetric]
  refine if_congr ⟨fun hid' => ?_, by rintro rfl; exact hid⟩ rfl rfl
  have hsame := hs.metrics.numbered.injective _ _ _ hid' hid
  cases hsame
  rfl

theorem casAfter_view (s : InMemoryStore) (vmId key : Bytes) :
    (s.view vmId).casAfter key = s.casAfter (vmId, key) := by
  unfold VmStore.casAfter casAfter view
  dsimp only
  cases s.data[(vmId, key)]? <;> rfl

/-- A queue that has a name has items. -/
theorem Consistent.queues_of_byName (hs : s.Consistent) {id : QueueId}
    (hname : s.queues.byName[(vmId, name)]? = some id) :
    ∃ items, (s.view vmId).queues name = some items := by
  have hitems := (hs.queues.items id).2 (by rw [(hs.queues.owners _ _).2 hname]; rfl)
  rw [queues_view, hname, Option.bind_some]
  exact Option.isSome_iff_exists.1 hitems

/-- What becomes of the items of a queue becomes of the VM's, when it has a name there. -/
theorem view_mapItems (hs : s.Consistent) (h : Knows past s) {queue : QueueId} {held : List Bytes}
    (hheld : s.queues.items[queue]? = some held) (f : List Bytes → List Bytes) :
    (s.setItems queue (f held)).view vmId = (queueName vmId past queue).elim (s.view vmId)
      fun name => (s.view vmId).withQueue name (((s.view vmId).queues name).map f) := by
  cases hname : queueName vmId past queue with
  | none => exact view_setItems_other hs h hname
  | some name =>
    obtain ⟨hitems, hview⟩ := view_setItems hs h hname hheld (f held)
    rw [hview, Option.elim_some, hitems, Option.map_some]

/-- What becomes of the entry of a metric becomes of the VM's, when it has a name there. -/
theorem view_mapMetric (hs : s.Consistent) (h : Knows past s) {metric : MetricId}
    {held : MetricEntry} (hheld : s.metrics.entries[metric]? = some held)
    (f : MetricEntry → MetricEntry) :
    (s.setMetric metric (f held)).view vmId = (metricName vmId past metric).elim (s.view vmId)
      fun name => (s.view vmId).withMetric name (((s.view vmId).metrics name).map f) := by
  cases hname : metricName vmId past metric with
  | none => exact view_setMetric_other hs h hname
  | some name =>
    obtain ⟨hentry, hview⟩ := view_setMetric hs h hname hheld (f held)
    rw [hview, Option.elim_some, hentry, Option.map_some]

theorem view_putData (s : InMemoryStore) (v k value : Bytes) (number : NonZeroU32) :
    (s.putData (v, k) value number).view vmId =
      if v = vmId then (s.view vmId).withData k (some (value, number)) else s.view vmId := by
  by_cases hv : v = vmId
  · subst hv
    rw [if_pos rfl]
    refine VmStore.eq_withData (fun key => ?_) rfl rfl
    rw [data_putData]
    simp
  · rw [if_neg hv]
    refine VmStore.ext (funext fun key => ?_) rfl rfl
    rw [data_putData, if_neg]
    rintro ⟨⟩
    exact hv rfl

theorem view_addQueue (hs : s.Consistent) {v n : Bytes} {id : QueueId}
    (hid : id.val = s.queues.next + 1) :
    (s.addQueue (v, n) id).view vmId =
      if v = vmId then (s.view vmId).withQueue n (some []) else s.view vmId := by
  by_cases hv : v = vmId
  · subst hv
    rw [if_pos rfl]
    refine VmStore.eq_withQueue (fun name => ?_) rfl rfl
    rw [queues_addQueue hs hid]
    simp
  · rw [if_neg hv]
    refine VmStore.ext rfl (funext fun name => ?_) rfl
    rw [queues_addQueue hs hid, if_neg]
    rintro ⟨⟩
    exact hv rfl

theorem view_addMetric (hs : s.Consistent) {v n : Bytes} {id : MetricId} {kind : MetricType}
    (hid : id.val = s.metrics.next + 1) :
    (s.addMetric (v, n) id kind).view vmId =
      if v = vmId then (s.view vmId).withMetric n (some ⟨kind, 0⟩) else s.view vmId := by
  by_cases hv : v = vmId
  · subst hv
    rw [if_pos rfl]
    refine VmStore.eq_withMetric (fun name => ?_) rfl rfl
    rw [metrics_addMetric hs hid]
    simp
  · rw [if_neg hv]
    refine VmStore.ext rfl rfl (funext fun name => ?_)
    rw [metrics_addMetric hs hid, if_neg]
    rintro ⟨⟩
    exact hv rfl

/-- **One call** changes the part of a VM as its own calls do, and only then. -/
theorem view_change (hs : s.Consistent) (h : Knows past s) (hchange : Change s op reply s') :
    s'.view vmId = if reply.isOk then (s.view vmId).applied (vmOp vmId past op)
      else s.view vmId := by
  cases hchange with
  | refused => rfl
  | @read v k value hget => exact ((VmStore.applied_own _ _ _).trans (ite_self _)).symm
  | @resolved v n id hname => exact ((VmStore.applied_own _ _ _).trans (ite_self _)).symm
  | @measured metric value hget =>
    show s.view vmId = VmStore.applied _ ((metricName vmId past metric).map _)
    cases metricName vmId past metric <;> rfl
  | @written v k value cas hsize hkeys hcas =>
    refine (view_putData s v k value _).trans (Eq.trans ?_ (VmStore.applied_own _ _ _).symm)
    refine if_ctx_congr Iff.rfl (fun hv => ?_) fun _ => rfl
    subst hv
    show _ = (s.view v).withData k (some (value, (s.view v).casAfter k))
    rw [casAfter_view]
  | @found v n id hname =>
    refine Eq.trans ?_ (VmStore.applied_own _ _ _).symm
    refine (ite_eq_right_iff.2 fun hv => ?_).symm
    subst hv
    obtain ⟨items, hitems⟩ := hs.queues_of_byName hname
    show (s.view v).withQueue n (some (((s.view v).queues n).getD [])) = _
    rw [hitems, Option.getD_some, ← hitems, VmStore.withQueue_self]
  | @registered v n id hname hroom hid =>
    refine (view_addQueue hs hid).trans (Eq.trans ?_ (VmStore.applied_own _ _ _).symm)
    refine if_ctx_congr Iff.rfl (fun hv => ?_) fun _ => rfl
    subst hv
    show _ = (s.view v).withQueue n (some (((s.view v).queues n).getD []))
    rw [queues_view, hname, Option.bind_none, Option.getD_none]
  | @pushed queue value items hitems hroom =>
    exact (view_mapItems hs h hitems (· ++ [value])).trans
      (VmStore.applied_named _ _ (.enqueueSharedQueue · value)).symm
  | @popped queue value rest hitems =>
    exact (view_mapItems hs h hitems List.tail).trans
      (VmStore.applied_named _ _ .dequeueSharedQueue).symm
  | @known v k n id entry hname hentry hkind =>
    refine Eq.trans ?_ (VmStore.applied_own _ _ _).symm
    refine (ite_eq_right_iff.2 fun hv => ?_).symm
    subst hv
    have hheld : (s.view v).metrics n = some entry := by
      rw [metrics_view, hname, Option.bind_some, hentry]
    show (s.view v).withMetric n (some (((s.view v).metrics n).getD ⟨k, 0⟩)) = _
    rw [hheld, Option.getD_some, ← hheld, VmStore.withMetric_self]
  | @defined v k n id hname hroom hid =>
    refine (view_addMetric hs hid).trans (Eq.trans ?_ (VmStore.applied_own _ _ _).symm)
    refine if_ctx_congr Iff.rfl (fun hv => ?_) fun _ => rfl
    subst hv
    show _ = (s.view v).withMetric n (some (((s.view v).metrics n).getD ⟨k, 0⟩))
    rw [metrics_view, hname, Option.bind_none, Option.getD_none]
  | @observed metric value held hheld hkind =>
    refine Eq.trans ?_ (VmStore.applied_named _ _ _).symm
    cases hname : metricName vmId past metric with
    | none => rfl
    | some name =>
      have hentry := (view_setMetric hs h hname hheld held).1
      show _ = (s.view vmId).withMetric name (((s.view vmId).metrics name).map (VmStore.observe value))
      rw [hentry, Option.map_some, VmStore.observe, if_pos hkind, ← hentry,
        VmStore.withMetric_self]
  | @recorded metric value held hheld hkind =>
    have hkept : VmStore.observe value held = { held with value } := if_neg hkind
    rw [← hkept]
    exact (view_mapMetric hs h hheld (VmStore.observe value)).trans
      (VmStore.applied_named _ _ (.recordMetric · value)).symm
  | @incremented metric delta held sum hheld hvalue htakes =>
    have hsum : VmStore.add delta held = { held with value := sum } := by
      rw [VmStore.add, hvalue, Option.getD_some]
    rw [← hsum]
    exact (view_mapMetric hs h hheld (VmStore.add delta)).trans
      (VmStore.applied_named _ _ (.incrementMetric · delta)).symm

/-! ## Runs -/

theorem knows_after (hs : s.Consistent) (h : Knows past s) (ops : List SharedOp) :
    Knows (past ++ calls s ops) (s.after ops) := by
  induction ops generalizing s past with
  | nil =>
    rw [calls, List.append_nil]
    exact h
  | cons op ops ih =>
    have hchange := s.change_of_answer op
    rw [calls, List.append_cons]
    exact ih (hs.change hchange) (h.change hchange)

/-- **The part of a VM is what its accepted calls made of it.** -/
theorem view_after (hs : s.Consistent) (h : Knows past s) (ops : List SharedOp) :
    (s.after ops).view vmId =
      (acceptedFrom vmId past (calls s ops)).foldl VmStore.apply (s.view vmId) := by
  induction ops generalizing s past with
  | nil => rfl
  | cons op ops ih =>
    have hchange := s.change_of_answer op
    have hrest : (s.after (op :: ops)).view vmId = _ := ih (hs.change hchange) (h.change hchange)
    rw [hrest, view_change hs h hchange, calls, acceptedFrom, List.foldl_append]
    congr 1
    split
    · cases vmOp vmId past op <;> rfl
    · rfl

/-- A read of a VM answers what its part of the store holds. -/
theorem answer_read (hs : s.Consistent) (h : Knows past s) {read : VmOp}
    (hop : vmOp vmId past op = some read) (hread : read.isRead = true) :
    (s.view vmId).read read = some (s.answer op).1 := by
  cases op with
  | getSharedData v key =>
    obtain ⟨rfl, heq⟩ := Option.ite_none_right_eq_some.1 hop
    cases heq
    show some _ = some (Except.map _ (s.getSharedData v key))
    unfold getSharedData view
    dsimp only
    cases s.data[(v, key)]? <;> rfl
  | dequeueSharedQueue queue =>
    obtain ⟨name, hname, rfl⟩ := Option.map_eq_some_iff.1 hop
    show some _ = some (Except.map _ (s.dequeueSharedQueue queue).1)
    unfold dequeueSharedQueue
    rw [queues_view, (h.queueName_iff hs).1 hname, Option.bind_some]
    rcases s.queues.items[queue]? with _ | (_ | ⟨value, rest⟩) <;> rfl
  | getMetric metric =>
    obtain ⟨name, hname, rfl⟩ := Option.map_eq_some_iff.1 hop
    show some _ = some (Except.map _ (s.getMetric metric))
    unfold getMetric
    rw [metrics_view, (h.metricName_iff hs).1 hname, Option.bind_some]
    rcases s.metrics.entries[metric]? with _ | ⟨kind, value⟩
    · rfl
    · cases kind <;> rfl
  | setSharedData v key value cas | registerSharedQueue v name | resolveSharedQueue v name
  | defineMetric v kind name =>
    obtain ⟨-, heq⟩ := Option.ite_none_right_eq_some.1 hop
    cases heq
    cases hread
  | enqueueSharedQueue queue value =>
    obtain ⟨name, -, rfl⟩ := Option.map_eq_some_iff.1 hop
    cases hread
  | recordMetric metric value | incrementMetric metric value =>
    obtain ⟨name, -, rfl⟩ := Option.map_eq_some_iff.1 hop
    cases hread

/-! ## The identifiers of two VMs -/

end InMemoryStore

/-- The VM id that a call passes. -/
def SharedOp.vmId : SharedOp → Option Bytes
  | .getSharedData v _ | .setSharedData v _ _ _ | .registerSharedQueue v _
  | .resolveSharedQueue v _ | .defineMetric v _ _ => some v
  | _ => none

namespace InMemoryStore

/-- A call of a run, where it is in the run. -/
theorem exists_of_mem_calls {ops : List SharedOp} (h : (op, reply) ∈ calls s ops) :
    ∃ before after, ops = before ++ op :: after ∧ ((s.after before).answer op).1 = reply := by
  induction ops generalizing s with
  | nil => cases h
  | cons op' ops ih =>
    rw [calls, List.mem_cons] at h
    rcases h with heq | hrest
    · cases heq
      exact ⟨[], ops, rfl, rfl⟩
    · obtain ⟨before, after, rfl, hreply⟩ := ih hrest
      exact ⟨op' :: before, after, rfl, hreply⟩

/-- A queue identifier that was answered under a VM id stands for a name of that VM. -/
theorem byName_of_mem_calls {ops : List SharedOp} {id : QueueId}
    (h : (op, .ok (.queue id)) ∈ calls s ops) (hvm : op.vmId = some vmId) :
    ∃ name : Bytes, (s.after ops).queues.byName[(vmId, name)]? = some id := by
  obtain ⟨before, after, rfl, hreply⟩ := exists_of_mem_calls h
  have hchange := (s.after before).change_of_answer op
  rw [hreply] at hchange
  have hop : ∃ name, op = .registerSharedQueue vmId name ∨ op = .resolveSharedQueue vmId name := by
    generalize ((s.after before).answer op).2 = s' at hchange
    cases hchange <;> cases hvm
    · exact ⟨_, .inl rfl⟩
    · exact ⟨_, .inl rfl⟩
    · exact ⟨_, .inr rfl⟩
  obtain ⟨name, hop⟩ := hop
  refine ⟨name, ?_⟩
  have hlast := byName_after (byName_of_change hop hchange) after
  unfold InMemoryStore.after at hlast ⊢
  rw [List.foldl_append]
  exact hlast

/-- A metric identifier that was answered under a VM id stands for a name of that VM. -/
theorem metricNamed_of_mem_calls (hs : s.Consistent) {ops : List SharedOp} {id : MetricId}
    (h : (op, .ok (.metric id)) ∈ calls s ops) (hvm : op.vmId = some vmId) :
    ∃ name : Bytes, (s.after ops).metrics.byName[(vmId, name)]? = some id := by
  obtain ⟨before, after, rfl, hreply⟩ := exists_of_mem_calls h
  have hbefore := consistent_after hs before
  have hchange := (s.after before).change_of_answer op
  have hnext := hbefore.change hchange
  rw [hreply] at hchange
  have hop : ∃ kind name, op = .defineMetric vmId kind name := by
    generalize ((s.after before).answer op).2 = s' at hchange
    cases hchange <;> cases hvm <;> exact ⟨_, _, rfl⟩
  obtain ⟨kind, name, rfl⟩ := hop
  refine ⟨name, ?_⟩
  have hlast := ((metricNamed_of_change hchange).after hnext after).1
  unfold InMemoryStore.after at hlast ⊢
  rw [List.foldl_append]
  exact hlast

/-- **Isolation of VMs**: a read of a VM answers by what the accepted operations of that VM made
    of its part of the store, so it answers alike in two runs that accepted the same; and no
    identifier is answered under two VM ids. -/
theorem vms_isolated (vmId : Bytes) :
    (∀ limits₁ limits₂ observer₁ observer₂ ops₁ ops₂,
      acceptedOf vmId (calls (new limits₁ observer₁) ops₁) =
          acceptedOf vmId (calls (new limits₂ observer₂) ops₂) →
        ∀ op₁ op₂ read, read.isRead = true →
          vmOp vmId (calls (new limits₁ observer₁) ops₁) op₁ = some read →
          vmOp vmId (calls (new limits₂ observer₂) ops₂) op₂ = some read →
          (((new limits₁ observer₁).after ops₁).answer op₁).1 =
            (((new limits₂ observer₂).after ops₂).answer op₂).1) ∧
    ∀ limits observer ops op op' other, op.vmId = some vmId → op'.vmId = some other →
      vmId ≠ other →
      (∀ id id' : QueueId, (op, .ok (.queue id)) ∈ calls (new limits observer) ops →
        (op', .ok (.queue id')) ∈ calls (new limits observer) ops → id ≠ id') ∧
      ∀ id id' : MetricId, (op, .ok (.metric id)) ∈ calls (new limits observer) ops →
        (op', .ok (.metric id')) ∈ calls (new limits observer) ops → id ≠ id' := by
  constructor
  · intro limits₁ limits₂ observer₁ observer₂ ops₁ ops₂ hsame op₁ op₂ read hread hop₁ hop₂
    have hview : ((new limits₁ observer₁).after ops₁).view vmId =
        ((new limits₂ observer₂).after ops₂).view vmId := by
      rw [view_after (consistent_new _ _) (knows_new _ _), view_after (consistent_new _ _) (knows_new _ _)]
      show (acceptedOf vmId _).foldl _ _ = (acceptedOf vmId _).foldl _ _
      rw [hsame]
      rfl
    have hread₁ := answer_read (consistent_after (consistent_new limits₁ observer₁) ops₁)
      (knows_after (consistent_new _ _) (knows_new _ _) ops₁) hop₁ hread
    have hread₂ := answer_read (consistent_after (consistent_new limits₂ observer₂) ops₂)
      (knows_after (consistent_new _ _) (knows_new _ _) ops₂) hop₂ hread
    rw [hview, hread₂, Option.some.injEq] at hread₁
    exact hread₁.symm
  · intro limits observer ops op op' other hvm hvm' hne
    have hs := consistent_after (consistent_new limits observer) ops
    constructor
    · rintro id _ hmem hmem' rfl
      obtain ⟨name, hname⟩ := byName_of_mem_calls hmem hvm
      obtain ⟨name', hname'⟩ := byName_of_mem_calls hmem' hvm'
      cases hs.queues.numbered.injective _ _ _ hname hname'
      exact hne rfl
    · rintro id _ hmem hmem' rfl
      obtain ⟨name, hname⟩ := metricNamed_of_mem_calls (consistent_new _ _) hmem hvm
      obtain ⟨name', hname'⟩ := metricNamed_of_mem_calls (consistent_new _ _) hmem' hvm'
      cases hs.metrics.numbered.injective _ _ _ hname hname'
      exact hne rfl

/-- The first identifier stands for a queue of the VM that registered first. -/
example : vmOp [1] (calls (new .default false) [.registerSharedQueue [1] []])
      (.dequeueSharedQueue .min) = some (.dequeueSharedQueue []) ∧
    vmOp [1] (calls (new .default false) [.registerSharedQueue [2] [], .registerSharedQueue [1] []])
      (.dequeueSharedQueue .min) = none := by
  decide

end InMemoryStore

end ProxyWasmHost
