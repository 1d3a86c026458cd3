/-
  The tables of the store stay consistent, whatever its guests call.
-/
import ProxyWasmHost.Store.Change

namespace ProxyWasmHost

open Std

attribute [local instance] lexOrd

/-- The names and the identifiers `1 .. next` correspond one to one. -/
structure Numbered {kind : IdKind} (byName : ExtTreeMap Key (Id kind)) (next : ℕ) : Prop where
  size : byName.size = next
  bounded : ∀ (name : Key) (id : Id kind), byName[name]? = some id → id.val ≤ next
  injective : ∀ (name name' : Key) (id : Id kind),
    byName[name]? = some id → byName[name']? = some id → name = name'
  complete : ∀ id : Id kind, id.val ≤ next → ∃ name : Key, byName[name]? = some id

namespace Numbered

variable {kind : IdKind} {byName : ExtTreeMap Key (Id kind)} {next : ℕ} {name : Key} {id : Id kind}

theorem empty : Numbered (∅ : ExtTreeMap Key (Id kind)) 0 where
  size := ExtTreeMap.size_empty
  bounded := by intro name id h; rw [ExtTreeMap.getElem?_empty] at h; cases h
  injective := by intro name name' id h; rw [ExtTreeMap.getElem?_empty] at h; cases h
  complete := by intro id h; exact absurd id.pos (by omega)

/-- The next identifier goes to a new name. -/
theorem insert (h : Numbered byName next) (hname : byName[name]? = none)
    (hid : id.val = next + 1) : Numbered (byName.insert name id) (next + 1) where
  size := by rw [ExtTreeMap.size_insert_of_none hname, h.size]
  bounded := by
    intro x y hx
    rw [ExtTreeMap.get?_insert] at hx
    split at hx
    · cases hx; omega
    · exact Nat.le_succ_of_le (h.bounded x y hx)
  injective := by
    intro x x' y hx hx'
    rw [ExtTreeMap.get?_insert] at hx hx'
    split at hx <;> split at hx'
    · rename_i hx₁ hx₂; rw [hx₁, hx₂]
    · cases hx
      have := h.bounded x' _ hx'
      omega
    · cases hx'
      have := h.bounded x _ hx
      omega
    · exact h.injective x x' y hx hx'
  complete := by
    intro y hy
    by_cases hnew : y = id
    · exact ⟨name, by rw [ExtTreeMap.get?_insert, if_pos rfl, hnew]⟩
    · have hold : y.val ≤ next := by
        have : y.val ≠ id.val := fun hval => hnew (Id.ext hval)
        omega
      obtain ⟨x, hx⟩ := h.complete y hold
      refine ⟨x, ?_⟩
      rw [ExtTreeMap.get?_insert, if_neg, hx]
      rintro rfl
      rw [hname] at hx
      cases hx

end Numbered

/-- The three maps of the queues are in step, and within the limits. -/
structure Queues.Consistent (q : Queues) (limits : InMemoryStoreLimits) : Prop where
  numbered : Numbered q.byName q.next
  owners : ∀ (id : QueueId) (name : Key), q.owners[id]? = some name ↔ q.byName[name]? = some id
  items : ∀ id : QueueId, (q.items[id]?).isSome ↔ (q.owners[id]?).isSome
  count : q.byName.size ≤ limits.queues
  depth : ∀ (id : QueueId) (items : List Bytes), q.items[id]? = some items → items.length ≤ limits.queueItems

/-- The two maps of the metrics are in step, and within the limits. -/
structure Metrics.Consistent (m : Metrics) (limits : InMemoryStoreLimits) : Prop where
  numbered : Numbered m.byName m.next
  entries : ∀ id : MetricId, (m.entries[id]?).isSome ↔ ∃ name : Key, m.byName[name]? = some id
  count : m.byName.size ≤ limits.metrics

/-- **A consistent store**. -/
structure InMemoryStore.Consistent (s : InMemoryStore) : Prop where
  queues : s.queues.Consistent s.limits
  metrics : s.metrics.Consistent s.limits
  keys : s.data.size ≤ s.limits.keys

namespace InMemoryStore

variable {s s' : InMemoryStore} {op : SharedOp} {reply : Except Status SharedReply}
  {limits : InMemoryStoreLimits} {observer : Bool} {ops : List SharedOp}

theorem consistent_new (limits : InMemoryStoreLimits) (observer : Bool) :
    (new limits observer).Consistent where
  queues :=
    { numbered := .empty
      owners := by intro id name; simp only [new, ExtTreeMap.getElem?_empty, reduceCtorEq]
      items := by intro id; simp only [new, ExtTreeMap.getElem?_empty, Option.isSome_none]
      count := by simp only [new, ExtTreeMap.size_empty]; exact Nat.zero_le _
      depth := by
        intro id items h
        simp only [new, ExtTreeMap.getElem?_empty, reduceCtorEq] at h }
  metrics :=
    { numbered := .empty
      entries := by
        intro id
        simp only [new, ExtTreeMap.getElem?_empty, Option.isSome_none, Bool.false_eq_true,
          reduceCtorEq, exists_false]
      count := by simp only [new, ExtTreeMap.size_empty]; exact Nat.zero_le _ }
  keys := by simp only [new, ExtTreeMap.size_empty]; exact Nat.zero_le _

/-- A queue takes another list of items within the limit. -/
theorem Consistent.setItems (h : s.Consistent) {queue : QueueId} {items held : List Bytes}
    (hheld : s.queues.items[queue]? = some held) (hdepth : items.length ≤ s.limits.queueItems) :
    (s.setItems queue items).Consistent where
  metrics := h.metrics
  keys := h.keys
  queues :=
    { numbered := h.queues.numbered
      owners := h.queues.owners
      count := h.queues.count
      items := by
        intro id
        show ((s.queues.items.insert queue items)[id]?).isSome ↔ _
        rw [ExtTreeMap.get?_insert]
        split
        · rename_i hid
          show (some items).isSome ↔ (s.queues.owners[id]?).isSome
          rw [hid, ← h.queues.items queue, hheld]
          exact Iff.rfl
        · exact h.queues.items id
      depth := by
        intro id list hlist
        simp only [InMemoryStore.setItems, ExtTreeMap.get?_insert] at hlist
        split at hlist
        · cases hlist; exact hdepth
        · exact h.queues.depth id list hlist }

theorem Consistent.addQueue (h : s.Consistent) {name : Key} {id : QueueId}
    (hname : s.queues.byName[name]? = none) (hroom : s.queues.byName.size < s.limits.queues)
    (hid : id.val = s.queues.next + 1) : (s.addQueue name id).Consistent where
  metrics := h.metrics
  keys := h.keys
  queues :=
    { numbered := h.queues.numbered.insert hname hid
      owners := by
        intro x y
        simp only [InMemoryStore.addQueue, ExtTreeMap.get?_insert]
        split
        · rename_i hx
          split
          · rename_i hy; simp only [hx, hy]
          · rename_i hy
            simp only [Option.some.injEq, Ne.symm hy, false_iff]
            intro hsome
            have := h.queues.numbered.bounded y x hsome
            rw [hx] at this
            omega
        · rename_i hx
          split
          · rename_i hy
            simp only [Option.some.injEq, Ne.symm hx, iff_false]
            intro hsome
            rw [h.queues.owners, hy, hname] at hsome
            cases hsome
          · exact h.queues.owners x y
      items := by
        intro x
        simp only [InMemoryStore.addQueue, ExtTreeMap.get?_insert]
        split
        · simp only [Option.isSome_some]
        · exact h.queues.items x
      count := by
        show (s.queues.byName.insert name id).size ≤ _
        rw [ExtTreeMap.size_insert_of_none hname]
        exact hroom
      depth := by
        intro x list hlist
        simp only [InMemoryStore.addQueue, ExtTreeMap.get?_insert] at hlist
        split at hlist
        · cases hlist; exact Nat.zero_le _
        · exact h.queues.depth x list hlist }

theorem Consistent.addMetric (h : s.Consistent) {name : Key} {id : MetricId} {kind : MetricType}
    (hname : s.metrics.byName[name]? = none) (hroom : s.metrics.byName.size < s.limits.metrics)
    (hid : id.val = s.metrics.next + 1) : (s.addMetric name id kind).Consistent where
  queues := h.queues
  keys := h.keys
  metrics :=
    { numbered := h.metrics.numbered.insert hname hid
      entries := by
        intro x
        simp only [InMemoryStore.addMetric, ExtTreeMap.get?_insert]
        split
        · rename_i hx
          simp only [Option.isSome_some, true_iff]
          exact ⟨name, by rw [if_pos rfl, hx]⟩
        · rename_i hx
          rw [h.metrics.entries x]
          refine exists_congr fun y => ?_
          split
          · rename_i hy
            rw [hy, hname]
            simp only [reduceCtorEq, Option.some.injEq, Ne.symm hx]
          · exact Iff.rfl
      count := by
        show (s.metrics.byName.insert name id).size ≤ _
        rw [ExtTreeMap.size_insert_of_none hname]
        exact hroom }

theorem Consistent.setMetric (h : s.Consistent) {metric : MetricId} {entry held : MetricEntry}
    (hheld : s.metrics.entries[metric]? = some held) : (s.setMetric metric entry).Consistent where
  queues := h.queues
  keys := h.keys
  metrics :=
    { numbered := h.metrics.numbered
      count := h.metrics.count
      entries := by
        intro x
        simp only [InMemoryStore.setMetric, ExtTreeMap.get?_insert]
        split
        · rename_i hx
          rw [← h.metrics.entries x, hx, hheld]
          exact Iff.rfl
        · exact h.metrics.entries x }

theorem Consistent.putData (h : s.Consistent) {key : Key} {value : Bytes} {number : NonZeroU32}
    (hkeys : s.data[key]? = none → s.data.size < s.limits.keys) :
    (s.putData key value number).Consistent where
  queues := h.queues
  metrics := h.metrics
  keys := by
    show (s.data.insert key (value, number)).size ≤ s.limits.keys
    cases hheld : s.data[key]? with
    | none =>
      rw [ExtTreeMap.size_insert_of_none hheld]
      exact hkeys hheld
    | some held =>
      rw [ExtTreeMap.size_insert_of_some hheld]
      exact h.keys

/-- **Every call keeps a store consistent.** -/
theorem Consistent.change (h : s.Consistent) (hchange : Change s op reply s') :
    s'.Consistent := by
  cases hchange with
  | written hsize hkeys hcas => exact h.putData hkeys
  | registered hname hroom hid => exact h.addQueue hname hroom hid
  | pushed hitems hroom =>
    exact h.setItems hitems (by rw [List.length_append]; exact hroom)
  | popped hitems =>
    exact h.setItems hitems (Nat.le_of_succ_le (h.queues.depth _ _ hitems))
  | defined hname hroom hid => exact h.addMetric hname hroom hid
  | recorded hentry => exact h.setMetric hentry
  | incremented hentry hvalue => exact h.setMetric hentry
  | refused | read | found | resolved | known | observed | measured => exact h

theorem consistent_after (h : s.Consistent) (ops : List SharedOp) : (s.after ops).Consistent :=
  after_invariant (P := Consistent) (fun _ _ _ _ h hchange => h.change hchange) h ops

/-! ## What a name stands for -/

/-- A queue keeps its name. -/
theorem byName_change {name : Key} {id : QueueId} (hname : s.queues.byName[name]? = some id)
    (hchange : Change s op reply s') : s'.queues.byName[name]? = some id := by
  cases hchange with
  | registered hfree hroom hid =>
    show (s.queues.byName.insert _ _)[name]? = some id
    rw [ExtTreeMap.get?_insert, if_neg, hname]
    rintro rfl
    rw [hname] at hfree
    cases hfree
  | refused | read | written | found | resolved | pushed | popped | known | defined | observed
  | recorded | incremented | measured => exact hname

/-- The metric a name stands for, and its kind. -/
def MetricNamed (s : InMemoryStore) (name : Key) (id : MetricId) (kind : MetricType) : Prop :=
  s.metrics.byName[name]? = some id ∧ ∃ value, s.metrics.entries[id]? = some ⟨kind, value⟩

theorem MetricNamed.setMetric {name : Key} {id metric : MetricId} {kind : MetricType}
    {entry : MetricEntry} {value : UInt64} (h : MetricNamed s name id kind)
    (hentry : s.metrics.entries[metric]? = some entry) :
    MetricNamed (s.setMetric metric { entry with value }) name id kind := by
  obtain ⟨hname, held, hheld⟩ := h
  refine ⟨hname, ?_⟩
  simp only [InMemoryStore.setMetric, ExtTreeMap.get?_insert]
  split
  · rename_i hid
    rw [hid, hentry] at hheld
    cases hheld
    exact ⟨value, rfl⟩
  · exact ⟨held, hheld⟩

/-- A metric keeps its name and its kind. -/
theorem MetricNamed.change {name : Key} {id : MetricId} {kind : MetricType} (hs : s.Consistent)
    (h : MetricNamed s name id kind) (hchange : Change s op reply s') :
    MetricNamed s' name id kind := by
  cases hchange with
  | @defined vmId kind' name' id' hfree hroom hid =>
    obtain ⟨hname, held, hheld⟩ := h
    constructor
    · show (s.metrics.byName.insert _ _)[name]? = some id
      rw [ExtTreeMap.get?_insert, if_neg, hname]
      rintro rfl
      rw [hname] at hfree
      cases hfree
    · refine ⟨held, ?_⟩
      show (s.metrics.entries.insert _ _)[id]? = some _
      rw [ExtTreeMap.get?_insert, if_neg, hheld]
      rintro rfl
      have := hs.metrics.numbered.bounded _ _ hname
      omega
  | recorded hentry => exact h.setMetric hentry
  | incremented hentry hvalue => exact h.setMetric hentry
  | refused | read | written | found | registered | resolved | pushed | popped | known | observed
  | measured => exact h

theorem byName_after {name : Key} {id : QueueId} (hname : s.queues.byName[name]? = some id)
    (ops : List SharedOp) : (s.after ops).queues.byName[name]? = some id :=
  after_invariant (P := fun s => s.queues.byName[name]? = some id)
    (fun _ _ _ _ h hchange => byName_change h hchange) hname ops

theorem MetricNamed.after {name : Key} {id : MetricId} {kind : MetricType} (hs : s.Consistent)
    (h : MetricNamed s name id kind) (ops : List SharedOp) :
    MetricNamed (s.after ops) name id kind :=
  (after_invariant (P := fun s => s.Consistent ∧ MetricNamed s name id kind)
    (fun _ _ _ _ h hchange => ⟨h.1.change hchange, h.2.change h.1 hchange⟩) ⟨hs, h⟩ ops).2

/-- The name of a queue that a call answered with. -/
theorem byName_of_change {vmId name : Bytes} {id : QueueId}
    (hop : op = .registerSharedQueue vmId name ∨ op = .resolveSharedQueue vmId name)
    (hchange : Change s op (.ok (.queue id)) s') :
    s'.queues.byName[(vmId, name)]? = some id := by
  cases hchange with
  | found hname => rcases hop with hop | hop <;> cases hop; exact hname
  | resolved hname => rcases hop with hop | hop <;> cases hop; exact hname
  | registered hname hroom hid =>
    rcases hop with hop | hop <;> cases hop
    show (s.queues.byName.insert _ _)[(vmId, name)]? = some id
    rw [ExtTreeMap.get?_insert, if_pos rfl]

/-- The name and the kind of a metric that a call answered with. -/
theorem metricNamed_of_change {vmId name : Bytes} {kind : MetricType} {id : MetricId}
    (hchange : Change s (.defineMetric vmId kind name) (.ok (.metric id)) s') :
    MetricNamed s' (vmId, name) id kind := by
  cases hchange with
  | @known _ _ _ _ entry hname hentry hkind =>
    subst hkind
    exact ⟨hname, entry.value, hentry⟩
  | defined hname hroom hid =>
    constructor
    · show (s.metrics.byName.insert _ _)[(vmId, name)]? = some id
      rw [ExtTreeMap.get?_insert, if_pos rfl]
    · refine ⟨0, ?_⟩
      show (s.metrics.entries.insert _ _)[id]? = some _
      rw [ExtTreeMap.get?_insert, if_pos rfl]

theorem resolve_of_byName {vmId name : Bytes} {id : QueueId}
    (h : s.queues.byName[(vmId, name)]? = some id) :
    (s.answer (.resolveSharedQueue vmId name)).1 = .ok (.queue id) := by
  simp only [answer, resolveSharedQueue, h]
  rfl

theorem register_of_byName {vmId name : Bytes} {id : QueueId}
    (h : s.queues.byName[(vmId, name)]? = some id) :
    (s.answer (.registerSharedQueue vmId name)).1 = .ok (.queue id) := by
  simp only [answer, registerSharedQueue, h]
  rfl

theorem define_of_metricNamed {vmId name : Bytes} {id : MetricId} {kind : MetricType}
    (h : MetricNamed s (vmId, name) id kind) (kind' : MetricType) :
    (s.answer (.defineMetric vmId kind' name)).1 =
      if kind = kind' then .ok (.metric id) else .error .badArgument := by
  obtain ⟨hname, value, hentry⟩ := h
  simp only [answer, defineMetric, hname, hentry]
  split <;> rfl

/-- A call that answers an error changes nothing. -/
theorem Change.eq_of_error {e : Status} (h : Change s op (.error e) s') : s' = s := by
  cases h
  rfl

/-- **The tables of a store**, whatever calls its guests make in whatever order: they
    are in step and within the limits, an error changes nothing, and a name stands
    for one identifier for good. -/
theorem store_tables (limits : InMemoryStoreLimits) (observer : Bool) (ops : List SharedOp) :
    let s := (new limits observer).after ops
    s.Consistent ∧ s.limits = limits ∧
      (∀ op e, (s.answer op).1 = .error e → (s.answer op).2 = s) ∧
      (∀ vmId name id op, op = .registerSharedQueue vmId name ∨ op = .resolveSharedQueue vmId name →
        (s.answer op).1 = .ok (.queue id) → ∀ more,
        (((s.answer op).2.after more).answer (.resolveSharedQueue vmId name)).1 =
            .ok (.queue id) ∧
          (((s.answer op).2.after more).answer (.registerSharedQueue vmId name)).1 =
            .ok (.queue id)) ∧
      ∀ vmId kind name id, (s.answer (.defineMetric vmId kind name)).1 = .ok (.metric id) →
        ∀ more, let later := (s.answer (.defineMetric vmId kind name)).2.after more
        (∃ value, later.metrics.entries[id]? = some ⟨kind, value⟩) ∧
          ∀ kind', (later.answer (.defineMetric vmId kind' name)).1 =
            if kind = kind' then .ok (.metric id) else .error .badArgument := by
  intro s
  have hs : s.Consistent := consistent_after (consistent_new limits observer) ops
  refine ⟨hs, ?_, ?_, ?_, ?_⟩
  · exact after_invariant (P := fun s => s.limits = limits)
      (fun _ _ _ _ h hchange => by cases hchange <;> exact h) rfl ops
  · intro op e he
    have hchange := s.change_of_answer op
    rw [he] at hchange
    exact hchange.eq_of_error
  · intro vmId name id op hop hanswer more
    have hchange := s.change_of_answer op
    rw [hanswer] at hchange
    have hname := byName_after (byName_of_change hop hchange) more
    exact ⟨resolve_of_byName hname, register_of_byName hname⟩
  · intro vmId kind name id hanswer more
    have hchange := s.change_of_answer (.defineMetric vmId kind name)
    have hnext := hs.change hchange
    rw [hanswer] at hchange
    have hnamed := (metricNamed_of_change hchange).after hnext more
    exact ⟨hnamed.2, define_of_metricNamed hnamed⟩

end InMemoryStore

end ProxyWasmHost
