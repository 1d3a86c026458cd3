/-
  What one call can do to the store.
-/
import ProxyWasmHost.Store.InMemory

namespace ProxyWasmHost.InMemoryStore

open Std

attribute [local instance] lexOrd

/-- The store with one entry of shared data replaced. -/
def putData (s : InMemoryStore) (key : Key) (value : Bytes) (number : NonZeroU32) :
    InMemoryStore :=
  { s with data := s.data.insert key (value, number) }

/-- The store with one new queue. -/
def addQueue (s : InMemoryStore) (key : Key) (id : QueueId) : InMemoryStore :=
  { s with
    queues :=
      { byName := s.queues.byName.insert key id
        owners := s.queues.owners.insert id key
        items := s.queues.items.insert id []
        next := s.queues.next + 1 } }

/-- The store with the items of one queue replaced. -/
def setItems (s : InMemoryStore) (queue : QueueId) (items : List Bytes) : InMemoryStore :=
  { s with queues := { s.queues with items := s.queues.items.insert queue items } }

/-- The store with one new metric. -/
def addMetric (s : InMemoryStore) (key : Key) (id : MetricId) (kind : MetricType) :
    InMemoryStore :=
  { s with
    metrics :=
      { byName := s.metrics.byName.insert key id
        entries := s.metrics.entries.insert id ⟨kind, 0⟩
        next := s.metrics.next + 1 } }

/-- The number that guards a value after a write. -/
def casAfter (s : InMemoryStore) (key : Key) : NonZeroU32 :=
  match s.data[key]? with
  | some (_, current) => nextCas current
  | none => ⟨1, one_ne_zero⟩

/-- **The changes of the store**, each with the answer of the call that makes it and
    what that call checked. -/
inductive Change (s : InMemoryStore) :
    SharedOp → Except Status SharedReply → InMemoryStore → Prop
  | refused (op e) : Change s op (.error e) s
  | read {vmId key value} (hget : s.getSharedData vmId key = .ok value) :
      Change s (.getSharedData vmId key) (.ok (.value value)) s
  | written {vmId key value cas} (hsize : value.length ≤ s.limits.valueBytes)
      (hkeys : s.data[(vmId, key)]? = none → s.data.size < s.limits.keys)
      (hcas : ∀ held number, s.data[(vmId, key)]? = some (held, number) →
        cas = none ∨ cas = some number.val) :
      Change s (.setSharedData vmId key value cas) (.ok .done)
        (s.putData (vmId, key) value (s.casAfter (vmId, key)))
  | found {vmId name id} (hname : s.queues.byName[(vmId, name)]? = some id) :
      Change s (.registerSharedQueue vmId name) (.ok (.queue id)) s
  | registered {vmId name id} (hname : s.queues.byName[(vmId, name)]? = none)
      (hroom : s.queues.byName.size < s.limits.queues) (hid : id.val = s.queues.next + 1) :
      Change s (.registerSharedQueue vmId name) (.ok (.queue id)) (s.addQueue (vmId, name) id)
  | resolved {vmId name id} (hname : s.queues.byName[(vmId, name)]? = some id) :
      Change s (.resolveSharedQueue vmId name) (.ok (.queue id)) s
  | pushed {queue value items} (hitems : s.queues.items[queue]? = some items)
      (hroom : items.length < s.limits.queueItems) :
      Change s (.enqueueSharedQueue queue value) (.ok .done) (s.setItems queue (items ++ [value]))
  | popped {queue value rest} (hitems : s.queues.items[queue]? = some (value :: rest)) :
      Change s (.dequeueSharedQueue queue) (.ok (.bytes value)) (s.setItems queue rest)
  | known {vmId kind name id entry} (hname : s.metrics.byName[(vmId, name)]? = some id)
      (hentry : s.metrics.entries[id]? = some entry) (hkind : entry.kind = kind) :
      Change s (.defineMetric vmId kind name) (.ok (.metric id)) s
  | defined {vmId kind name id} (hname : s.metrics.byName[(vmId, name)]? = none)
      (hroom : s.metrics.byName.size < s.limits.metrics) (hid : id.val = s.metrics.next + 1) :
      Change s (.defineMetric vmId kind name) (.ok (.metric id)) (s.addMetric (vmId, name) id kind)
  | observed {metric value entry} (hentry : s.metrics.entries[metric]? = some entry)
      (hkind : entry.kind = .histogram) :
      Change s (.recordMetric metric value) (.ok .done) s
  | recorded {metric value entry} (hentry : s.metrics.entries[metric]? = some entry)
      (hkind : entry.kind ≠ .histogram) :
      Change s (.recordMetric metric value) (.ok .done) (s.setMetric metric { entry with value })
  | incremented {metric delta entry value} (hentry : s.metrics.entries[metric]? = some entry)
      (hvalue : checkedAddSigned entry.value delta = some value)
      (htakes : takesDelta entry.kind delta = true) :
      Change s (.incrementMetric metric delta) (.ok .done)
        (s.setMetric metric { entry with value })
  | measured {metric value} (hget : s.getMetric metric = .ok value) :
      Change s (.getMetric metric) (.ok (.number value)) s

variable {s : InMemoryStore}

theorem val_of_nextId {kind : IdKind} {next : ℕ} {id : Id kind} (h : nextId next = some id) :
    id.val = next + 1 := by
  unfold nextId at h
  split at h
  · cases h; rfl
  · cases h

theorem change_setSharedData (vmId key value : Bytes) (cas : Option UInt32) :
    Change s (.setSharedData vmId key value cas) (s.answer (.setSharedData vmId key value cas)).1
      (s.answer (.setSharedData vmId key value cas)).2 := by
  simp only [answer]
  unfold setSharedData
  split
  · exact .refused _ _
  · rename_i hsize
    split
    · exact .refused _ _
    · rename_i hkeys
      split
      · rename_i held current hheld
        split
        · exact .refused _ _
        · rename_i hcas
          have hafter : nextCas current = s.casAfter (vmId, key) := by
            unfold casAfter; rw [hheld]
          rw [hafter]
          refine .written (Nat.le_of_not_lt hsize) (fun hnone => ?_) fun held' number hsome => ?_
          · rw [hheld] at hnone; cases hnone
          · rw [hheld] at hsome
            cases hsome
            cases cas with
            | none => exact .inl rfl
            | some given =>
              simp only [Option.any_some, ne_eq, decide_not, Bool.not_eq_true,
                Bool.not_eq_false', decide_eq_true_eq] at hcas
              exact .inr (congrArg some hcas)
      · rename_i hheld
        have hafter : (⟨1, one_ne_zero⟩ : NonZeroU32) = s.casAfter (vmId, key) := by
          unfold casAfter; rw [hheld]
        rw [hafter]
        refine .written (Nat.le_of_not_lt hsize) (fun _ => ?_) fun held' number hsome => ?_
        · rw [hheld] at hkeys
          simpa using hkeys
        · rw [hheld] at hsome; cases hsome

theorem change_registerSharedQueue (vmId name : Bytes) :
    Change s (.registerSharedQueue vmId name) (s.answer (.registerSharedQueue vmId name)).1
      (s.answer (.registerSharedQueue vmId name)).2 := by
  simp only [answer]
  unfold registerSharedQueue
  split
  · exact .found ‹_›
  · split
    · exact .refused _ _
    · rename_i hname hroom
      split
      · exact .refused _ _
      · rename_i hid
        exact .registered hname (Nat.lt_of_not_le hroom) (val_of_nextId hid)

theorem change_enqueueSharedQueue (queue : QueueId) (value : Bytes) :
    Change s (.enqueueSharedQueue queue value) (s.answer (.enqueueSharedQueue queue value)).1
      (s.answer (.enqueueSharedQueue queue value)).2 := by
  simp only [answer]
  unfold pushItem
  split
  · exact .refused _ _
  · split
    · exact .refused _ _
    · split
      · exact .refused _ _
      · rename_i hitems hroom
        exact .pushed hitems (Nat.lt_of_not_le hroom)

theorem change_dequeueSharedQueue (queue : QueueId) :
    Change s (.dequeueSharedQueue queue) (s.answer (.dequeueSharedQueue queue)).1
      (s.answer (.dequeueSharedQueue queue)).2 := by
  simp only [answer]
  unfold dequeueSharedQueue
  split
  · exact .refused _ _
  · exact .refused _ _
  · exact .popped ‹_›

theorem change_defineMetric (vmId : Bytes) (kind : MetricType) (name : Bytes) :
    Change s (.defineMetric vmId kind name) (s.answer (.defineMetric vmId kind name)).1
      (s.answer (.defineMetric vmId kind name)).2 := by
  simp only [answer]
  unfold defineMetric
  split
  · split
    · exact .refused _ _
    · rename_i id hname _ held hentry
      by_cases hkind : held.kind = kind
      · rw [if_pos hkind]; exact .known hname hentry hkind
      · rw [if_neg hkind]; exact .refused _ _
  · split
    · exact .refused _ _
    · rename_i hname hroom
      split
      · exact .refused _ _
      · rename_i hid
        exact .defined hname (Nat.lt_of_not_le hroom) (val_of_nextId hid)

theorem change_recordMetric (metric : MetricId) (value : UInt64) :
    Change s (.recordMetric metric value) (s.answer (.recordMetric metric value)).1
      (s.answer (.recordMetric metric value)).2 := by
  simp only [answer]
  unfold recordMetric
  split
  · exact .refused _ _
  · rename_i entry hentry
    split
    · rename_i hkind
      exact .recorded hentry (by rw [hkind]; rintro ⟨⟩)
    · rename_i hkind
      exact .recorded hentry (by rw [hkind]; rintro ⟨⟩)
    · exact .observed hentry ‹_›

theorem change_incrementMetric (metric : MetricId) (delta : Int64) :
    Change s (.incrementMetric metric delta) (s.answer (.incrementMetric metric delta)).1
      (s.answer (.incrementMetric metric delta)).2 := by
  simp only [answer]
  unfold incrementMetric
  split
  · exact .refused _ _
  · rename_i entry hentry
    split
    · rename_i htakes
      split
      · exact .refused _ _
      · exact .incremented hentry ‹_› htakes
    · exact .refused _ _

/-- **What a call does** is one of the changes. -/
theorem change_of_answer (s : InMemoryStore) (op : SharedOp) :
    Change s op (s.answer op).1 (s.answer op).2 := by
  cases op with
  | getSharedData vmId key =>
    simp only [answer]
    cases hget : s.getSharedData vmId key with
    | ok value => exact .read hget
    | error e => exact .refused _ _
  | setSharedData vmId key value cas => exact change_setSharedData vmId key value cas
  | registerSharedQueue vmId name => exact change_registerSharedQueue vmId name
  | resolveSharedQueue vmId name =>
    simp only [answer]
    unfold resolveSharedQueue
    split
    · exact .resolved ‹_›
    · exact .refused _ _
  | enqueueSharedQueue queue value => exact change_enqueueSharedQueue queue value
  | dequeueSharedQueue queue => exact change_dequeueSharedQueue queue
  | defineMetric vmId kind name => exact change_defineMetric vmId kind name
  | recordMetric metric value => exact change_recordMetric metric value
  | incrementMetric metric delta => exact change_incrementMetric metric delta
  | getMetric metric =>
    simp only [answer]
    cases hget : s.getMetric metric with
    | ok value => exact .measured hget
    | error e => exact .refused _ _

/-- What every change keeps, a sequence of calls keeps. -/
theorem after_invariant {P : InMemoryStore → Prop}
    (hchange : ∀ s op answer s', P s → Change s op answer s' → P s') {s : InMemoryStore}
    (h : P s) (ops : List SharedOp) : P (s.after ops) := by
  induction ops generalizing s with
  | nil => exact h
  | cons op ops ih => exact ih (hchange _ _ _ _ h (s.change_of_answer op))

end ProxyWasmHost.InMemoryStore
