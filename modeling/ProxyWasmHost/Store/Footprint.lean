/-
  The bytes that the store holds for its guests, whatever they write and do not read.
-/
import ProxyWasmHost.Store.Consistent

namespace ProxyWasmHost.InMemoryStore

open Std

attribute [local instance] lexOrd

variable {s s' : InMemoryStore} {op : SharedOp} {reply : Except Status SharedReply}

/-- The bytes of the values and of the items that the store holds. -/
def bytes (s : InMemoryStore) : ℕ :=
  (s.data.toList.map fun entry => entry.2.1.length).sum +
    (s.queues.items.toList.map fun entry => (entry.2.map List.length).sum).sum

/-- No value and no item is longer than the store allows. -/
structure Fitting (s : InMemoryStore) : Prop where
  value : ∀ (key : Key) (value : Bytes) (cas : NonZeroU32),
    s.data[key]? = some (value, cas) → value.length ≤ s.limits.valueBytes
  item : ∀ (queue : QueueId) (items : List Bytes), s.queues.items[queue]? = some items →
    ∀ item ∈ items, item.length ≤ s.limits.valueBytes

theorem fitting_new (limits : InMemoryStoreLimits) (observer : Bool) :
    (new limits observer).Fitting := by
  refine ⟨fun key value cas h => ?_, fun queue items h => ?_⟩
  · simp only [new, ExtTreeMap.getElem?_empty, reduceCtorEq] at h
  · simp only [new, ExtTreeMap.getElem?_empty, reduceCtorEq] at h

/-- An item that is taken is one that the store allows. -/
theorem length_of_pushed {queue : QueueId} {value : Bytes} {reply : SharedReply}
    (h : (s.answer (.enqueueSharedQueue queue value)).1 = .ok reply) :
    value.length ≤ s.limits.valueBytes := by
  by_contra hlong
  have hrefused : s.pushItem queue value = (.error .internalFailure, s) := by
    unfold pushItem
    rw [if_pos (Nat.lt_of_not_le hlong)]
  simp only [answer, hrefused, Except.map, reduceCtorEq] at h

theorem Fitting.putData (h : s.Fitting) {key : Key} {value : Bytes} {number : NonZeroU32}
    (hvalue : value.length ≤ s.limits.valueBytes) : (s.putData key value number).Fitting := by
  refine ⟨fun key' value' cas' h' => ?_, h.item⟩
  rw [InMemoryStore.putData, ExtTreeMap.get?_insert] at h'
  split at h'
  · cases h'
    exact hvalue
  · exact h.value key' value' cas' h'

theorem Fitting.setItems (h : s.Fitting) {queue : QueueId} {items : List Bytes}
    (hitems : ∀ item ∈ items, item.length ≤ s.limits.valueBytes) :
    (s.setItems queue items).Fitting := by
  refine ⟨h.value, fun queue' items' h' => ?_⟩
  rw [InMemoryStore.setItems, ExtTreeMap.get?_insert] at h'
  split at h'
  · cases h'
    exact hitems
  · exact h.item queue' items' h'

/-- **Every call keeps what is held within the sizes.** -/
theorem Fitting.answer (h : s.Fitting) (op : SharedOp) : (s.answer op).2.Fitting := by
  have hlength : ∀ queue value reply, op = .enqueueSharedQueue queue value →
      (s.answer op).1 = .ok reply → value.length ≤ s.limits.valueBytes := by
    rintro queue value reply rfl hok
    exact length_of_pushed hok
  have hchange := change_of_answer s op
  revert hchange hlength
  generalize (s.answer op).1 = reply
  generalize (s.answer op).2 = s'
  intro hlength hchange
  cases hchange with
  | written hsize hkeys hcas => exact h.putData hsize
  | registered hname hroom hid =>
    refine ⟨h.value, fun queue items hitems => ?_⟩
    rw [addQueue, ExtTreeMap.get?_insert] at hitems
    split at hitems
    · cases hitems
      rintro item ⟨⟩
    · exact h.item queue items hitems
  | @pushed queue value items hitems hroom =>
    refine h.setItems fun item hitem => ?_
    rcases List.mem_append.1 hitem with hold | hnew
    · exact h.item queue items hitems item hold
    · cases List.mem_singleton.1 hnew
      exact hlength queue value _ rfl rfl
  | @popped queue value rest hitems =>
    exact h.setItems fun item hitem => h.item queue _ hitems item (List.mem_cons_of_mem _ hitem)
  | defined | recorded | incremented => exact ⟨h.value, h.item⟩
  | refused | read | found | resolved | known | observed | measured => exact h

theorem fitting_after (h : s.Fitting) (ops : List SharedOp) : (s.after ops).Fitting := by
  induction ops generalizing s with
  | nil => exact h
  | cons op ops ih => exact ih (h.answer op)

theorem limits_change (hchange : Change s op reply s') : s'.limits = s.limits := by
  cases hchange <;> rfl

/-- A list of items within a depth and a size. -/
theorem sum_length_le {items : List Bytes} {depth size : ℕ} (hdepth : items.length ≤ depth)
    (hsize : ∀ item ∈ items, item.length ≤ size) : (items.map List.length).sum ≤ depth * size := by
  have hsum := List.sum_le_card_nsmul (items.map List.length) size fun n hn => by
    obtain ⟨item, hitem, rfl⟩ := List.mem_map.1 hn
    exact hsize item hitem
  rw [List.length_map, smul_eq_mul] at hsum
  exact hsum.trans (Nat.mul_le_mul_right size hdepth)

/-- What a consistent store with fitting values holds. -/
theorem bytes_le (hs : s.Consistent) (hfit : s.Fitting) :
    s.bytes ≤ s.limits.keys * s.limits.valueBytes +
      s.limits.queues * (s.limits.queueItems * s.limits.valueBytes) := by
  have hdata : (s.data.toList.map fun entry => entry.2.1.length).sum ≤
      s.data.size * s.limits.valueBytes :=
    ExtTreeMap.sum_le (f := fun held : Bytes × NonZeroU32 => held.1.length)
      fun key held h => hfit.value key held.1 held.2 h
  have hitems : (s.queues.items.toList.map fun entry => (entry.2.map List.length).sum).sum ≤
      s.queues.items.size * (s.limits.queueItems * s.limits.valueBytes) :=
    ExtTreeMap.sum_le fun queue items h =>
      sum_length_le (hs.queues.depth queue items h) (hfit.item queue items h)
  -- A queue with items has an owner, and the owner is a name for it.
  have hqueues : s.queues.items.size ≤ s.queues.byName.size := by
    refine ExtTreeMap.size_le_of_values fun queue items h => ?_
    have howned := (hs.queues.items queue).1 (by rw [h]; rfl)
    obtain ⟨name, hname⟩ := Option.isSome_iff_exists.1 howned
    exact ⟨name, (hs.queues.owners queue name).1 hname⟩
  refine Nat.add_le_add (hdata.trans ?_) (hitems.trans ?_)
  · exact Nat.mul_le_mul_right _ hs.keys
  · exact Nat.mul_le_mul_right _ (hqueues.trans hs.queues.count)

/-- **The store is bounded**: whatever any number of guests call in whatever order, the values and
    the items that are held are no more bytes than the limits allow, together. -/
theorem holds_no_more_than_allowed (limits : InMemoryStoreLimits) (observer : Bool)
    (ops : List SharedOp) : ((new limits observer).after ops).bytes ≤
      limits.keys * limits.valueBytes + limits.queues * (limits.queueItems * limits.valueBytes) := by
  have hconsistent := consistent_after (consistent_new limits observer) ops
  have hlimits : ((new limits observer).after ops).limits = limits :=
    after_invariant (P := fun s => s.limits = limits)
      (fun _ _ _ _ h hchange => (limits_change hchange).trans h) rfl ops
  have hle := bytes_le hconsistent (fitting_after (fitting_new limits observer) ops)
  rwa [hlimits] at hle

end ProxyWasmHost.InMemoryStore
