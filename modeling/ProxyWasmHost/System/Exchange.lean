/-
  What the guests of a process give one another through the store: the values of a queue, each to
  one guest and in order, and a value that a guest replaces after it read it.
-/
import ProxyWasmHost.Store.CompareAndSwap
import ProxyWasmHost.Store.InUse
import ProxyWasmHost.System.Confined

namespace ProxyWasmHost

open Std InMemoryStore

attribute [local instance] lexOrd

/-! ## The calls of the store -/

namespace Occurrence

/-- The call of the store `service`, with what it did. An observer that panics does so once the
    item is queued. -/
def answers (service : ServiceId) (o : Occurrence) : Option (SharedOp × Except Status SharedReply) :=
  (o.asked service).map fun (op, answer) => (op, answer.getD (.ok .done))

theorem asks_of_answers {service : ServiceId} {o : Occurrence} {op : SharedOp}
    {reply : Except Status SharedReply} (h : o.answers service = some (op, reply)) :
    o.asks service = some op := by
  obtain ⟨call, hcall, heq⟩ := Option.map_eq_some_iff.1 h
  cases heq
  exact Option.map_eq_some_iff.2 ⟨call, hcall, rfl⟩

/-- The value that the call put at the end of `queue`. -/
def enqueued (service : ServiceId) (queue : QueueId) (o : Occurrence) : Option Bytes :=
  (o.answers service).bind fun (op, reply) => StoreEvent.enqueued queue (.answered 0 op reply)

/-- The value that the call took from the front of `queue`. -/
def dequeued (service : ServiceId) (queue : QueueId) (o : Occurrence) : Option Bytes :=
  (o.answers service).bind fun (op, reply) => StoreEvent.dequeued queue (.answered 0 op reply)

theorem of_enqueued {service : ServiceId} {queue : QueueId} {o : Occurrence} {value : Bytes}
    (h : o.enqueued service queue = some value) :
    ∃ reply, o.answers service = some (.enqueueSharedQueue queue value, .ok reply) := by
  obtain ⟨⟨op, reply⟩, hanswers, h⟩ := Option.bind_eq_some_iff.1 h
  dsimp only at h
  unfold StoreEvent.enqueued at h
  split at h
  · rename_i heq
    obtain ⟨rfl, hvalue⟩ := Option.ite_none_right_eq_some.1 h
    cases hvalue
    cases heq
    exact ⟨_, hanswers⟩
  · cases h

theorem of_dequeued {service : ServiceId} {queue : QueueId} {o : Occurrence} {value : Bytes}
    (h : o.dequeued service queue = some value) :
    o.answers service = some (.dequeueSharedQueue queue, .ok (.bytes value)) := by
  obtain ⟨⟨op, reply⟩, hanswers, h⟩ := Option.bind_eq_some_iff.1 h
  dsimp only at h
  unfold StoreEvent.dequeued at h
  split at h
  · rename_i heq
    obtain ⟨rfl, hvalue⟩ := Option.ite_none_right_eq_some.1 h
    cases hvalue
    cases heq
    exact hanswers
  · cases h

/-- The call wrote this key. -/
def wrote (service : ServiceId) (vmId key : Bytes) (o : Occurrence) : Bool :=
  (o.answers service).any fun (op, reply) => setsKey vmId key op && reply.isOk

/-- The one that an occurrence happens to holds the queue under this name, when it is a guest. -/
def Holds (service : ServiceId) (vmId name : Bytes) (queue : QueueId) (past : List Occurrence) :
    Occurrence → Prop
  | .guest id _ => ∃ o ∈ past, o.Obtains service id vmId name queue
  | .embedder _ _ => True

end Occurrence

/-- What a call that the observer panics in did to the store. -/
theorem InMemoryStore.Gives.getD {s : InMemoryStore} {op : SharedOp}
    {answer : Answer (Except Status SharedReply)} (h : s.Gives op answer) :
    answer.getD (.ok .done) = (s.answer op).1 := by
  rcases h with rfl | ⟨rfl, howes⟩
  · rfl
  · unfold owes at howes
    split at howes
    · rename_i queue value
      split at howes
      · rename_i owner hpush
        simp [InMemoryStore.answer, hpush, Except.map]
      · cases howes
    · cases howes

namespace Process

variable {p : Process} {past rest mid : List Occurrence} {o : Occurrence} {queue : QueueId}
  {value vmId name key : Bytes}

/-- What a call did is what the store answered it. -/
theorem answers_eq (ht : p.trace = past ++ o :: rest) : o.answers p.service =
    (o.asks p.service).map fun op => (op, ((p.storeAfter past).answer op).1) := by
  have hfits := p.fits ht
  unfold Occurrence.answers Occurrence.asks
  cases hasked : o.asked p.service with
  | none => rfl
  | some call => simp only [Option.map_some, (hfits call hasked).getD]

theorem reply_eq (ht : p.trace = past ++ o :: rest) {op : SharedOp}
    {reply : Except Status SharedReply} (h : o.answers p.service = some (op, reply)) :
    ((p.storeAfter past).answer op).1 = reply := by
  have hanswer := (answers_eq ht).symm.trans h
  rw [Occurrence.asks_of_answers h, Option.map_some] at hanswer
  cases hanswer
  rfl

/-- **An occurrence**, with what it did. -/
theorem change_of_answers (ht : p.trace = past ++ o :: rest) :
    p.storeAfter (past ++ [o]) = p.storeAfter past ∧ o.answers p.service = none ∨
      ∃ op reply, o.answers p.service = some (op, reply) ∧
        Change (p.storeAfter past) op reply (p.storeAfter (past ++ [o])) := by
  rw [answers_eq ht]
  rcases p.storeAfter_change past o with ⟨heq, hasks⟩ | ⟨op, hasks, hchange⟩
  · exact .inl ⟨heq, by rw [hasks, Option.map_none]⟩
  · exact .inr ⟨op, _, by rw [hasks, Option.map_some], hchange⟩

/-! ## Queues -/

/-- **One occurrence** moves a queue as a list of values moves through a queue. -/
theorem held_occurrence (ht : p.trace = past ++ o :: rest) (queue : QueueId) :
    (p.storeAfter past).held queue ++ [o].filterMap (Occurrence.enqueued p.service queue) =
      [o].filterMap (Occurrence.dequeued p.service queue) ++
        (p.storeAfter (past ++ [o])).held queue := by
  have hmap : ∀ f : StoreEvent → Option Bytes,
      [o].filterMap (fun o => (o.answers p.service).bind fun (op, reply) =>
        f (.answered 0 op reply)) =
      ((o.answers p.service).map fun (op, reply) => StoreEvent.answered 0 op reply).toList.filterMap
        f := by
    intro f
    cases h : o.answers p.service <;> simp [List.filterMap_cons, h]
  unfold Occurrence.enqueued Occurrence.dequeued
  rw [hmap, hmap]
  rcases change_of_answers ht with ⟨heq, hnone⟩ | ⟨op, reply, hsome, hchange⟩
  · rw [heq, hnone]
    exact List.append_nil _
  · rw [hsome]
    exact held_change (p.consistent_storeAfter past) hchange 0 queue

/-- **A queue holds what was put into it and not taken**, in order. -/
theorem held_eq (ht : p.trace = past ++ rest) (queue : QueueId) :
    past.filterMap (Occurrence.enqueued p.service queue) =
      past.filterMap (Occurrence.dequeued p.service queue) ++ (p.storeAfter past).held queue := by
  induction past using List.reverseRecOn generalizing rest with
  | nil =>
    show [] = [] ++ held (new _ _) queue
    simp [held, new]
  | append_singleton past o ih =>
    have ht' : p.trace = past ++ o :: rest := by rw [ht, List.append_assoc]; rfl
    rw [List.filterMap_append, ih ht', List.append_assoc, held_occurrence ht', ← List.append_assoc,
      ← List.filterMap_append]

/-- Who presents a queue holds it under its name. -/
theorem holds_of_presents (ht : p.trace = past ++ o :: rest) {op : SharedOp}
    (hasks : o.asks p.service = some op) (hop : op.presents = some (.queue queue))
    (hname : (p.storeAfter past).queues.byName[(vmId, name)]? = some queue) :
    o.Holds p.service vmId name queue past := by
  cases o with
  | embedder => trivial
  | guest id event =>
    obtain ⟨call, answer, abi, rfl⟩ := Occurrence.of_asks hasks
    obtain ⟨vmId', name', hobtains, hname'⟩ := queue_obtained ht hop
    cases (p.consistent_storeAfter past).queues.numbered.injective _ _ _ hname hname'
    exact hobtains

/-- A value is put into a queue that has a name, by one who holds the queue under it. -/
theorem name_of_enqueued (ht : p.trace = past ++ o :: rest)
    (henqueued : o.enqueued p.service queue = some value) :
    ∃ vmId name, (p.storeAfter past).queues.byName[(vmId, name)]? = some queue ∧
      o.Holds p.service vmId name queue past := by
  obtain ⟨reply, hanswers⟩ := Occurrence.of_enqueued henqueued
  rcases change_of_answers ht with ⟨-, hnone⟩ | ⟨op, reply', hsome, hchange⟩
  · cases hnone.symm.trans hanswers
  · cases hsome.symm.trans hanswers
    obtain ⟨items, hitems⟩ : ∃ items, (p.storeAfter past).queues.items[queue]? = some items := by
      generalize p.storeAfter (past ++ [o]) = s' at hchange
      cases hchange with
      | pushed hitems hroom => exact ⟨_, hitems⟩
    obtain ⟨vmId, name, -, hname⟩ := (p.consistent_storeAfter past).owner hitems
    exact ⟨vmId, name, hname,
      holds_of_presents ht (Occurrence.asks_of_answers hanswers) rfl hname⟩

/-- **Queues deliver.** Whatever the guests of a process do and in whatever order, a value that is
    taken from a queue is the first that was put into it and not taken: as many values went into
    the queue before it as had been taken. The one who took it and the one who put it in got the
    queue from the store before, where they are guests, and under the same name of the same VM. -/
theorem queues_deliver (p : Process) {past rest : List Occurrence} {o : Occurrence}
    {queue : QueueId} {value : Bytes} (ht : p.trace = past ++ o :: rest)
    (htaken : o.dequeued p.service queue = some value) :
    ∃ before sent after, past = before ++ sent :: after ∧
      sent.enqueued p.service queue = some value ∧
      (before.filterMap (Occurrence.enqueued p.service queue)).length =
        (past.filterMap (Occurrence.dequeued p.service queue)).length ∧
      ∃ vmId name, (p.storeAfter past).queues.byName[(vmId, name)]? = some queue ∧
        sent.Holds p.service vmId name queue before ∧ o.Holds p.service vmId name queue past := by
  have hanswers := Occurrence.of_dequeued htaken
  obtain ⟨items, hitems⟩ : ∃ items, (p.storeAfter past).held queue = value :: items := by
    rcases change_of_answers ht with ⟨-, hnone⟩ | ⟨op, reply, hsome, hchange⟩
    · cases hnone.symm.trans hanswers
    · cases hsome.symm.trans hanswers
      generalize p.storeAfter (past ++ [o]) = s' at hchange
      cases hchange with
      | popped hitems => exact ⟨_, by rw [held, hitems, Option.getD_some]⟩
  have hsplit := held_eq ht queue
  rw [hitems] at hsplit
  obtain ⟨first, others, rfl, hfirst, hothers⟩ := List.filterMap_eq_append_iff.1 hsplit
  obtain ⟨silent, sent, after, rfl, hsilent, hsent, -⟩ := List.filterMap_eq_cons_iff.1 hothers
  have htsent : p.trace = (first ++ silent) ++ sent :: (after ++ o :: rest) := by
    rw [ht]; simp
  obtain ⟨vmId, name, hname, hholds⟩ := name_of_enqueued htsent hsent
  have hlast : (p.storeAfter (first ++ (silent ++ sent :: after))).queues.byName[(vmId, name)]? =
      some queue := by
    rw [← List.append_assoc, storeAfter_append]
    exact byName_after hname _
  refine ⟨first ++ silent, sent, after, by simp, hsent, ?_, vmId, name, hlast, hholds, ?_⟩
  · rw [List.filterMap_append, hfirst, List.filterMap_eq_nil_iff.2 hsilent, List.append_nil]
  · exact holds_of_presents ht (Occurrence.asks_of_answers hanswers) rfl hlast

/-- The second guest takes what the first put into the queue. -/
theorem taker_gets_what_was_put : ∃ before sent after,
    TwoGuests.both.trace.take 43 = before ++ sent :: after ∧
      sent.enqueued 1 .min = some [0, 0] := by
  obtain ⟨o, ht, htaken⟩ : ∃ o,
      TwoGuests.both.trace = TwoGuests.both.trace.take 43 ++ o :: TwoGuests.both.trace.drop 44 ∧
      o.dequeued 1 .min = some [0, 0] := ⟨_, rfl, rfl⟩
  obtain ⟨before, sent, after, hpast, hsent, -⟩ := queues_deliver TwoGuests.both ht htaken
  exact ⟨before, sent, after, hpast, hsent⟩

/-! ## Values -/

/-- The writes of a key over a stretch of a process. -/
theorem accepted_eq (ht : p.trace = past ++ mid ++ rest) (vmId key : Bytes) :
    accepted (setsKey vmId key) (p.storeAfter past)
        (mid.filterMap (Occurrence.asks p.service)) =
      mid.countP (Occurrence.wrote p.service vmId key) := by
  induction mid generalizing past with
  | nil => rfl
  | cons o mid ih =>
    have ht' : p.trace = past ++ o :: (mid ++ rest) := by rw [ht]; simp
    have ht'' : p.trace = (past ++ [o]) ++ mid ++ rest := by rw [ht]; simp
    have hrest := ih ht''
    have hwrote : Occurrence.wrote p.service vmId key o =
        (o.asks p.service).any fun op =>
          setsKey vmId key op && ((p.storeAfter past).answer op).1.isOk := by
      unfold Occurrence.wrote
      rw [answers_eq ht', Option.any_map]
    rw [storeAfter_concat] at hrest
    unfold Occurrence.act at hrest
    rw [List.countP_cons, hwrote, Nat.add_comm]
    cases hasks : o.asks p.service with
    | none =>
      rw [hasks, Option.elim_none] at hrest
      simpa [List.filterMap_cons, hasks] using hrest
    | some op =>
      rw [hasks, Option.elim_some] at hrest
      rw [List.filterMap_cons, hasks]
      exact congrArg (_ + ·) hrest

/-- A value that nobody writes stays. -/
theorem data_unwritten (ht : p.trace = past ++ mid ++ rest)
    (hnone : ∀ o ∈ mid, o.wrote p.service vmId key = false) :
    (p.storeAfter (past ++ mid)).data[(vmId, key)]? = (p.storeAfter past).data[(vmId, key)]? := by
  induction mid using List.reverseRecOn generalizing rest with
  | nil => rw [List.append_nil]
  | append_singleton mid o ih =>
    have ht' : p.trace = past ++ mid ++ o :: rest := by rw [ht]; simp
    rw [← List.append_assoc,
      ← ih ht' fun o' ho' => hnone o' (List.mem_append_left _ ho')]
    have ho := hnone o (by simp)
    rcases change_of_answers ht' with ⟨heq, -⟩ | ⟨op, reply, hsome, hchange⟩
    · rw [heq]
    · unfold Occurrence.wrote at ho
      rw [hsome] at ho
      generalize p.storeAfter (past ++ mid ++ [o]) = s' at hchange ⊢
      cases hchange with
      | @written vmId' key' value cas hsize hkeys hcas =>
        have hother : ¬ (vmId', key') = (vmId, key) := by
          rintro ⟨⟩
          simp [setsKey, Except.isOk, Except.toBool] at ho
        exact (ExtTreeMap.get?_insert ..).trans (if_neg fun h => hother h.symm)
      | refused | read | found | registered | resolved | pushed | popped | known | defined
      | observed | recorded | incremented | measured => rfl

theorem getSharedData_congr {s s' : InMemoryStore}
    (h : s'.data[(vmId, key)]? = s.data[(vmId, key)]?) :
    s'.getSharedData vmId key = s.getSharedData vmId key := by
  unfold getSharedData
  rw [h]

theorem getSharedData_putData (s : InMemoryStore) (vmId key value : Bytes) (number : NonZeroU32) :
    (s.putData (vmId, key) value number).getSharedData vmId key =
      .ok ⟨value, number.val, number.property⟩ := by
  have hget : (s.putData (vmId, key) value number).data[(vmId, key)]? = some (value, number) :=
    (ExtTreeMap.get?_insert ..).trans (if_pos rfl)
  unfold getSharedData
  rw [hget]

/-- **A value is replaced as it was read.** Whatever the guests of a process do and in whatever
    order: when a value is read with its number, and a later write that gives this number is
    accepted, then nobody wrote the value in between, unless the number went all around; so the
    write replaces the very value that was read. -/
theorem replaces_what_was_read (p : Process) {past mid rest : List Occurrence} {got set : Occurrence}
    {vmId key value : Bytes} {read : SharedValue}
    (ht : p.trace = past ++ got :: (mid ++ set :: rest))
    (hgot : got.answers p.service = some (.getSharedData vmId key, .ok (.value read)))
    (hset : set.answers p.service =
      some (.setSharedData vmId key value (some read.cas), .ok .done))
    (hfew : mid.countP (Occurrence.wrote p.service vmId key) < casCycle) :
    (∀ o ∈ mid, o.wrote p.service vmId key = false) ∧
      (p.storeAfter (past ++ got :: mid)).getSharedData vmId key = .ok read ∧
      ∃ written, (p.storeAfter (past ++ got :: mid ++ [set])).getSharedData vmId key =
        .ok written ∧ written.bytes = value := by
  have htgot : p.trace = past ++ [got] ++ mid ++ set :: rest := by rw [ht]; simp
  have hread : (p.storeAfter (past ++ [got])).getSharedData vmId key = .ok read := by
    rcases change_of_answers ht with ⟨-, hnone⟩ | ⟨op, reply, hsome, hchange⟩
    · cases hnone.symm.trans hgot
    · cases hsome.symm.trans hgot
      generalize p.storeAfter (past ++ [got]) = s' at hchange ⊢
      cases hchange with
      | read hget => exact hget
  have hnumber := number_after (number_of_getSharedData hread)
    (mid.filterMap (Occurrence.asks p.service))
  rw [accepted_eq htgot, ← storeAfter_append] at hnumber
  -- the write found the number that was read, so the number moved around whole cycles
  have hcycle : casCycle ∣ mid.countP (Occurrence.wrote p.service vmId key) := by
    have hwrites : setsKeyAt vmId key read.cas
        (.setSharedData vmId key value (some read.cas)) = true := by
      simp [setsKeyAt]
    have hsame := eq_number_of_accepted hnumber hwrites (by rw [reply_eq htgot hset]; rfl)
    rw [← iterate_nextCas_eq_iff _ ⟨read.cas, read.cas_ne_zero⟩]
    exact Subtype.ext hsame.symm
  have hnone : ∀ o ∈ mid, o.wrote p.service vmId key = false := by
    have hzero := Nat.eq_zero_of_dvd_of_lt hcycle hfew
    intro o ho
    exact Bool.eq_false_iff.2 (List.countP_eq_zero.1 hzero o ho)
  have hstill : (p.storeAfter (past ++ got :: mid)).getSharedData vmId key = .ok read := by
    rw [List.append_cons, getSharedData_congr (data_unwritten htgot hnone)]
    exact hread
  refine ⟨hnone, hstill, ?_⟩
  have htset : p.trace = (past ++ got :: mid) ++ set :: rest := by rw [ht]; simp
  rcases change_of_answers htset with ⟨-, hsilent⟩ | ⟨op, reply, hsome, hchange⟩
  · cases hsilent.symm.trans hset
  · cases hsome.symm.trans hset
    generalize p.storeAfter (past ++ got :: mid ++ [set]) = s' at hchange ⊢
    cases hchange with
    | written hsize hkeys hcas =>
      exact ⟨⟨value, _, (casAfter _ (vmId, key)).property⟩, getSharedData_putData .., rfl⟩

/-- The first guest replaces the value that it read. -/
theorem writer_replaces_what_it_read : ∃ past set rest value read,
    TwoGuests.both.trace = past ++ set :: rest ∧
      set.answers 1 = some (.setSharedData [0] [] value (some read.cas), .ok .done) ∧
      (TwoGuests.both.storeAfter past).getSharedData [0] [] = .ok read := by
  obtain ⟨got, set, read, value, ht, hgot, hset⟩ : ∃ got set read value,
      TwoGuests.both.trace = TwoGuests.both.trace.take 23 ++ got ::
        ((TwoGuests.both.trace.drop 24).take 5 ++ set :: TwoGuests.both.trace.drop 30) ∧
      got.answers 1 = some (.getSharedData [0] [], .ok (.value read)) ∧
      set.answers 1 = some (.setSharedData [0] [] value (some read.cas), .ok .done) :=
    ⟨_, _, _, _, rfl, rfl, rfl⟩
  have hreplaces := replaces_what_was_read TwoGuests.both ht hgot hset (by decide)
  refine ⟨TwoGuests.both.trace.take 23 ++ got :: (TwoGuests.both.trace.drop 24).take 5, set,
    TwoGuests.both.trace.drop 30, value, read, ?_, hset, hreplaces.2.1⟩
  rw [List.append_assoc]
  exact ht

end Process

end ProxyWasmHost
