/-
  A store that several guests use at the same time, and what its observer hears.

  Every call runs under its lock in one step. A call that queued an item tells
  the observer in a step of its own, after other calls may have run, and the
  observer may itself call the store.
-/
import ProxyWasmHost.Lib.Steps
import ProxyWasmHost.Store.Consistent
import Mathlib.Logic.Function.Basic

namespace ProxyWasmHost

open Std

attribute [local instance] lexOrd

/-- One thing that happens to a store in use. -/
inductive StoreEvent where
  /-- The call with this number runs, and gets this answer. -/
  | answered (call : ℕ) (op : SharedOp) (reply : Except Status SharedReply)
  /-- That call tells the observer of its item. -/
  | told (call : ℕ) (item : QueueEnqueued)

/-- A store, how many calls it got, and what each of them has still to tell the
    observer before it returns. -/
structure InUse where
  store : InMemoryStore
  calls : ℕ
  owing : ℕ → Option QueueEnqueued

namespace InUse

def start (limits : InMemoryStoreLimits) (observer : Bool) : InUse :=
  ⟨.new limits observer, 0, fun _ => none⟩

/-- **One step** of any of the callers. -/
inductive Step : InUse → List StoreEvent → InUse → Prop
  | call (u op) : Step u [.answered u.calls op (u.store.answer op).1]
      { store := (u.store.answer op).2
        calls := u.calls + 1
        owing := Function.update u.owing u.calls (u.store.owes op) }
  | tell {u n item} (howing : u.owing n = some item) : Step u [.told n item]
      { u with owing := Function.update u.owing n none }

end InUse

/-! ## What a trace says -/

/-- The value a call put at the end of `queue`. -/
def StoreEvent.enqueued (queue : QueueId) : StoreEvent → Option Bytes
  | .answered _ (.enqueueSharedQueue queue' value) (.ok _) =>
    if queue' = queue then some value else none
  | _ => none

/-- The value a call took from the front of `queue`. -/
def StoreEvent.dequeued (queue : QueueId) : StoreEvent → Option Bytes
  | .answered _ (.dequeueSharedQueue queue') (.ok (.bytes value)) =>
    if queue' = queue then some value else none
  | _ => none

/-- What the call told the observer. -/
def StoreEvent.toldBy (call : ℕ) : StoreEvent → Option QueueEnqueued
  | .told call' item => if call' = call then some item else none
  | _ => none

namespace InMemoryStore

variable {s s' : InMemoryStore} {op : SharedOp} {reply : Except Status SharedReply}

/-- What `queue` holds, the oldest first. -/
def held (s : InMemoryStore) (queue : QueueId) : List Bytes := (s.queues.items[queue]?).getD []

theorem held_setItems (s : InMemoryStore) (queue x : QueueId) (items : List Bytes) :
    (s.setItems queue items).held x = if x = queue then items else s.held x := by
  unfold held setItems
  rw [ExtTreeMap.get?_insert]
  split <;> rfl

/-- **One call** moves a queue as a list of values moves through a queue. -/
theorem held_change (hs : s.Consistent) (hchange : Change s op reply s') (call : ℕ)
    (queue : QueueId) :
    s.held queue ++ ([StoreEvent.answered call op reply].filterMap (StoreEvent.enqueued queue)) =
      ([StoreEvent.answered call op reply].filterMap (StoreEvent.dequeued queue)) ++ s'.held queue := by
  cases hchange with
  | @registered vmId name id hname hroom hid =>
    show s.held queue ++ [] = ((s.queues.items.insert id [])[queue]?).getD []
    rw [ExtTreeMap.get?_insert, List.append_nil]
    unfold held
    split
    · rename_i hqueue
      cases hitems : s.queues.items[queue]? with
      | none => rfl
      | some items =>
        -- the identifier would have an owner, so it would not be new
        have howner := (hs.queues.items queue).1 (by rw [hitems]; rfl)
        obtain ⟨owner, howner⟩ := Option.isSome_iff_exists.1 howner
        have := hs.queues.numbered.bounded _ _ ((hs.queues.owners queue owner).1 howner)
        rw [hqueue] at this
        omega
    · rfl
  | @pushed queue' value items hitems hroom =>
    rw [held_setItems]
    by_cases hqueue : queue' = queue
    · subst hqueue
      simp only [held, hitems, Option.getD_some, StoreEvent.enqueued, StoreEvent.dequeued,
        List.filterMap_cons, if_true, List.filterMap_nil, List.nil_append]
    · simp only [StoreEvent.enqueued, StoreEvent.dequeued, List.filterMap_cons, if_neg hqueue,
        List.filterMap_nil, List.append_nil, List.nil_append, if_neg (Ne.symm hqueue)]
  | @popped queue' value rest hitems =>
    rw [held_setItems]
    by_cases hqueue : queue' = queue
    · subst hqueue
      simp only [held, hitems, Option.getD_some, StoreEvent.enqueued, StoreEvent.dequeued,
        List.filterMap_cons, if_true, List.filterMap_nil, List.append_nil, List.cons_append,
        List.nil_append]
    · simp only [StoreEvent.enqueued, StoreEvent.dequeued, List.filterMap_cons, if_neg hqueue,
        List.filterMap_nil, List.append_nil, List.nil_append, if_neg (Ne.symm hqueue)]
  | refused op e =>
    cases op <;> exact List.append_nil _
  | read | written | found | resolved | known | defined | observed | recorded | incremented
  | measured => exact List.append_nil _

theorem owner_of_pushItem {queue : QueueId} {value : Bytes} {owner : Option Key}
    (h : (s.pushItem queue value).1 = .ok owner) : owner = s.queues.owners[queue]? := by
  unfold pushItem at h
  split at h
  · cases h
  · split at h
    · cases h
    · split at h
      · cases h
      · cases h; rfl

/-- A call that queued an item owes the observer that item, with the owner of the
    queue. -/
theorem owes_of_ok {queue : QueueId} {value : Bytes} {reply : SharedReply}
    (h : (s.answer (.enqueueSharedQueue queue value)).1 = .ok reply) :
    s.owes (.enqueueSharedQueue queue value) = s.notice queue s.queues.owners[queue]? := by
  unfold owes
  unfold answer at h
  dsimp only at h ⊢
  cases hpush : (s.pushItem queue value).1 with
  | ok owner =>
    rw [← owner_of_pushItem hpush]
  | error e => rw [hpush] at h; cases h

theorem owes_of_error {queue : QueueId} {value : Bytes} {e : Status}
    (h : (s.answer (.enqueueSharedQueue queue value)).1 = .error e) :
    s.owes (.enqueueSharedQueue queue value) = none := by
  unfold owes
  unfold answer at h
  dsimp only at h ⊢
  cases hpush : (s.pushItem queue value).1 with
  | ok owner => rw [hpush] at h; cases h
  | error e => rfl

/-- A queue with an item list has an owner, under whose name it is found. -/
theorem Consistent.owner (h : s.Consistent) {queue : QueueId} {items : List Bytes}
    (hitems : s.queues.items[queue]? = some items) :
    ∃ vmId name, s.queues.owners[queue]? = some (vmId, name) ∧
      s.queues.byName[(vmId, name)]? = some queue := by
  have howner := (h.queues.items queue).1 (by rw [hitems]; rfl)
  obtain ⟨⟨vmId, name⟩, howner⟩ := Option.isSome_iff_exists.1 howner
  exact ⟨vmId, name, howner, (h.queues.owners queue (vmId, name)).1 howner⟩

end InMemoryStore

/-- A name that stands for a queue after a call stood for it before, or is the one the
    call registered. -/
theorem InMemoryStore.byName_before {s s' : InMemoryStore} {op : SharedOp}
    {reply : Except Status SharedReply} {vmId name : Bytes} {queue : QueueId}
    (hname : s'.queues.byName[(vmId, name)]? = some queue) (hchange : Change s op reply s') :
    s.queues.byName[(vmId, name)]? = some queue ∨
      op = .registerSharedQueue vmId name ∧ reply = .ok (.queue queue) := by
  cases hchange with
  | @registered vmId' name' id hfree hroom hid =>
    change (s.queues.byName.insert (vmId', name') id)[(vmId, name)]? = some queue at hname
    rw [ExtTreeMap.get?_insert] at hname
    split at hname
    · rename_i hsame
      cases hsame
      cases hname
      exact .inr ⟨rfl, rfl⟩
    · exact .inl hname
  | refused | read | written | found | resolved | pushed | popped | known | defined | observed
  | recorded | incremented | measured => exact .inl hname

/-! ## Every run -/

namespace InUse

/-- The call queued `value`. -/
def Enqueues (trace : List StoreEvent) (call : ℕ) (queue : QueueId) (value : Bytes) : Prop :=
  ∃ reply, .answered call (.enqueueSharedQueue queue value) (.ok reply) ∈ trace

/-- Some call registered `queue` under this name. -/
def Registered (trace : List StoreEvent) (vmId name : Bytes) (queue : QueueId) : Prop :=
  ∃ call, .answered call (.registerSharedQueue vmId name) (.ok (.queue queue)) ∈ trace

/-- What the call told the observer, and what it has still to tell. -/
def notices (trace : List StoreEvent) (u : InUse) (call : ℕ) : List QueueEnqueued :=
  trace.filterMap (StoreEvent.toldBy call) ++ (u.owing call).toList

/-- **What every run keeps**, of the trace so far and the state. -/
structure Sound (limits : InMemoryStoreLimits) (observer : Bool) (past : List StoreEvent)
    (u : InUse) : Prop where
  consistent : u.store.Consistent
  limits_eq : u.store.limits = limits
  observer_eq : u.store.observer = observer
  fifo : ∀ queue, past.filterMap (StoreEvent.enqueued queue) =
    past.filterMap (StoreEvent.dequeued queue) ++ u.store.held queue
  numbered : ∀ call op reply, .answered call op reply ∈ past → call < u.calls
  registered : ∀ vmId name queue,
    u.store.queues.byName[(vmId, name)]? = some queue ↔ Registered past vmId name queue
  heard : ∀ call queue value, Enqueues past call queue value →
    ∃ vmId name, Registered past vmId name queue ∧
      notices past u call = if observer then [⟨vmId, name, queue⟩] else []
  silent : ∀ call, (∀ queue value, ¬ Enqueues past call queue value) →
    notices past u call = []

section

variable {limits : InMemoryStoreLimits} {observer : Bool} {past : List StoreEvent} {u : InUse}

theorem sound_start (limits : InMemoryStoreLimits) (observer : Bool) :
    Sound limits observer [] (start limits observer) where
  consistent := InMemoryStore.consistent_new limits observer
  limits_eq := rfl
  observer_eq := rfl
  fifo := by
    intro queue
    simp only [start, InMemoryStore.new, InMemoryStore.held, ExtTreeMap.getElem?_empty]
    rfl
  numbered := by intro call op reply h; cases h
  registered := by
    intro vmId name queue
    simp only [start, InMemoryStore.new, ExtTreeMap.getElem?_empty, reduceCtorEq, false_iff]
    rintro ⟨call, h⟩
    cases h
  heard := by rintro call queue value ⟨reply, h⟩; cases h
  silent := by intro call h; rfl

theorem enqueues_call {n call : ℕ} {op : SharedOp} {reply : Except Status SharedReply}
    {queue : QueueId} {value : Bytes}
    (h : Enqueues (past ++ [.answered n op reply]) call queue value) :
    Enqueues past call queue value ∨
      call = n ∧ op = .enqueueSharedQueue queue value ∧ ∃ r, reply = .ok r := by
  obtain ⟨r, h⟩ := h
  rcases List.mem_append.1 h with h | h
  · exact .inl ⟨r, h⟩
  · rw [List.mem_singleton] at h
    cases h
    exact .inr ⟨rfl, rfl, r, rfl⟩

theorem Enqueues.append {call : ℕ} {queue : QueueId} {value : Bytes}
    (h : Enqueues past call queue value) (t : List StoreEvent) :
    Enqueues (past ++ t) call queue value := by
  obtain ⟨r, h⟩ := h
  exact ⟨r, List.mem_append_left t h⟩

theorem Registered.append {vmId name : Bytes} {queue : QueueId}
    (h : Registered past vmId name queue) (t : List StoreEvent) :
    Registered (past ++ t) vmId name queue := by
  obtain ⟨call, h⟩ := h
  exact ⟨call, List.mem_append_left t h⟩

/-- A new call has told nothing yet. -/
theorem Sound.fresh (h : Sound limits observer past u) :
    past.filterMap (StoreEvent.toldBy u.calls) = [] := by
  have hnone := h.silent u.calls (by
    rintro queue value ⟨reply, hmem⟩
    exact Nat.lt_irrefl _ (h.numbered _ _ _ hmem))
  exact (List.append_eq_nil_iff.1 hnone).1

/-- The notices of the other calls are those before. -/
theorem notices_call_ne {call : ℕ} {op : SharedOp} {reply : Except Status SharedReply}
    {store : InMemoryStore} {owed : Option QueueEnqueued} (hne : call ≠ u.calls) :
    notices (past ++ [.answered u.calls op reply])
      { store := store, calls := u.calls + 1, owing := Function.update u.owing u.calls owed } call =
    notices past u call := by
  unfold notices
  dsimp only
  rw [List.filterMap_append, Function.update_of_ne hne]
  show _ ++ [] ++ _ = _
  rw [List.append_nil]

/-- The notices of the new call are what it owes. -/
theorem Sound.notices_call (h : Sound limits observer past u) {op : SharedOp}
    {reply : Except Status SharedReply} {store : InMemoryStore} {owed : Option QueueEnqueued} :
    notices (past ++ [.answered u.calls op reply])
      { store := store, calls := u.calls + 1, owing := Function.update u.owing u.calls owed }
      u.calls = owed.toList := by
  unfold notices
  dsimp only
  rw [List.filterMap_append, Function.update_self, h.fresh]
  rfl

theorem Sound.call (h : Sound limits observer past u) (op : SharedOp) :
    Sound limits observer (past ++ [.answered u.calls op (u.store.answer op).1])
      { store := (u.store.answer op).2
        calls := u.calls + 1
        owing := Function.update u.owing u.calls (u.store.owes op) } := by
  have hchange := u.store.change_of_answer op
  refine ⟨h.consistent.change hchange, ?_, ?_, ?_, ?_, ?_, ?_, ?_⟩
  · rw [← h.limits_eq]
    generalize (u.store.answer op).1 = reply at hchange
    generalize (u.store.answer op).2 = s' at hchange
    cases hchange <;> rfl
  · rw [← h.observer_eq]
    generalize (u.store.answer op).1 = reply at hchange
    generalize (u.store.answer op).2 = s' at hchange
    cases hchange <;> rfl
  · intro queue
    rw [List.filterMap_append, List.filterMap_append, h.fifo queue, List.append_assoc,
      InMemoryStore.held_change h.consistent hchange u.calls queue, List.append_assoc]
  · intro call op' reply hmem
    rcases List.mem_append.1 hmem with hmem | hmem
    · exact Nat.lt_succ_of_lt (h.numbered call op' reply hmem)
    · rw [List.mem_singleton] at hmem
      cases hmem
      exact Nat.lt_succ_self _
  · intro vmId name queue
    constructor
    · intro hname
      rcases InMemoryStore.byName_before hname hchange with hname | ⟨rfl, hreply⟩
      · exact ((h.registered vmId name queue).1 hname).append _
      · exact ⟨u.calls, List.mem_append_right _ (by rw [hreply]; exact List.mem_singleton_self _)⟩
    · rintro ⟨call, hmem⟩
      rcases List.mem_append.1 hmem with hmem | hmem
      · exact InMemoryStore.byName_change ((h.registered vmId name queue).2 ⟨call, hmem⟩) hchange
      · rw [List.mem_singleton] at hmem
        injection hmem with hcall hop hreply
        rw [← hreply] at hchange
        exact InMemoryStore.byName_of_change (.inl hop.symm) hchange
  · intro call queue value hcall
    rcases enqueues_call hcall with hold | ⟨rfl, rfl, reply, hreply⟩
    · obtain ⟨r, hmem⟩ := id hold
      obtain ⟨vmId, name, hregistered, hnotices⟩ := h.heard call queue value hold
      refine ⟨vmId, name, hregistered.append _, ?_⟩
      rw [notices_call_ne (Nat.ne_of_lt (h.numbered _ _ _ hmem)), hnotices]
    · obtain ⟨items, hitems⟩ : ∃ items, u.store.queues.items[queue]? = some items := by
        rw [hreply] at hchange
        generalize (u.store.answer (.enqueueSharedQueue queue value)).2 = s' at hchange
        cases hchange with
        | pushed hitems hroom => exact ⟨_, hitems⟩
      obtain ⟨vmId, name, howner, hname⟩ := h.consistent.owner hitems
      refine ⟨vmId, name, ((h.registered vmId name queue).1 hname).append _, ?_⟩
      rw [h.notices_call, InMemoryStore.owes_of_ok hreply, howner]
      unfold InMemoryStore.notice
      rw [h.observer_eq]
      cases observer <;> rfl
  · intro call hnone
    by_cases hcall : call = u.calls
    · subst hcall
      rw [h.notices_call]
      cases op with
      | enqueueSharedQueue queue value =>
        cases hreply : (u.store.answer (.enqueueSharedQueue queue value)).1 with
        | ok reply =>
          refine absurd ⟨reply, List.mem_append_right _ ?_⟩ (hnone queue value)
          rw [hreply]
          exact List.mem_singleton_self _
        | error e => rw [InMemoryStore.owes_of_error hreply]; rfl
      | _ => rfl
    · rw [notices_call_ne hcall]
      exact h.silent call fun queue value hold => hnone queue value (hold.append _)

/-- Telling the observer moves a notice from what is owed to what was told. -/
theorem notices_tell {n call : ℕ} {item : QueueEnqueued} (howing : u.owing n = some item) :
    notices (past ++ [.told n item]) { u with owing := Function.update u.owing n none } call =
      notices past u call := by
  unfold notices
  dsimp only
  rw [List.filterMap_append]
  by_cases hcall : call = n
  · subst hcall
    rw [Function.update_self, howing]
    simp only [StoreEvent.toldBy, List.filterMap_cons, if_true, List.filterMap_nil,
      Option.toList_none, List.append_nil, Option.toList_some]
  · rw [Function.update_of_ne hcall]
    simp only [StoreEvent.toldBy, List.filterMap_cons, if_neg (Ne.symm hcall), List.filterMap_nil,
      List.append_nil]

theorem Sound.tell (h : Sound limits observer past u) {n : ℕ} {item : QueueEnqueued}
    (howing : u.owing n = some item) :
    Sound limits observer (past ++ [.told n item])
      { u with owing := Function.update u.owing n none } := by
  have hanswered : ∀ call op reply, StoreEvent.answered call op reply ∈ past ++ [.told n item] →
      .answered call op reply ∈ past := by
    intro call op reply hmem
    rcases List.mem_append.1 hmem with hmem | hmem
    · exact hmem
    · rw [List.mem_singleton] at hmem; cases hmem
  refine ⟨h.consistent, h.limits_eq, h.observer_eq, ?_, ?_, ?_, ?_, ?_⟩
  · intro queue
    rw [List.filterMap_append, List.filterMap_append]
    show _ ++ [] = _ ++ [] ++ _
    rw [List.append_nil, List.append_nil]
    exact h.fifo queue
  · intro call op reply hmem
    exact h.numbered call op reply (hanswered _ _ _ hmem)
  · intro vmId name queue
    rw [h.registered vmId name queue]
    exact ⟨fun hmem => hmem.append _, fun ⟨call, hmem⟩ => ⟨call, hanswered _ _ _ hmem⟩⟩
  · rintro call queue value ⟨reply, hmem⟩
    obtain ⟨vmId, name, hregistered, hnotices⟩ :=
      h.heard call queue value ⟨reply, hanswered _ _ _ hmem⟩
    exact ⟨vmId, name, hregistered.append _, (notices_tell howing).trans hnotices⟩
  · intro call hnone
    rw [notices_tell howing]
    exact h.silent call fun queue value hold => hnone queue value (hold.append _)

theorem sound_of_steps {trace : List StoreEvent} (h : Steps Step (start limits observer) trace u) :
    Sound limits observer trace u :=
  h.history (I := Sound limits observer) (by
    intro past u t u' hu hstep
    cases hstep with
    | call op => exact hu.call op
    | tell howing => exact hu.tell howing) (sound_start limits observer)

end

/-- **The queues of a store in use**: what was taken is a prefix of what was put, what
    is held is the rest, and the observer hears once of every item, with the name of
    its queue, and of nothing else. -/
theorem queues_in_use (limits : InMemoryStoreLimits) (observer : Bool) (trace : List StoreEvent)
    (u : InUse) (h : Steps Step (start limits observer) trace u) :
    (∀ queue, trace.filterMap (StoreEvent.enqueued queue) =
        trace.filterMap (StoreEvent.dequeued queue) ++ u.store.held queue ∧
      (u.store.held queue).length ≤ limits.queueItems) ∧
    (∀ call queue value, Enqueues trace call queue value → ∃ vmId name,
      (∀ vmId' name', Registered trace vmId' name' queue ↔ vmId' = vmId ∧ name' = name) ∧
        trace.filterMap (StoreEvent.toldBy call) ++ (u.owing call).toList =
          if observer then [⟨vmId, name, queue⟩] else []) ∧
    ∀ call, (∀ queue value, ¬ Enqueues trace call queue value) →
      trace.filterMap (StoreEvent.toldBy call) ++ (u.owing call).toList = [] := by
  have hsound := sound_of_steps h
  refine ⟨fun queue => ⟨hsound.fifo queue, ?_⟩, ?_, hsound.silent⟩
  · unfold InMemoryStore.held
    cases hitems : u.store.queues.items[queue]? with
    | none => exact Nat.zero_le _
    | some items =>
      rw [← hsound.limits_eq]
      exact hsound.consistent.queues.depth queue items hitems
  · intro call queue value hcall
    obtain ⟨vmId, name, hregistered, hnotices⟩ := hsound.heard call queue value hcall
    refine ⟨vmId, name, fun vmId' name' => ⟨fun hother => ?_, ?_⟩, hnotices⟩
    · have hname := (hsound.registered vmId name queue).2 hregistered
      have hname' := (hsound.registered vmId' name' queue).2 hother
      have := hsound.consistent.queues.numbered.injective _ _ queue hname' hname
      exact Prod.mk.inj this
    · rintro ⟨rfl, rfl⟩
      exact hregistered

/-- A guest registers a queue and puts two items on it; another takes the first before the
    observer hears of the second. -/
def exchanged : List StoreEvent :=
  [.answered 0 (.registerSharedQueue [1] [2]) (.ok (.queue .min)),
    .answered 1 (.enqueueSharedQueue .min [7]) (.ok .done), .told 1 ⟨[1], [2], .min⟩,
    .answered 2 (.enqueueSharedQueue .min [8]) (.ok .done),
    .answered 3 (.dequeueSharedQueue .min) (.ok (.bytes [7])), .told 2 ⟨[1], [2], .min⟩]

theorem queues_in_use_exchanged : ∃ u, Steps Step (start .default true) exchanged u ∧
    u.store.held .min = [[8]] ∧
    (∀ call, call = 1 ∨ call = 2 →
      exchanged.filterMap (StoreEvent.toldBy call) ++ (u.owing call).toList =
        [⟨[1], [2], .min⟩]) ∧
    exchanged.filterMap (StoreEvent.toldBy 3) ++ (u.owing 3).toList = [] := by
  obtain ⟨u, hsteps⟩ : ∃ u, Steps Step (start .default true) exchanged u :=
    ⟨_, .cons (Step.call (start .default true) (.registerSharedQueue [1] [2]))
      (.cons (Step.call _ (.enqueueSharedQueue .min [7]))
        (.cons (Step.tell rfl)
          (.cons (Step.call _ (.enqueueSharedQueue .min [8]))
            (.cons (Step.call _ (.dequeueSharedQueue .min)) (.single (Step.tell rfl))))))⟩
  obtain ⟨hfifo, hheard, hsilent⟩ := queues_in_use .default true exchanged u hsteps
  refine ⟨u, hsteps, ?_, ?_, hsilent 3 ?_⟩
  · exact (List.cons.inj (hfifo .min).1).2.symm
  · intro call hcall
    obtain ⟨value, henqueues⟩ : ∃ value, Enqueues exchanged call .min value := by
      rcases hcall with rfl | rfl
      · exact ⟨[7], .done, by simp [exchanged]⟩
      · exact ⟨[8], .done, by simp [exchanged]⟩
    obtain ⟨vmId, name, hregistered, hnotices⟩ := hheard call .min value henqueues
    obtain ⟨rfl, rfl⟩ := (hregistered [1] [2]).1 ⟨0, .head _⟩
    exact hnotices
  · rintro queue value ⟨reply, hmem⟩
    simp [exchanged] at hmem

end InUse

end ProxyWasmHost
