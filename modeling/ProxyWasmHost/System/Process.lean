/-
  Several guests of one process over the shared services they have in common.

  The guests run at the same time, and each call of the store takes its lock once, so what
  happens in the process is what happens to each guest in its own order, in any interleaving,
  with a store that answers every call in the state that the calls before it left.
-/
import ProxyWasmHost.Guest.Grants
import ProxyWasmHost.Guest.Limited
import ProxyWasmHost.Lib.Scan
import ProxyWasmHost.Store.Isolation

namespace ProxyWasmHost

open InMemoryStore

/-- One thing that happens in a process. -/
inductive Occurrence where
  | guest (id : GuestId) (event : Event)
  /-- The embedder calls the store itself, in its observer for example. -/
  | embedder (op : SharedOp) (reply : Except Status SharedReply)

/-- The store gives an answer to a call: its own, or none when the observer panics, which is told
    of an item once the queue has it. -/
def InMemoryStore.Gives (s : InMemoryStore) (op : SharedOp)
    (answer : Answer (Except Status SharedReply)) : Prop :=
  answer = some (s.answer op).1 ∨ answer = none ∧ (s.owes op).isSome

instance (s : InMemoryStore) (op : SharedOp) (answer : Answer (Except Status SharedReply)) :
    Decidable (s.Gives op answer) :=
  inferInstanceAs (Decidable (answer = some (s.answer op).1 ∨ answer = none ∧ (s.owes op).isSome))

namespace Occurrence

/-- What happens to the guest `id`. -/
def ofGuest (id : GuestId) : Occurrence → Option Event
  | .guest id' event => if id' = id then some event else none
  | .embedder _ _ => none

theorem ofGuest_eq_some {id : GuestId} {event : Event} {o : Occurrence} :
    o.ofGuest id = some event ↔ o = .guest id event := by
  cases o with
  | guest id' event' => simp [ofGuest]
  | embedder => simp [ofGuest]

/-- The call of the shared service `service`, with what was answered. -/
def asked (service : ServiceId) :
    Occurrence → Option (SharedOp × Answer (Except Status SharedReply))
  | .guest _ (.shared asked _ op answer _) => if asked = service then some (op, answer) else none
  | .guest _ _ => none
  | .embedder op reply => some (op, some reply)

def asks (service : ServiceId) (o : Occurrence) : Option SharedOp := (o.asked service).map (·.1)

/-- What is answered is what the store gives. -/
def Fits (service : ServiceId) (s : InMemoryStore) (o : Occurrence) : Prop :=
  ∀ call ∈ o.asked service, s.Gives call.1 call.2

instance (service : ServiceId) (s : InMemoryStore) (o : Occurrence) :
    Decidable (o.Fits service s) :=
  inferInstanceAs (Decidable (∀ call ∈ o.asked service, s.Gives call.1 call.2))

/-- The store after an occurrence. -/
def act (service : ServiceId) (s : InMemoryStore) (o : Occurrence) : InMemoryStore :=
  (o.asks service).elim s fun op => (s.answer op).2

/-- Only one event of a guest asks a service something. -/
theorem of_asks {service : ServiceId} {id : GuestId} {event : Event} {op : SharedOp}
    (h : (guest id event).asks service = some op) :
    ∃ call answer abi, event = .shared service call op answer abi := by
  obtain ⟨call, hcall, rfl⟩ := Option.map_eq_some_iff.1 h
  cases event with
  | shared asked call op answer abi =>
    obtain ⟨rfl, heq⟩ := Option.ite_none_right_eq_some.1 hcall
    cases heq
    exact ⟨call, answer, abi, rfl⟩
  | _ => cases hcall

end Occurrence

/-- **A process**: its guests, which `GuestId::next` gives an identity each, and what happens in
    it. The store is the shared service `service`; any other service is not looked into. -/
structure Process where
  service : ServiceId
  limits : InMemoryStoreLimits
  observer : Bool
  runs : List Run
  distinct : (runs.map Run.guest).Nodup
  trace : List Occurrence
  known : ∀ id event, .guest id event ∈ trace → ∃ r ∈ runs, r.guest = id
  ordered : ∀ r ∈ runs, trace.filterMap (Occurrence.ofGuest r.guest) = r.trace
  answered : Scanned (Occurrence.act service) (Occurrence.Fits service) (.new limits observer) trace

namespace Process

variable (p : Process) {past rest : List Occurrence} {o : Occurrence} {id : GuestId}

/-- The store once `past` has happened. -/
def storeAfter (past : List Occurrence) : InMemoryStore :=
  past.foldl (Occurrence.act p.service) (.new p.limits p.observer)

/-! ## The store -/

theorem foldl_act (service : ServiceId) (s : InMemoryStore) (past : List Occurrence) :
    past.foldl (Occurrence.act service) s = s.after (past.filterMap (Occurrence.asks service)) := by
  induction past generalizing s with
  | nil => rfl
  | cons o past ih =>
    rw [List.foldl_cons, ih, List.filterMap_cons]
    unfold Occurrence.act
    cases o.asks service <;> rfl

theorem storeAfter_eq (past : List Occurrence) : p.storeAfter past =
    (new p.limits p.observer).after (past.filterMap (Occurrence.asks p.service)) :=
  foldl_act _ _ _

theorem consistent_storeAfter (past : List Occurrence) : (p.storeAfter past).Consistent := by
  rw [storeAfter_eq]
  exact consistent_after (consistent_new _ _) _

theorem storeAfter_append (past later : List Occurrence) : p.storeAfter (past ++ later) =
    (p.storeAfter past).after (later.filterMap (Occurrence.asks p.service)) := by
  unfold storeAfter
  rw [List.foldl_append, foldl_act p.service _ later]

theorem storeAfter_concat (past : List Occurrence) (o : Occurrence) :
    p.storeAfter (past ++ [o]) = Occurrence.act p.service (p.storeAfter past) o :=
  List.foldl_concat ..

/-- **An occurrence** leaves the store, or is one call of it. -/
theorem storeAfter_change (past : List Occurrence) (o : Occurrence) :
    p.storeAfter (past ++ [o]) = p.storeAfter past ∧ o.asks p.service = none ∨
      ∃ op, o.asks p.service = some op ∧ Change (p.storeAfter past) op
        ((p.storeAfter past).answer op).1 (p.storeAfter (past ++ [o])) := by
  rw [storeAfter_concat]
  unfold Occurrence.act
  cases hasks : o.asks p.service with
  | none => exact .inl ⟨rfl, rfl⟩
  | some op => exact .inr ⟨op, rfl, change_of_answer _ _⟩

/-! ## The guests -/

/-- What happens to a guest happens in its run. -/
theorem exists_run {event : Event} (ht : p.trace = past ++ .guest id event :: rest) :
    ∃ r ∈ p.runs, r.guest = id ∧ r.trace =
      past.filterMap (Occurrence.ofGuest id) ++ event ::
        rest.filterMap (Occurrence.ofGuest id) := by
  obtain ⟨r, hr, rfl⟩ := p.known id event (by rw [ht]; simp)
  refine ⟨r, hr, rfl, ?_⟩
  rw [← p.ordered r hr, ht, List.filterMap_append, List.filterMap_cons]
  simp [Occurrence.ofGuest]

theorem fits (ht : p.trace = past ++ o :: rest) : o.Fits p.service (p.storeAfter past) :=
  Scanned.fits (ht ▸ p.answered)

/-- An event of a guest is an occurrence of the process. -/
theorem exists_of_mem_ofGuest {event : Event} {before after : List Event}
    (h : past.filterMap (Occurrence.ofGuest id) = before ++ event :: after) :
    ∃ earlier later, past = earlier ++ .guest id event :: later ∧
      earlier.filterMap (Occurrence.ofGuest id) = before := by
  obtain ⟨earlier, others, rfl, hbefore, hothers⟩ := List.filterMap_eq_append_iff.1 h
  obtain ⟨silent, o, later, rfl, hsilent, ho, -⟩ := List.filterMap_eq_cons_iff.1 hothers
  obtain rfl := Occurrence.ofGuest_eq_some.1 ho
  refine ⟨earlier ++ silent, later, by rw [List.append_assoc], ?_⟩
  rw [List.filterMap_append, hbefore, List.filterMap_eq_nil_iff.2 hsilent, List.append_nil]

/-! ## Guests one after another -/

theorem ofGuest_map (id : GuestId) (r : Run) :
    (r.trace.map (Occurrence.guest r.guest)).filterMap (Occurrence.ofGuest id) =
      if r.guest = id then r.trace else [] := by
  rw [List.filterMap_map]
  split
  · rename_i hid
    subst hid
    simp [Function.comp_def, Occurrence.ofGuest]
  · rename_i hid
    simp [Function.comp_def, Occurrence.ofGuest, hid]

/-- What happens when guests run one after another. -/
def inTurn (runs : List Run) : List Occurrence :=
  runs.flatMap fun r => r.trace.map (.guest r.guest)

theorem ofGuest_inTurn {runs : List Run} (hdistinct : (runs.map Run.guest).Nodup) {r : Run}
    (hr : r ∈ runs) : (inTurn runs).filterMap (Occurrence.ofGuest r.guest) = r.trace := by
  have hnone : ∀ others : List Run, r.guest ∉ others.map Run.guest →
      (inTurn others).filterMap (Occurrence.ofGuest r.guest) = [] := by
    intro others hother
    rw [inTurn, List.filterMap_flatMap, List.flatMap_eq_nil_iff]
    intro r' hr'
    rw [ofGuest_map, if_neg]
    intro hsame
    exact hother (List.mem_map.2 ⟨r', hr', hsame⟩)
  induction runs with
  | nil => cases hr
  | cons first runs ih =>
    rw [List.map_cons, List.nodup_cons] at hdistinct
    rw [inTurn, List.flatMap_cons, List.filterMap_append, ofGuest_map]
    rcases List.mem_cons.1 hr with rfl | hr
    · rw [if_pos rfl]
      exact (congrArg (_ ++ ·) (hnone runs hdistinct.1)).trans (List.append_nil _)
    · have hother : first.guest ≠ r.guest := fun hsame =>
        hdistinct.1 (hsame ▸ List.mem_map_of_mem hr)
      rw [if_neg hother]
      exact ih hdistinct.2 hr

/-- The process in which guests run one after another. -/
def ofRuns (service : ServiceId) (limits : InMemoryStoreLimits) (runs : List Run)
    (distinct : (runs.map Run.guest).Nodup)
    (answered : Scanned (Occurrence.act service) (Occurrence.Fits service) (.new limits false)
      (inTurn runs)) : Process where
  service := service
  limits := limits
  observer := false
  runs := runs
  distinct := distinct
  trace := inTurn runs
  known id event h := by
    obtain ⟨r, hr, hmem⟩ := List.mem_flatMap.1 h
    obtain ⟨_, _, heq⟩ := List.mem_map.1 hmem
    cases heq
    exact ⟨r, hr, rfl⟩
  ordered _ hr := ofGuest_inTurn distinct hr
  answered := answered

end Process

/-- What a guest is answered when the store is its shared services and no observer panics. -/
def InMemoryStore.services (s : InMemoryStore) : SharedServices where
  getSharedData _ vmId key := some (s.getSharedData vmId key)
  setSharedData _ vmId key value cas := some (s.setSharedData vmId key value cas).1
  registerSharedQueue _ vmId name := some (s.registerSharedQueue vmId name).1
  resolveSharedQueue _ vmId name := some (s.resolveSharedQueue vmId name)
  enqueueSharedQueue _ queue value := some ((s.pushItem queue value).1.map fun _ => ())
  dequeueSharedQueue _ queue := some (s.dequeueSharedQueue queue).1
  defineMetric _ vmId kind name := some (s.defineMetric vmId kind name).1
  recordMetric _ metric value := some (s.recordMetric metric value).1
  incrementMetric _ metric delta := some (s.incrementMetric metric delta).1
  getMetric _ metric := some (s.getMetric metric)

/-! ## Two guests -/

namespace TwoGuests

/-- An embedder whose shared services are the store that some calls made. -/
def world (ops : List SharedOp) : World :=
  { World.refusing with shared := ((new .default false).after ops).services }

def registered : List SharedOp := [.registerSharedQueue [0] []]

def queued : List SharedOp := registered ++ [.enqueueSharedQueue .min [0, 0]]

/-- A guest of the VM `[0]` registers a queue and puts a value into it, sets a value, reads it,
    and replaces it. -/
def first : Run :=
  .of 1 .bare ⟨[], .info, [0], [], 1, 2⟩ (.atMost none)
    [.enter .noStream,
      .onContextCreate none (.calling (.proxyRegisterSharedQueue 0 0 0) (world []) 0),
      .onTick .min (.calling (.proxyEnqueueSharedQueue 1 0 2) (world registered) 0),
      .onTick .min (.calling (.proxySetSharedData 0 0 0 0 0) (world queued) 0),
      .onTick .min (.calling (.proxyGetSharedData 0 0 0 4 8)
        (world (queued ++ [.setSharedData [0] [] [] none])) 0),
      .onTick .min (.calling (.proxySetSharedData 0 0 0 1 1)
        (world (queued ++ [.setSharedData [0] [] [] none])) 0)]
    rfl (by decide)

/-- A guest of the VM `[7]` resolves the queue and takes the value. -/
def second : Run :=
  .of 2 .bare ⟨[], .info, [7], [], 1, 2⟩ (.atMost none)
    [.enter .noStream,
      .onContextCreate none (.calling (.proxyResolveSharedQueue 0 1 0 0 0) (world queued) 0),
      .onTick .min (.calling (.proxyDequeueSharedQueue 1 0 4) (world queued) 0)]
    rfl (by decide)

def both : Process := .ofRuns 1 .default [first, second] (by decide) (by decide)

end TwoGuests

end ProxyWasmHost
