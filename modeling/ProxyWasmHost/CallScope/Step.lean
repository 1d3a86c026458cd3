/-
  What one call of the embedder can do to a guest, step by step.
-/
import ProxyWasmHost.CallScope.Finalize
import ProxyWasmHost.Context.WellFormed
import ProxyWasmHost.HostFunctions.Confined
import ProxyWasmHost.Guest.CodeRuns

namespace ProxyWasmHost

/-- What a call of the embedder is about, which decides what else it may do than run
    callbacks. -/
inductive Aim where
  | nothing
  | enter
  | leave
  | start (plugin : PluginConfig)
  | create (parent : Option ContextId)
  | vmStart
  | configure
  | done (context : ContextId)
  | delete (context : ContextId)
  | deliver (callout : CalloutId)
  | services
  | changes

/-- The family of a stream callback. -/
def Callback.family : Callback → Option StreamKind
  | .newConnection | .downstreamData | .downstreamConnectionClose | .upstreamData
  | .upstreamConnectionClose => some .tcp
  | .requestHeaders | .requestBody | .requestTrailers | .responseHeaders | .responseBody
  | .responseTrailers => some .http
  | _ => none

/-- The callbacks that run for a context whose root the guest refused. -/
def Callback.afterRefusal : Callback → Bool
  | .done | .log | .delete => true
  | _ => false

theorem Callback.family_of_afterRefusal {callback : Callback}
    (h : callback.afterRefusal = true) : callback.family = none := by
  cases callback <;> first | rfl | cases h

/-- The callbacks that a scope runs for one stream context only. -/
def Callback.ofOneStream (callback : Callback) : Bool :=
  callback.family.isSome || callback.afterRefusal

/-- Records a refused deletion or a removed context: a root leaves its queues too. -/
def AbiState.removeContext (abi : AbiState) (context : ContextId) (isRoot : Bool) : AbiState :=
  let abi := abi.withContexts (abi.contexts.remove context)
  if isRoot then abi.forgetRegistrant context else abi

/-- The scope serves no other stream context than `c`. -/
def Session.Serves (s : Session) (c : ContextId) : Prop :=
  ∀ scope, s.scope = some scope → scope.served = some c

/-- The session whose scope serves `c`. -/
def Session.serving (s : Session) (c : ContextId) : Session :=
  { s with scope := s.scope.map fun scope => { scope with served := some c } }

/-- No context holds a plugin with this root id. -/
def ContextTable.Unused (t : ContextTable) (rootId : Bytes) : Prop :=
  ∀ x entry plugin, t.get x = some entry → entry.plugin = some plugin → plugin.rootId ≠ rootId

/-- No context holds a plugin with this root id, and `root` holds no plugin at all. -/
structure ContextTable.Awaits (t : ContextTable) (root : ContextId) (rootId : Bytes) : Prop where
  unused : t.Unused rootId
  bare : ∀ entry, t.get root = some entry → entry.plugin = none

/-- What the host checked before it began a callback. -/
structure Session.MayBegin (s : Session) (aim : Aim) (callback : Callback) (c : ContextId) :
    Prop where
  idle : s.abi.currentCallback = none
  live : s.host.poisoned = false
  known : (s.abi.contexts.get c).isSome
  allowed : callback.afterRefusal = true ∨ s.abi.contexts.rejectionOf c = none
  belongs : ∀ id entry, s.abi.delivery.bind (·.callout) = some id →
    s.abi.callouts.get id = some entry → entry.root = c
  family : ∀ kind, callback.family = some kind → s.abi.contexts.contextType c = some .stream ∧
    s.abi.contexts.streamKind c = some kind
  served : callback.ofOneStream = true → s.abi.contexts.contextType c = some .stream →
    s.Serves c
  vmStart : callback = .vmStart → aim = .vmStart ∨
    (∃ plugin, aim = .start plugin) ∧ s.abi.vmStarted = false

/-- The state in which a callback runs. -/
def Session.running (s : Session) (c : ContextId) (callback : Callback) : Session :=
  s.mapAbi fun abi => { abi with
    contexts := (abi.contexts.setEffective c).2, currentCallback := some callback }

/-- **One step of a guest** in a call of the embedder with the given aim. A context
    enters and leaves the table, a callback begins and a callout leaves the table only
    while no callback runs and the guest is not poisoned. -/
inductive Session.Step (aim : Aim) : Session → List Event → Session → Prop
  | host {s : Session} {t : List Event} {h : HostState}
      (running : s.abi.currentCallback.isSome ∨ s.abi.contexts = .new)
      (step : HostStep s.host t h) : Step aim s t { s with host := h }
  | began {s : Session} {callback : Callback} {c : ContextId} (params : List I32)
      (may : s.MayBegin aim callback c) :
      Step aim s
        [.began callback c (s.abi.delivery.bind (·.callout)) params (s.exports callback) s.abi]
        (s.running c callback)
  | finished {s : Session} (running : s.abi.currentCallback.isSome) :
      Step aim s [.finished s.abi] (s.mapAbi fun abi => { abi with currentCallback := none })
  | returned {s : Session} {callback : Callback} (c : ContextId) (value : I32)
      (aimed : callback = .vmStart → aim = .vmStart ∨ ∃ plugin, aim = .start plugin) :
      Step aim s [.returned callback c value] s
  | unwound {s : Session} (callback : Callback) (c : ContextId)
      (poisoned : s.host.poisoned = true) : Step aim s [.unwound callback c] s
  | poison (s : Session) : Step aim s [] (s.mapHost .poison)
  | abandoned (s : Session) (aimed : aim = .leave ∨ ∃ plugin, aim = .start plugin) :
      Step aim s [] ((s.mapHost .poison).mapAbi fun abi => { abi with currentCallback := none })
  -- The contexts.
  | created {s : Session} {parent : Option ContextId} {id : ContextId} {table : ContextTable}
      (aimed : aim = .create parent ∨ (∃ plugin, aim = .start plugin) ∧ parent = none)
      (idle : s.abi.currentCallback = none) (live : s.host.poisoned = false)
      (vm : s.abi.contexts.vmRejected = none)
      (accepted : ∀ p, parent = some p → s.abi.contexts.rejectionOf p = none)
      (create : s.abi.contexts.create parent = .ok (id, table)) :
      Step aim s [.created id parent] (s.mapContexts fun _ => table)
  | streamKind {s : Session} {c : ContextId} {kind : StreamKind}
      (stream : s.abi.contexts.contextType c = some .stream)
      (agrees : ∀ recorded, s.abi.contexts.streamKind c = some recorded → recorded = kind) :
      Step aim s [] (s.mapContexts (·.setStreamKind c kind))
  | state (s : Session) {c : ContextId} (state : ContextState) (aimed : aim = .done c) :
      Step aim s [] (s.mapContexts (·.setState c state))
  | plugin (s : Session) (root : ContextId) (plugin : PluginConfig)
      (aimed : aim = .configure ∨
        aim = .start plugin ∧ s.abi.contexts.Awaits root plugin.rootId) :
      Step aim s [] (s.mapContexts (·.setPlugin root plugin))
  | rejected (s : Session) (root : ContextId)
      (aimed : aim = .configure ∨ ∃ plugin, aim = .start plugin) :
      Step aim s [] (s.mapContexts (·.reject root))
  | rejectedVm (s : Session) (root : ContextId)
      (aimed : aim = .vmStart ∨ ∃ plugin, aim = .start plugin) :
      Step aim s [] (s.mapContexts (·.rejectVm root))
  | started (s : Session) (aimed : ∃ plugin, aim = .start plugin) :
      Step aim s [] (s.mapAbi fun abi => { abi with vmStarted := true })
  -- The callouts, and the deletion of a context.
  | ended {s : Session} {id : CalloutId} (idle : s.abi.currentCallback = none)
      (live : s.host.poisoned = false)
      (aimed : aim = .deliver id ∨ ∃ c, aim = .delete c)
      (accepted : ∀ entry, s.abi.callouts.get id = some entry →
        s.abi.contexts.rejectionOf entry.root = none) :
      Step aim s [.ended id (s.abi.callouts.get id)] (s.mapCallouts (·.remove id))
  | reentered {s : Session} (id : CalloutId) (entry : Callout)
      (poisoned : s.host.poisoned = true) : Step aim s [] (s.mapCallouts (·.enter id entry))
  | marked {s : Session} {c : ContextId} (aimed : aim = .delete c)
      (unmarked : s.abi.deleting = none) :
      Step aim s [] (s.mapAbi fun abi => { abi with deleting := some c })
  | unmarked {s : Session} {c : ContextId} (aimed : aim = .delete c)
      (empty : s.host.poisoned = true ∨ s.abi.deleting = some c ∧
        ∀ id entry, s.abi.callouts.get id = some entry → entry.caller ≠ c) :
      Step aim s [] (s.mapAbi fun abi => { abi with deleting := none })
  | deleted {s : Session} {c : ContextId} {isRoot : Bool} (aimed : aim = .delete c)
      (idle : s.abi.currentCallback = none) (live : s.host.poisoned = false)
      (mark : s.abi.deleting = some c) (known : (s.abi.contexts.get c).isSome)
      (root : isRoot = (s.abi.contexts.parent c).isNone)
      (children : s.abi.contexts.hasChildren c = false) :
      Step aim s [.deleted c s.abi] (s.mapAbi (·.removeContext c isRoot))
  | dropped {s : Session} {c : ContextId} (aimed : aim = .delete c)
      (idle : s.abi.currentCallback = none) (live : s.host.poisoned = false) :
      Step aim s [.dropped ((s.abi.callouts.madeBy c).map (·.1))]
        (s.mapCallouts fun table => ((table.madeBy c).map (·.1)).foldl .remove table)
  -- What a scope and a delivery lend.
  | served (s : Session) (c : ContextId)
      (other : ∀ scope lent, s.scope = some scope → scope.served = some lent → lent = c) :
      Step aim s [] (s.serving c)
  | announced (s : Session) (announced : Option (BufferType × UInt32)) :
      Step aim s [] (s.mapAbi fun abi => { abi with announced })
  | delivery (s : Session) (delivery : Option Delivery) :
      Step aim s [] (s.mapAbi fun abi => { abi with delivery })
  | entered (s : Session) (stream : Lent)
      (aimed : aim = .enter ∨ ∃ plugin, aim = .start plugin) :
      Step aim s [] { s.mapAbi fun abi => { abi with streamState := some stream } with
        detached := none, scope := some ⟨none, stream.type⟩ }
  | left (s : Session) (streamState detached : Option Lent)
      (aimed : aim = .leave ∨ ∃ plugin, aim = .start plugin) :
      Step aim s [] { s.mapAbi fun abi => { abi with streamState } with
        detached, scope := none }
  | detached (s : Session) (detached : Option Lent) : Step aim s [] { s with detached }
  -- What the embedder sets and takes.
  | services (s : Session) (services : VmServices) (aimed : aim = .services) :
      Step aim s [] (s.mapAbi fun abi => { abi with services })
  | changes (s : Session) (aimed : aim = .changes) :
      Step aim s [] (s.mapAbi fun abi => { abi with changes := .none })

/-! ## What host functions leave alone -/

/-- What no host function changes of the state. -/
structure HostKeeps (h h' : HostState) : Prop where
  limits : h'.limits = h.limits
  guest : h'.abi.guest = h.abi.guest
  services : h'.abi.services = h.abi.services
  streamState : h'.abi.streamState = h.abi.streamState
  currentCallback : h'.abi.currentCallback = h.abi.currentCallback
  vmStarted : h'.abi.vmStarted = h.abi.vmStarted
  deleting : h'.abi.deleting = h.abi.deleting
  delivery : h'.abi.delivery = h.abi.delivery
  contexts : h.abi.contexts.Keeps h'.abi.contexts

namespace HostKeeps

variable {h h' h'' : HostState} {t : List Event}

theorem refl (h : HostState) : HostKeeps h h := ⟨rfl, rfl, rfl, rfl, rfl, rfl, rfl, rfl, .refl _⟩

theorem trans (k : HostKeeps h h') (k' : HostKeeps h' h'') : HostKeeps h h'' :=
  ⟨k'.limits.trans k.limits, k'.guest.trans k.guest, k'.services.trans k.services,
    k'.streamState.trans k.streamState, k'.currentCallback.trans k.currentCallback,
    k'.vmStarted.trans k.vmStarted, k'.deleting.trans k.deleting,
    k'.delivery.trans k.delivery, k.contexts.trans k'.contexts⟩

theorem settle (h : HostState) : HostKeeps h (h.mapAbi AbiState.settle) := by
  unfold HostState.mapAbi AbiState.settle
  dsimp only
  split
  · exact refl h
  · exact ⟨rfl, rfl, rfl, rfl, rfl, rfl, rfl, rfl, .refl _⟩

theorem recordShared (h : HostState) (c : ContextId) (op : SharedOp)
    (answer : Answer (Except Status SharedReply)) :
    HostKeeps h (h.mapAbi fun abi => abi.recordShared c op answer) := by
  unfold HostState.mapAbi AbiState.recordShared
  dsimp only
  split
  · unfold recordRegistered
    dsimp only
    split
    · unfold AbiState.registerQueue
      split <;> exact ⟨rfl, rfl, rfl, rfl, rfl, rfl, rfl, rfl, .refl _⟩
    · exact ⟨rfl, rfl, rfl, rfl, rfl, rfl, rfl, rfl, .refl _⟩
  · exact ⟨rfl, rfl, rfl, rfl, rfl, rfl, rfl, rfl, .refl _⟩
  · exact ⟨rfl, rfl, rfl, rfl, rfl, rfl, rfl, rfl, .refl _⟩
  · exact refl h

theorem takeAnnounced (h : HostState) (buffer : BufferType) :
    HostKeeps h (h.mapAbi fun abi => (abi.takeAnnounced buffer).2) := by
  obtain ⟨announced, heq⟩ := h.abi.takeAnnounced_eq buffer
  unfold HostState.mapAbi
  dsimp only
  rw [heq]
  exact ⟨rfl, rfl, rfl, rfl, rfl, rfl, rfl, rfl, .refl _⟩

theorem of_step (step : HostStep h t h') : HostKeeps h h' := by
  cases step with
  | called | logged | stream => exact refl _
  | memory => exact ⟨rfl, rfl, rfl, rfl, rfl, rfl, rfl, rfl, .refl _⟩
  | poison => exact ⟨rfl, rfl, rfl, rfl, rfl, rfl, rfl, rfl, .refl _⟩
  | announced => exact takeAnnounced h _
  | done => exact ⟨rfl, rfl, rfl, rfl, rfl, rfl, rfl, rfl, .done _⟩
  | setEffective => exact ⟨rfl, rfl, rfl, rfl, rfl, rfl, rfl, rfl, .setEffective _ _⟩
  | tickPeriod => exact ⟨rfl, rfl, rfl, rfl, rfl, rfl, rfl, rfl, .setTickPeriod _ _ _⟩
  | settled => exact settle h
  | shared => exact recordShared h _ _ _
  | opened => exact ⟨rfl, rfl, rfl, rfl, rfl, rfl, rfl, rfl, .refl _⟩
  | sent => exact ⟨rfl, rfl, rfl, rfl, rfl, rfl, rfl, rfl, .refl _⟩
  | cancelled => exact ⟨rfl, rfl, rfl, rfl, rfl, rfl, rfl, rfl, .refl _⟩
  | closed => exact ⟨rfl, rfl, rfl, rfl, rfl, rfl, rfl, rfl, .refl _⟩

theorem of_steps (path : Steps HostStep h t h') : HostKeeps h h' :=
  path.relation (R := fun h _ h' => HostKeeps h h') refl (fun _ _ _ _ _ => trans)
    fun _ _ _ => of_step

end HostKeeps

/-! ## What every step leaves alone -/

/-- An event shows the state it happens in. -/
theorem HostStep.snapshot {h h' : HostState} {t : List Event} (step : HostStep h t h') {e : Event}
    (he : e ∈ t) {abi : AbiState} (hshow : e.snapshot = some abi) : abi = h.abi := by
  cases step <;> simp only [List.not_mem_nil, List.mem_singleton] at he <;> subst he <;>
    first | (cases hshow; rfl) | cases hshow

namespace Session.Step

variable {aim : Aim} {s s' : Session} {t : List Event}

theorem snapshot (step : s.Step aim t s') {e : Event} (he : e ∈ t) {abi : AbiState}
    (hshow : e.snapshot = some abi) : abi = s.abi := by
  cases step with
  | host running step => exact step.snapshot he hshow
  | began | finished | deleted =>
    rw [List.mem_singleton] at he
    subst he
    cases hshow
    rfl
  | returned | unwound | created | ended | dropped =>
    rw [List.mem_singleton] at he
    subst he
    cases hshow
  | _ => cases he

theorem limits (step : s.Step aim t s') : s'.host.limits = s.host.limits := by
  cases step with
  | host running step => exact (HostKeeps.of_step step).limits
  | _ => rfl

end Session.Step

/-- A step of a host function shows one event at most. -/
theorem HostStep.one {h h' : HostState} {t : List Event} (step : HostStep h t h') :
    t = [] ∨ ∃ e, t = [e] := by
  cases step <;> first | exact .inl rfl | exact .inr ⟨_, rfl⟩

theorem Session.Step.one {s s' : Session} {aim : Aim} {t : List Event} (step : s.Step aim t s') :
    t = [] ∨ ∃ e, t = [e] := by
  cases step with
  | host running step => exact step.one
  | _ => first | exact .inl rfl | exact .inr ⟨_, rfl⟩

/-- A host function begins no callback. -/
theorem HostStep.begun {h h' : HostState} {t : List Event} (step : HostStep h t h') {e : Event}
    (he : e ∈ t) : e.begun = none := by
  cases step <;> simp only [List.not_mem_nil, List.mem_singleton] at he <;> subst he <;> rfl

/-- A callback begins in the state its event shows, after the checks of the host. -/
theorem Session.Step.begun {s s' : Session} {aim : Aim} {t : List Event} (step : s.Step aim t s')
    {e : Event} (he : e ∈ t) {callback : Callback} {c : ContextId} {abi : AbiState}
    (hbegun : e.begun = some (callback, c, abi)) :
    abi = s.abi ∧ s.MayBegin aim callback c ∧ s' = s.running c callback := by
  cases step with
  | host running step => rw [step.begun he] at hbegun; cases hbegun
  | began params may =>
    rw [List.mem_singleton] at he
    subst he
    cases hbegun
    exact ⟨rfl, may, rfl⟩
  | finished | returned | unwound | created | ended | deleted | dropped =>
    rw [List.mem_singleton] at he
    subst he
    cases hbegun
  | _ => cases he

end ProxyWasmHost
