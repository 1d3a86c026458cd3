/-
  The stream state that is lent lasts: no callback, no delivery and no check of a scope moves
  it, and every state they show has it.
-/
import ProxyWasmHost.CallScope.Stages
import ProxyWasmHost.Guest.Run
import ProxyWasmHost.Lib.Along

namespace ProxyWasmHost

open Prog Session Prologue

set_option synthInstance.maxSize 1000

/-- What is lent stays where it is, and every state that `t` shows has the same. -/
structure Session.Lasts (s : Session) (t : List Event) (s' : Session) : Prop where
  streamState : s'.abi.streamState = s.abi.streamState
  detached : s'.detached = s.detached
  lends : s'.scope.map (·.lends) = s.scope.map (·.lends)
  shown : ∀ e ∈ t, ∀ abi, e.snapshot = some abi → abi.streamState = s.abi.streamState

namespace Session.Lasts

variable {s s' s'' : Session} {t u : List Event} {h : HostState}

theorem trans (hfirst : s.Lasts t s') (hrest : s'.Lasts u s'') : s.Lasts (t ++ u) s'' where
  streamState := hrest.streamState.trans hfirst.streamState
  detached := hrest.detached.trans hfirst.detached
  lends := hrest.lends.trans hfirst.lends
  shown e he abi hshow := by
    rcases List.mem_append.1 he with he | he
    · exact hfirst.shown e he abi hshow
    · exact (hrest.shown e he abi hshow).trans hfirst.streamState

/-- A change that nothing shows. -/
theorem of_eq (hstream : s'.abi.streamState = s.abi.streamState) (hdetached : s'.detached = s.detached)
    (hlends : s'.scope.map (·.lends) = s.scope.map (·.lends)) : s.Lasts [] s' :=
  ⟨hstream, hdetached, hlends, by rintro e ⟨⟩⟩

/-- An event that shows the state it happens in, or none. -/
theorem cons {e : Event} (hrest : s.Lasts t s')
    (he : ∀ abi, e.snapshot = some abi → abi.streamState = s.abi.streamState) :
    s.Lasts (e :: t) s' := by
  refine ⟨hrest.streamState, hrest.detached, hrest.lends, fun e' he' => ?_⟩
  rcases List.mem_cons.1 he' with rfl | he'
  · exact he
  · exact hrest.shown e' he'

instance : Chain Session.Lasts := ⟨fun _ => .of_eq rfl rfl rfl, .trans⟩

/-- What the guest does in a callback. -/
theorem of_host (path : Steps HostStep s.host t h) : s.Lasts t { s with host := h } := by
  refine ⟨(HostKeeps.of_steps path).streamState, rfl, rfl, ?_⟩
  exact path.events (I := fun h => h.abi.streamState = s.abi.streamState)
    (P := fun e => ∀ abi, e.snapshot = some abi → abi.streamState = s.abi.streamState)
    (fun _ _ _ hsame step => (HostKeeps.of_step step).streamState.trans hsame)
    (fun _ _ _ hsame step e he abi hshow => by rw [step.snapshot he hshow]; exact hsame) rfl

end Session.Lasts

/-- **`m` leaves what is lent** where it is. -/
abbrev Lasting {ε α : Type} (m : Prog Session Event ε α) : Prop := Along Session.Lasts m

namespace Lasting

section Checks

variable {c : ContextId} {kind : StreamKind}

instance requireKnown : Quiet (Prologue.require c) := by unfold Prologue.require contexts; infer_instance

instance requireRoot : Quiet (Prologue.requireRoot c) := by
  unfold Prologue.requireRoot problem
  refine @Quiet.bind _ _ _ _ _ _ _ inferInstance fun type => ?_
  cases type <;> infer_instance

instance requireStream : Quiet (Prologue.requireStream c) := by
  unfold Prologue.requireStream problem
  refine @Quiet.bind _ _ _ _ _ _ _ inferInstance fun type => ?_
  cases type <;> infer_instance

instance requireDone : Quiet (Prologue.requireDone c) := by
  unfold Prologue.requireDone contexts
  infer_instance

instance requireDeletable : Quiet (Prologue.requireDeletable c) := by
  unfold Prologue.requireDeletable contexts
  infer_instance

instance requireStreamKind : Quiet (Prologue.requireStreamKind c kind) := by
  unfold Prologue.requireStreamKind contexts
  refine @Quiet.bind _ _ _ _ _ _ _ inferInstance fun table => ?_
  split <;> infer_instance

instance accepted : Quiet (Prologue.accepted c) := by
  unfold Prologue.accepted contexts
  refine @Quiet.bind _ _ _ _ _ _ _ inferInstance fun table => ?_
  split <;> infer_instance

instance vmAccepted : Quiet Prologue.vmAccepted := by
  unfold Prologue.vmAccepted contexts
  refine @Quiet.bind _ _ _ _ _ _ _ inferInstance fun table => ?_
  split <;> infer_instance

instance requireOpen {callout : CalloutId} {kinds : List CalloutKind} :
    Quiet (requireOpen c callout kinds) := by
  unfold ProxyWasmHost.requireOpen
  infer_instance

instance grpcAccepted {callout : CalloutId} : Quiet (grpcAccepted c callout) := by
  unfold ProxyWasmHost.grpcAccepted
  infer_instance

end Checks

/-! ## The pieces -/

section Pieces

variable {ε : Type} {c : ContextId} {callback : Callback} {params : List I32} {code : Code}
  {default : I32} {kind : StreamKind} {call : Delivered}

theorem mapAbi {u : AbiState → AbiState} (hu : ∀ abi, (u abi).streamState = abi.streamState) :
    Lasting (Prog.modify (·.mapAbi u) : Prog Session Event ε Unit) :=
  .modify fun s => .of_eq (hu s.abi) rfl rfl

instance mapContexts {u : ContextTable → ContextTable} :
    Lasting (Prog.modify (·.mapContexts u) : Prog Session Event ε Unit) := mapAbi fun _ => rfl

instance mapCallouts {u : CalloutTable → CalloutTable} :
    Lasting (Prog.modify (·.mapCallouts u) : Prog Session Event ε Unit) := mapAbi fun _ => rfl

/-- **A callback** leaves what is lent, whether it returns or not. -/
instance run : Lasting (Prologue.run c callback params code default) := by
  refine ⟨fun s => ?_⟩
  have hbegan : ∀ {t s'}, (s.running c callback).Lasts t s' →
      s.Lasts (s.beginning callback c params :: t) s' := by
    intro t s' hran
    refine Session.Lasts.cons ⟨hran.streamState, hran.detached, hran.lends, hran.shown⟩ ?_
    rintro abi ⟨⟩
    rfl
  have hperformed : ∀ {how t s'}, how.Tells callback c → s.Performed callback c params how t s' →
      s.Lasts t s' := by
    rintro how t s' htells ⟨inner, h, path, rfl, rfl⟩
    have hinner := Session.Lasts.of_host path
    refine hbegan (hinner.trans ?_)
    refine Session.Lasts.cons (Session.Lasts.cons (.of_eq rfl rfl rfl) ?_) ?_
    · intro abi hshow
      rw [htells.snapshot] at hshow
      cases hshow
    · rintro abi ⟨⟩
      rfl
  have hran : Leaves (Prologue.run c callback params code default) _ _ _ s := run_leaves s
  unfold Leaves at hran
  cases hexit : ((Prologue.run c callback params code default).run s).exit <;> rw [hexit] at hran
  · exact hperformed (.returned _) hran
  · exact hperformed .unwound hran
  · obtain ⟨inner, h, path, hstate, htrace⟩ := hran
    rw [hstate, htrace]
    exact hbegan (.of_host path)

instance requireLive : Lasting requireLive := by
  have hpoison : Lasting (Prog.modify (·.mapHost HostState.poison) : Method Unit) :=
    .modify fun s => .of_eq rfl rfl rfl
  unfold Prologue.requireLive
  infer_instance

/-- The choice of the stream that a scope serves is no change of what it lends. -/
instance requireServed : Lasting (requireServed c) := by
  have hserve : Lasting (Prog.modify fun s : Session =>
      { s with scope := s.scope.map fun scope => { scope with served := some c } } :
        Method Unit) := by
    refine .modify fun s => .of_eq rfl rfl ?_
    cases s.scope <;> rfl
  unfold ProxyWasmHost.requireServed
  refine .andThen fun scope => ?_
  dsimp only
  split <;> infer_instance

instance requireServedStream : Lasting (requireServedStream c) := by
  unfold ProxyWasmHost.requireServedStream contexts
  infer_instance

instance setAnnounced {announced : Option (BufferType × UInt32)} :
    Lasting (setAnnounced announced) := mapAbi fun _ => rfl

instance setDelivery {delivery : Option Delivery} : Lasting (setDelivery delivery) :=
  mapAbi fun _ => rfl

instance markDeleting {context : Option ContextId} : Lasting (markDeleting context) :=
  mapAbi fun _ => rfl

instance prepareStream : Lasting (prepareStream c kind) := by
  unfold ProxyWasmHost.prepareStream recordStreamKind
  infer_instance

instance streamAction {announced : Option (BufferType × UInt32)} :
    Lasting (streamAction c kind callback announced params code) := by
  unfold ProxyWasmHost.streamAction
  infer_instance

instance streamEvent : Lasting (streamEvent c callback params code) := by
  unfold ProxyWasmHost.streamEvent
  infer_instance

instance takeEnded : Lasting (takeEnded call) := by
  unfold ProxyWasmHost.takeEnded
  split
  · infer_instance
  · rename_i callout _
    have htake : ∀ entry, Lasting (Prog.act (fun _ => .ended callout entry)
        (·.mapCallouts (·.remove callout)) : Method Unit) := by
      refine fun entry => .act fun s => Session.Lasts.cons (.of_eq rfl rfl rfl) ?_
      rintro abi ⟨⟩
    infer_instance

/-- **A delivery** leaves what is lent. -/
instance deliver : Lasting (deliver call code) := by
  unfold ProxyWasmHost.deliver
  refine .andThen fun entry => ?_
  rcases entry with _ | ⟨callout, entry⟩ <;> infer_instance

instance deliverHttpResponse {callout : CalloutId} {response : HttpCallResponse} :
    Lasting (deliverHttpResponse c callout response code) := by
  unfold ProxyWasmHost.deliverHttpResponse
  infer_instance

instance deliverGrpcClose {callout : CalloutId} {status : GrpcStatus} :
    Lasting (deliverGrpcClose c callout status code) := by
  unfold ProxyWasmHost.deliverGrpcClose
  infer_instance

end Pieces

/-! ## The methods of a scope -/

section Methods

variable {c : ContextId} {code : Code}

instance onContextCreate {parent : Option ContextId} : Lasting (onContextCreate parent code) := by
  have hcreate : ∀ (id : ContextId) (table : ContextTable), Lasting
      (Prog.act (fun _ => .created id parent) (·.mapContexts fun _ => table) : Method Unit) := by
    refine fun id table => .act fun s => Session.Lasts.cons (.of_eq rfl rfl rfl) ?_
    rintro abi ⟨⟩
  unfold ProxyWasmHost.onContextCreate contexts
  refine .andThen fun _ => ?_
  cases parent <;> infer_instance

instance onVmStart : Lasting (onVmStart c code) := by
  unfold ProxyWasmHost.onVmStart
  dsimp only
  iterate 5 refine .andThen fun _ => ?_
  infer_instance

instance onConfigure {plugin : PluginConfig} : Lasting (onConfigure c plugin code) := by
  unfold ProxyWasmHost.onConfigure
  dsimp only
  iterate 5 refine .andThen fun _ => ?_
  infer_instance

instance expectStreamKind {kind : StreamKind} : Lasting (expectStreamKind c kind) := by
  unfold ProxyWasmHost.expectStreamKind recordStreamKind
  infer_instance

instance dropOpenCallouts : Lasting (dropOpenCallouts c) := by
  have hdrop : ∀ ids : List CalloutId, Lasting (Prog.act (fun _ => .dropped ids)
      (·.mapCallouts fun table => ids.foldl .remove table) : Method Unit) := by
    refine fun ids => .act fun s => Session.Lasts.cons (.of_eq rfl rfl rfl) ?_
    rintro abi ⟨⟩
  unfold ProxyWasmHost.dropOpenCallouts
  infer_instance

instance failEach {codes : CalloutId → Code} {callouts : List (CalloutId × CalloutKind)} :
    Lasting (failEach c codes callouts) := by
  induction callouts with
  | nil =>
    unfold ProxyWasmHost.failEach
    infer_instance
  | cons entry rest ih =>
    obtain ⟨callout, kind⟩ := entry
    unfold ProxyWasmHost.failEach
    refine .andThen fun entry => ?_
    cases entry with
    | none => exact ih
    | some entry => cases kind <;> infer_instance

instance failOpenCallouts {root : ContextId} {codes : CalloutId → Code} :
    Lasting (failOpenCallouts c root codes) := by
  unfold ProxyWasmHost.failOpenCallouts contexts
  infer_instance

instance removeContext {isRoot : Bool} : Lasting (removeContext c isRoot) := by
  refine .act fun s => Session.Lasts.cons (.of_eq ?_ rfl rfl) ?_
  · cases isRoot <;> rfl
  · rintro abi ⟨⟩
    rfl

instance delete {codes : CalloutId → Code} : Lasting (delete c codes code) := by
  unfold ProxyWasmHost.delete contexts
  refine .andThen fun table => ?_
  dsimp only
  cases table.parent c <;> infer_instance

instance onDelete {codes : CalloutId → Code} : Lasting (onDelete c codes code) := by
  unfold ProxyWasmHost.onDelete
  infer_instance

instance onDone : Lasting (onDone c code) := by
  unfold ProxyWasmHost.onDone
  iterate 4 refine .andThen fun _ => ?_
  infer_instance

instance onQueueReady {queue : QueueId} : Lasting (onQueueReady c queue code) := by
  unfold ProxyWasmHost.onQueueReady
  iterate 4 refine .andThen fun _ => ?_
  infer_instance

instance startRun {plugin : PluginConfig} {codes : StartCodes} :
    Lasting (startRun c plugin codes) := by
  have hstarted : Lasting (Prog.modify (·.mapAbi fun abi => { abi with vmStarted := true }) :
      Prog Session Event (Callback × GuestError) Unit) := mapAbi fun _ => rfl
  unfold ProxyWasmHost.startRun
  dsimp only
  infer_instance

end Methods

end Lasting

end ProxyWasmHost
