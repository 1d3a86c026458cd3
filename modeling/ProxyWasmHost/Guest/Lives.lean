/-
  Whatever the embedder calls, every context lives its life: each method follows it, from
  whatever state it runs in, and so does every run.
-/
import ProxyWasmHost.Guest.Acknowledged
import ProxyWasmHost.Guest.Lasting
import ProxyWasmHost.Guest.Life

namespace ProxyWasmHost

open Prog Session Prologue

variable {s s' : Session} {c id : ContextId} {kind : StreamKind} {callback : Callback}
  {params : List I32} {code : Code} {default : I32} {ε α β : Type}

set_option synthInstance.maxSize 1000

/-- A callback that is no part of the life of its context. -/
def Callback.ordinary : Callback → Bool
  | .contextCreate | .done | .log | .delete => false
  | _ => true

theorem Callback.ofDone_of_ordinary (h : callback.ordinary = true) : callback.ofDone = false := by
  cases callback <;> first | rfl | cases h

/-! ## Deliveries -/

/-- A relation that the pieces of a delivery stay in. -/
structure Delivering (R : Session → List Event → Session → Prop) : Prop where
  callouts : ∀ u, Along R (Prog.modify (·.mapCallouts u) : Method Unit)
  delivery : ∀ delivery, Along R (setDelivery delivery)
  ended : ∀ callout entry, Along R (Prog.act (fun _ => .ended callout entry)
    (·.mapCallouts (·.remove callout)) : Method Unit)
  dropped : ∀ ids : List CalloutId, Along R (Prog.act (fun _ => .dropped ids)
    (·.mapCallouts fun table => ids.foldl .remove table) : Method Unit)
  run : ∀ id callback params code, callback.delivers = true →
    Along R (Prologue.run id callback params code 0)

namespace Delivering

variable {R : Session → List Event → Session → Prop} [Chain R]

theorem takeEnded (hR : Delivering R) {call : Delivered} : Along R (takeEnded call) := by
  have hended := hR.ended
  unfold ProxyWasmHost.takeEnded
  cases if call.ends then call.callout else none <;> infer_instance

theorem deliver (hR : Delivering R) {call : Delivered} (hcallback : call.callback.delivers = true) :
    Along R (deliver call code) := by
  have htake : Along R (ProxyWasmHost.takeEnded call) := hR.takeEnded
  have hrun := hR.run call.context call.callback call.params code hcallback
  have hdelivery := hR.delivery
  have hcallouts := hR.callouts
  unfold ProxyWasmHost.deliver
  refine .andThen fun entry => ?_
  rcases entry with _ | ⟨callout, entry⟩ <;> infer_instance

theorem httpResponse (hR : Delivering R) {callout : CalloutId} {response : HttpCallResponse} :
    Along R (deliverHttpResponse id callout response code) := by
  unfold deliverHttpResponse
  exact .andThen fun _ => .andThen fun _ => .andThen fun _ => hR.deliver rfl

theorem grpcClose (hR : Delivering R) {callout : CalloutId} {status : GrpcStatus} :
    Along R (deliverGrpcClose id callout status code) := by
  unfold deliverGrpcClose
  exact .andThen fun _ => hR.deliver rfl

theorem dropOpenCallouts (hR : Delivering R) : Along R (dropOpenCallouts id) := by
  have hdropped := hR.dropped
  unfold ProxyWasmHost.dropOpenCallouts
  infer_instance

/-- The callouts that are open, one after another. -/
theorem failEach (hR : Delivering R) {codes : CalloutId → Code}
    {callouts : List (CalloutId × CalloutKind)} : Along R (failEach id codes callouts) := by
  induction callouts with
  | nil =>
    unfold ProxyWasmHost.failEach
    infer_instance
  | cons entry rest ih =>
    obtain ⟨callout, kind⟩ := entry
    have hhttp : Along R (deliverHttpResponse id callout .failed (codes callout)) :=
      hR.httpResponse
    have hgrpc : Along R (deliverGrpcClose id callout ⟨cancelled, []⟩ (codes callout)) :=
      hR.grpcClose
    unfold ProxyWasmHost.failEach
    refine .andThen fun entry => ?_
    cases entry with
    | none => exact ih
    | some entry => cases kind <;> infer_instance

theorem failOpenCallouts (hR : Delivering R) {root : ContextId} {codes : CalloutId → Code} :
    Along R (failOpenCallouts id root codes) := by
  have hdrop : Along R (ProxyWasmHost.dropOpenCallouts id) := hR.dropOpenCallouts
  have hfail : ∀ callouts, Along R (ProxyWasmHost.failEach root codes callouts) :=
    fun _ => hR.failEach
  unfold ProxyWasmHost.failOpenCallouts contexts
  infer_instance

end Delivering

/-! ## A context that is done -/

/-- A context that is done stays so. -/
def Session.Remains (c : ContextId) (s : Session) (_ : List Event) (s' : Session) : Prop :=
  s.abi.contexts.state c = some .done → s'.abi.contexts.state c = some .done

instance : Chain (Session.Remains c) := ⟨fun _ h => h, fun first second h => second (first h)⟩

theorem ContextTable.state_eq_done {table : ContextTable} :
    table.state c = some .done ↔ (table.get c).isSome ∧ table.Ended c := by
  unfold ContextTable.state ContextTable.Ended
  cases table.get c <;> simp

theorem HostStep.remains {h h' : HostState} {t : List Event} (step : HostStep h t h')
    (hdone : h.abi.contexts.state c = some .done) : h'.abi.contexts.state c = some .done := by
  obtain ⟨hknown, hended⟩ := ContextTable.state_eq_done.1 hdone
  refine ContextTable.state_eq_done.2 ⟨?_, ?_⟩
  · rwa [(HostKeeps.of_step step).contexts.isSome]
  · rcases step.contexts_eq with heq | heq | ⟨id, heq⟩ | ⟨id, period, heq⟩ <;> rw [heq]
    · exact hended
    · exact hended.done
    · exact hended.setEffective
    · exact hended.setTickPeriod period

/-- What the guest does in a callback that begins. -/
theorem remains_inner {inner : List Event} {h : HostState}
    (path : Steps HostStep (s.running id callback).host inner h)
    (hdone : s.abi.contexts.state c = some .done) : h.abi.contexts.state c = some .done := by
  refine path.invariant (I := fun h => h.abi.contexts.state c = some .done)
    (fun _ _ _ hdone step => step.remains hdone) ?_
  show (s.abi.contexts.setEffective id).2.state c = some .done
  unfold ContextTable.state
  rwa [ContextTable.get_setEffective]

theorem Session.Performed.remains {how : Event} {t : List Event}
    (ran : s.Performed callback id params how t s') : s.Remains c t s' := by
  obtain ⟨inner, h, path, rfl, rfl⟩ := ran
  intro hdone
  have hstill := remains_inner path hdone
  exact hstill

theorem Session.Stuck.remains {t : List Event} (ran : s.Stuck callback id params t s') :
    s.Remains c t s' := by
  obtain ⟨inner, h, path, rfl, rfl⟩ := ran
  exact remains_inner path

theorem Session.Remains.delivering : Delivering (Session.Remains c) where
  callouts _ := .modify fun _ h => h
  delivery _ := .modify fun _ h => h
  ended _ _ := .act fun _ h => h
  dropped _ := .act fun _ h => h
  run _ _ _ _ _ := .of_from fun s => .of_leaves <| (run_leaves s).mono
    (fun _ _ _ ran => ran.remains) (fun _ _ _ ran => ran.remains) fun _ _ ran => ran.remains

namespace Follow

/-! ## The pieces -/

instance requireLive : Along (Follow c) requireLive := by
  have hpoison : Along (Follow c) (Prog.modify (·.mapHost HostState.poison) : Method Unit) :=
    .modify fun _ => .of_eq rfl
  unfold Prologue.requireLive
  infer_instance

/-- A change of the table that moves no context in its life. -/
theorem mapContexts {u : ContextTable → ContextTable}
    (h : ∀ table l, table.Refines c l → (u table).Refines c l) :
    Along (Follow c) (Prog.modify (·.mapContexts u) : Prog Session Event ε Unit) :=
  .modify fun _ _ l hl => ⟨trivial, h _ l hl⟩

instance recordStreamKind : Along (Follow c) (recordStreamKind id kind) :=
  mapContexts fun _ _ hl => hl.modify fun _ => rfl

instance requireServed : Along (Follow c) (requireServed id) := by
  have hserve : Along (Follow c) (Prog.modify fun s : Session =>
      { s with scope := s.scope.map fun scope => { scope with served := some id } } :
        Method Unit) := .modify fun _ => .of_eq rfl
  unfold ProxyWasmHost.requireServed
  refine .andThen fun scope => ?_
  split <;> infer_instance

instance requireServedStream : Along (Follow c) (requireServedStream id) := by
  unfold ProxyWasmHost.requireServedStream contexts
  infer_instance

instance setAnnounced {announced : Option (BufferType × UInt32)} :
    Along (Follow c) (setAnnounced announced) := .modify fun _ => .of_eq rfl

instance markDeleting {mark : Option ContextId} : Along (Follow c) (markDeleting mark) :=
  .modify fun _ => .of_eq rfl

/-- An event that is about no context. -/
theorem act_quiet {e : Session → Event} {u : Session → Session}
    (hquiet : ∀ s, (e s).Quiet) (hu : ∀ s, (u s).abi.contexts = s.abi.contexts) :
    Along (Follow c) (Prog.act e u : Prog Session Event ε Unit) := by
  refine .act fun s _ l hl => ?_
  obtain ⟨hsuits, hstill⟩ := hl.suits_quiet (hquiet s)
  refine ⟨⟨hsuits, trivial⟩, ?_⟩
  rw [List.foldl_cons, hstill, hu]
  exact hl

/-! ## Callbacks -/

/-- A callback that its context may have, and that leaves it where it is. -/
theorem run_from (hmay : id = c → callback.May (s.abi.contexts.state id))
    (hdone : callback ≠ .done) (hdelete : callback ≠ .delete) :
    AlongFrom (Follow c) (Prologue.run id callback params code default) s := by
  have hover : ∀ {how t s'}, how.Tells callback id → s.Performed callback id params how t s' →
      Follow c s t s' := by
    intro how t s' htells hran hknown l hl
    obtain ⟨l₁, halive, hlast, hl₁, -⟩ := alive_performed hran htells hmay hknown hl
    rw [htells.lives_eq hdone hdelete] at hlast
    exact ⟨halive, hlast ▸ hl₁⟩
  have hran : Leaves (Prologue.run id callback params code default) _ _ _ s := run_leaves s
  unfold Leaves at hran
  unfold AlongFrom
  cases hexit : ((Prologue.run id callback params code default).run s).exit <;> rw [hexit] at hran
  · exact hover (.returned _) hran
  · exact hover .unwound hran
  · exact alive_stuck hran hmay

/-- **An ordinary callback** runs in any state. -/
theorem run (hcallback : callback.ordinary = true) :
    Along (Follow c) (Prologue.run id callback params code default) := by
  refine ⟨fun s => run_from (fun _ => ⟨?_, fun hdone => ?_⟩) ?_ ?_⟩
  · rintro rfl
    cases hcallback
  · cases hdone.symm.trans (Callback.ofDone_of_ordinary hcallback)
  · rintro rfl
    cases hcallback
  · rintro rfl
    cases hcallback

theorem delivering : Delivering (Follow c) where
  callouts _ := .modify fun _ => .of_eq rfl
  delivery _ := .modify fun _ => .of_eq rfl
  ended _ _ := act_quiet (fun _ => trivial) fun _ => rfl
  dropped _ := act_quiet (fun _ => trivial) fun _ => rfl
  run _ callback _ _ hcallback := run (by cases callback <;> first | rfl | cases hcallback)

/-! ## The methods of a stream -/

instance prepareStream : Along (Follow c) (prepareStream id kind) := by
  unfold ProxyWasmHost.prepareStream
  infer_instance

theorem streamAction {announced : Option (BufferType × UInt32)} (hcallback : callback.ordinary = true) :
    Along (Follow c) (streamAction id kind callback announced params code) := by
  have hrun : Along (Follow c) (Prologue.run id callback params code Action.continue.toI32) :=
    run hcallback
  unfold ProxyWasmHost.streamAction
  infer_instance

theorem streamEvent (hcallback : callback.ordinary = true) :
    Along (Follow c) (streamEvent id callback params code) := by
  have hrun : Along (Follow c) (Prologue.run id callback params code 0) := run hcallback
  unfold ProxyWasmHost.streamEvent
  infer_instance

section Stream

variable {count : UInt32} {endOfStream : Bool} {peer : PeerType}

instance onRequestHeaders : Along (Follow c) (onRequestHeaders id count endOfStream code) :=
  .andThen fun _ => streamAction rfl

instance onRequestBody : Along (Follow c) (onRequestBody id count endOfStream code) :=
  .andThen fun _ => streamAction rfl

instance onRequestTrailers : Along (Follow c) (onRequestTrailers id count code) :=
  .andThen fun _ => streamAction rfl

instance onResponseHeaders : Along (Follow c) (onResponseHeaders id count endOfStream code) :=
  .andThen fun _ => streamAction rfl

instance onResponseBody : Along (Follow c) (onResponseBody id count endOfStream code) :=
  .andThen fun _ => streamAction rfl

instance onResponseTrailers : Along (Follow c) (onResponseTrailers id count code) :=
  .andThen fun _ => streamAction rfl

instance onNewConnection : Along (Follow c) (onNewConnection id code) :=
  streamAction rfl

instance onDownstreamData : Along (Follow c) (onDownstreamData id count endOfStream code) :=
  .andThen fun _ => streamAction rfl

instance onUpstreamData : Along (Follow c) (onUpstreamData id count endOfStream code) :=
  .andThen fun _ => streamAction rfl

instance onDownstreamConnectionClose :
    Along (Follow c) (onDownstreamConnectionClose id peer code) :=
  streamEvent rfl

instance onUpstreamConnectionClose :
    Along (Follow c) (onUpstreamConnectionClose id peer code) :=
  streamEvent rfl

instance expectStreamKind : Along (Follow c) (expectStreamKind id kind) := by
  unfold ProxyWasmHost.expectStreamKind
  infer_instance

end Stream

/-! ## The other ordinary callbacks -/

section Ordinary

instance onVmStart : Along (Follow c) (onVmStart id code) := by
  have hrun : ∀ params, Along (Follow c) (Prologue.run id .vmStart params code 1) :=
    fun _ => run rfl
  have hreject : Along (Follow c) (Prog.modify (·.mapContexts (·.rejectVm id)) : Method Unit) :=
    mapContexts fun _ _ hl => hl.congr rfl rfl .inl
  unfold ProxyWasmHost.onVmStart
  dsimp only
  iterate 5 refine .andThen fun _ => ?_
  infer_instance

instance onConfigure {plugin : PluginConfig} : Along (Follow c) (onConfigure id plugin code) := by
  have hrun : ∀ params, Along (Follow c) (Prologue.run id .configure params code 1) :=
    fun _ => run rfl
  have hplugin : Along (Follow c)
      (Prog.modify (·.mapContexts (·.setPlugin id plugin)) : Method Unit) :=
    mapContexts fun _ _ hl => hl.setPlugin
  have hreject : Along (Follow c) (Prog.modify (·.mapContexts (·.reject id)) : Method Unit) :=
    mapContexts fun _ _ hl => hl.modify fun _ => rfl
  unfold ProxyWasmHost.onConfigure
  dsimp only
  iterate 5 refine .andThen fun _ => ?_
  infer_instance

instance onTick : Along (Follow c) (onTick id code) := by
  have hrun : Along (Follow c) (Prologue.run id .tick [id.wire] code 0) := run rfl
  unfold ProxyWasmHost.onTick
  infer_instance

instance onQueueReady {queue : QueueId} : Along (Follow c) (onQueueReady id queue code) := by
  have hrun : Along (Follow c) (Prologue.run id .queueReady [id.wire, queue.wire] code 0) := run rfl
  unfold ProxyWasmHost.onQueueReady
  iterate 4 refine .andThen fun _ => ?_
  infer_instance

instance onForeignFunction {functionId : UInt32} {arguments : Bytes} :
    Along (Follow c) (onForeignFunction id functionId arguments code) := by
  unfold ProxyWasmHost.onForeignFunction
  exact .andThen fun _ => .andThen fun _ => .andThen fun _ => .andThen fun _ => delivering.deliver rfl

section Callouts

variable {callout : CalloutId}

instance onHttpCallResponse {response : HttpCallResponse} :
    Along (Follow c) (onHttpCallResponse id callout response code) := by
  unfold ProxyWasmHost.onHttpCallResponse
  exact .andThen fun _ => .andThen fun _ => .andThen fun _ => .andThen fun _ => .andThen fun _ =>
    delivering.httpResponse

instance onGrpcReceiveInitialMetadata {metadata : List Pair} :
    Along (Follow c) (onGrpcReceiveInitialMetadata id callout metadata code) := by
  unfold ProxyWasmHost.onGrpcReceiveInitialMetadata
  exact .andThen fun _ => .andThen fun _ => .andThen fun _ => delivering.deliver rfl

instance onGrpcReceive {message : Bytes} :
    Along (Follow c) (onGrpcReceive id callout message code) := by
  unfold ProxyWasmHost.onGrpcReceive
  exact .andThen fun _ => .andThen fun _ => .andThen fun _ => delivering.deliver rfl

instance onGrpcReceiveTrailingMetadata {metadata : List Pair} :
    Along (Follow c) (onGrpcReceiveTrailingMetadata id callout metadata code) := by
  unfold ProxyWasmHost.onGrpcReceiveTrailingMetadata
  exact .andThen fun _ => .andThen fun _ => .andThen fun _ => delivering.deliver rfl

instance onGrpcClose {status : GrpcStatus} :
    Along (Follow c) (onGrpcClose id callout status code) := by
  unfold ProxyWasmHost.onGrpcClose
  exact .andThen fun _ => .andThen fun _ => delivering.grpcClose

end Callouts

end Ordinary

/-! ## The creation of a context -/

/-- An identifier that was never handed out is that of the next context. -/
theorem unborn_of_create {l : Life} {table : ContextTable} {parent : Option ContextId}
    (hcreates : s.abi.contexts.Creates parent c table) (hl : s.abi.contexts.Refines c l) :
    l = .unborn := by
  have hnext : c.val = s.abi.contexts.next.val := congrArg Id.val hcreates.id_eq
  cases l with
  | unborn => rfl
  | living state => exact absurd hl.2 (by omega)
  | gone => exact absurd hl.2.2 (by omega)
  | born | dying => exact hl.elim

/-- The creation of another context. -/
theorem created_other {l : Life} {table : ContextTable} {parent : Option ContextId}
    (hcreates : s.abi.contexts.Creates parent id table) (hl : s.abi.contexts.Refines c l)
    (hne : id ≠ c) : (Event.created id parent).Suits c l ∧
      (Event.created id parent).lives c l = l ∧ table.Refines c l := by
  have hstate : table.state c = s.abi.contexts.state c := by
    unfold ContextTable.state
    rw [hcreates.get_eq, if_neg (Ne.symm hne)]
  have hnext := hcreates.next_eq
  have hid : id.val = s.abi.contexts.next.val := congrArg Id.val hcreates.id_eq
  have hval : id.val ≠ c.val := fun h => hne (Id.ext h)
  have habout : (Event.created id parent).about ≠ some c := by
    rintro ⟨⟩
    exact hne rfl
  refine ⟨⟨by rintro abi ⟨⟩, ?_⟩, if_neg hne, ?_⟩
  · cases l with
    | unborn => exact fun h => absurd h habout
    | gone => exact habout
    | born | dying => exact hl.elim
    | living =>
      refine ⟨?_, by rintro _ ⟨⟩, by rintro _ _ ⟨⟩, by rintro ⟨⟩⟩
      rintro _ ⟨⟩
      exact hne rfl
  · cases l with
    | unborn => exact ⟨hstate.trans hl.1, hcreates.effective_eq ▸ hl.2.1, by have := hl.2.2; omega⟩
    | living => exact ⟨hstate.trans hl.1, by have := hl.2; omega⟩
    | gone => exact ⟨hstate.trans hl.1, hcreates.effective_eq ▸ hl.2.1, by have := hl.2.2; omega⟩
    | born | dying => exact hl.elim

/-- A context that is created and whose creation callback begins: what follows starts from an
    active one. -/
theorem created_self {l : Life} {table : ContextTable} {parent : Option ContextId}
    {rest : List Event} (hcreates : s.abi.contexts.Creates parent c table)
    (hl : s.abi.contexts.Refines c l)
    (hrest : table.Refines c (.living .active) → Alive c (.living .active) rest ∧
      s'.abi.contexts.Refines c (rest.foldl (Event.lives c) (.living .active))) :
    Alive c l (.created c parent :: (s.mapContexts fun _ => table).beginning .contextCreate c
        [c.wire, (parent.map Id.wire).getD 0] :: rest) ∧
      s'.abi.contexts.Refines c ((.created c parent :: (s.mapContexts fun _ => table).beginning
        .contextCreate c [c.wire, (parent.map Id.wire).getD 0] :: rest).foldl (Event.lives c) l) := by
  obtain rfl := unborn_of_create hcreates hl
  have hactive : table.state c = some .active := by
    unfold ContextTable.state
    rw [hcreates.get_eq, if_pos rfl]
    rfl
  obtain ⟨halive, hlast⟩ := hrest ⟨hactive, by rw [hcreates.next_eq]; omega⟩
  have hborn : (Event.created c parent).lives c .unborn = .born parent := if_pos rfl
  refine ⟨⟨⟨by rintro abi ⟨⟩, fun _ => ⟨parent, rfl⟩⟩, ?_⟩, ?_⟩
  · rw [hborn]
    exact ⟨⟨by rintro abi ⟨⟩; exact hactive, _, _, _, rfl⟩, halive⟩
  · rw [List.foldl_cons, hborn]
    exact hlast

/-- A context that is created, and its creation callback. -/
theorem create {parent : Option ContextId} {table : ContextTable}
    (hcreate : s.abi.contexts.create parent = .ok (id, table)) :
    AlongFrom (Follow c) (do
      Prog.act (fun _ => .created id parent) (·.mapContexts fun _ => table)
      let _ ← Prologue.run id .contextCreate [id.wire, (parent.map Id.wire).getD 0] code 0
      return id : Method ContextId) s := by
  have hcreates := ContextTable.creates_of_create hcreate
  by_cases hid : id = c
  · subst hid
    have hget : (table.get id).isSome := by
      rw [hcreates.get_eq, if_pos rfl]
      rfl
    have hover : ∀ {how t s'}, how.Tells .contextCreate id →
        (s.mapContexts fun _ => table).Performed .contextCreate id
          [id.wire, (parent.map Id.wire).getD 0] how t s' →
        Follow id s (.created id parent :: t) s' := by
      rintro how t s' htells ⟨inner, h, path, rfl, rfl⟩ - l hl
      refine created_self hcreates hl fun hactive => ?_
      obtain ⟨l₁, halive, hlast, hl₁, -⟩ := alive_inner path hactive hget htells
      rw [hlast, htells.lives_eq (by rintro ⟨⟩) (by rintro ⟨⟩)]
      exact ⟨halive, hl₁⟩
    refine .of_leaves (.bind_act (.bind (M := fun _ t s' =>
      Follow id s (.created id parent :: t) s') ((run_leaves _).mono ?_ ?_ ?_) ?_))
    · exact fun value _ _ ran => hover (.returned value) ran
    · exact fun _ _ _ ran => hover .unwound ran
    · rintro t s' ⟨inner, h, path, rfl, rfl⟩ - l hl
      refine created_self hcreates hl fun hactive => ?_
      exact HostStep.alive_steps path hactive.setEffective
    · intro _ t s' hfollow
      show Follow id s (.created id parent :: (t ++ [])) s'
      rw [List.append_nil]
      exact hfollow
  · refine .bind (.act fun _ l hl => ?_) fun _ _ s₁ _ => .bind (run_from (fun h => absurd h hid)
      (by rintro ⟨⟩) (by rintro ⟨⟩)) fun _ _ _ _ => .of_along
    obtain ⟨hsuits, hstill, hl'⟩ := created_other hcreates hl hid
    refine ⟨⟨hsuits, trivial⟩, ?_⟩
    rw [List.foldl_cons, hstill]
    exact hl'

instance onContextCreate {parent : Option ContextId} :
    Along (Follow c) (onContextCreate parent code) := by
  refine .of_from fun s => ?_
  unfold ProxyWasmHost.onContextCreate
  refine .bind_along fun _ s₁ => ?_
  have hcreate : AlongFrom (Follow c) (do
      let (id, table) ← Prog.ofExcept ((← contexts).create parent)
      Prog.act (fun _ => .created id parent) (·.mapContexts fun _ => table)
      let _ ← Prologue.run id .contextCreate [id.wire, (parent.map Id.wire).getD 0] code 0
      return id : Method ContextId) s₁ := by
    refine .bind_read (.bind_ofExcept fun ⟨id, table⟩ hcreate => ?_)
    exact create hcreate
  cases parent with
  | none => exact .bind_quiet fun _ => hcreate
  | some parent => exact .bind_quiet fun _ => .bind_quiet fun _ => hcreate

/-! ## The end of a context -/

theorem requireDone_finds_done :
    Finds (requireDone id) (fun _ => s.abi.contexts.state id = some .done) s :=
  require_finds.bind fun _ _ => .bind_read Finds.require

instance onLog : Along (Follow c) (onLog id code) := by
  refine .of_from fun s => ?_
  unfold ProxyWasmHost.onLog
  refine .bind_along fun _ s₁ => .bind_along fun _ s₂ => ?_
  refine .bind_finds requireDone_finds_done fun _ hdone => ?_
  refine .bind (run_from (fun _ => ⟨by rintro ⟨⟩, fun _ => hdone⟩) (by rintro ⟨⟩)
    (by rintro ⟨⟩)) fun _ _ _ _ => .of_along

/-- What the guest answers to `proxy_on_done` is the state of its context. -/
theorem answered (done : Bool) {s₁ : Session} {t : List Event}
    (ran : s.Performed .done id params (.returned .done id (if done then 1 else 0)) t s₁) :
    Follow c s t (s₁.mapContexts (·.setState id (if done then .done else .pending))) := by
  intro hknown l hl
  obtain ⟨l₁, halive, hlast, hl₁, hknown₁⟩ := alive_performed ran (.returned _)
    (fun _ => ⟨by rintro ⟨⟩, by rintro ⟨⟩⟩) hknown hl
  refine ⟨halive, ?_⟩
  rw [hlast]
  by_cases hid : id = c
  · subst hid
    obtain ⟨state, rfl, -⟩ := hl₁.living hknown₁
    have hlives : (Event.returned .done id (if done then 1 else 0)).lives id (.living state) =
        .living (if done then .done else .pending) := by
      cases done <;> simp [Event.lives]
    rw [hlives]
    exact hl₁.setState
  · have hlives : (Event.returned .done id (if done then 1 else 0)).lives c l₁ = l₁ := if_pos hid
    rw [hlives]
    exact hl₁.setState_other (Ne.symm hid)

instance onDone : Along (Follow c) (onDone id code) := by
  refine .of_from fun s => ?_
  unfold ProxyWasmHost.onDone
  refine .bind_along fun _ s₁ => .bind_along fun _ s₂ => ?_
  refine .bind_quiet fun _ => .of_leaves ?_
  have hmay : id = c → Callback.May .done (s₂.abi.contexts.state id) :=
    fun _ => ⟨by rintro ⟨⟩, by rintro ⟨⟩⟩
  have hover : ∀ {how t s'}, how.Tells .done id → s₂.Performed .done id [id.wire] how t s' →
      (∀ l, how.lives c l = l) → Follow c s₂ t s' := by
    intro how t s' htells ran hstill hknown l hl
    obtain ⟨l₁, halive, hlast, hl₁, -⟩ := alive_performed ran htells hmay hknown hl
    rw [hstill] at hlast
    exact ⟨halive, hlast ▸ hl₁⟩
  refine .bind ((run_leaves s₂).mono (fun _ _ _ ran => ran) ?_ ?_) fun value t s₃ ran => ?_
  · exact fun _ _ _ ran => hover .unwound ran fun _ => rfl
  · exact fun _ _ ran => alive_stuck ran hmay
  unfold boolean
  by_cases hno : value = 0
  · rw [if_pos hno]
    subst hno
    show Follow c s₂ (t ++ []) _
    rw [List.append_nil]
    exact answered false ran
  · rw [if_neg hno]
    by_cases hyes : value = 1
    · rw [if_pos hyes]
      subst hyes
      show Follow c s₂ (t ++ []) _
      rw [List.append_nil]
      exact answered true ran
    · rw [if_neg hyes]
      show Follow c s₂ (t ++ []) s₃
      rw [List.append_nil]
      refine hover (.returned value) ran fun l => ?_
      simp [Event.lives, hno, hyes]

/-! ## The deletion of a context -/

/-- A context leaves the table, after its deletion callback. -/
theorem removed_self {table : ContextTable} {abi : AbiState} (hstate : table.state id = some .done)
    (hbelow : id.val < table.next.val) (hshows : abi.contexts = table) :
    Alive id .dying [.deleted id abi] ∧
      (table.remove id).Refines id ([Event.deleted id abi].foldl (Event.lives id) .dying) := by
  have hgone : (Event.deleted id abi).lives id .dying = .gone := if_pos rfl
  refine ⟨⟨⟨?_, abi, rfl⟩, trivial⟩, ?_⟩
  · rintro _ ⟨⟩
    rw [hshows]
    exact hstate
  · rw [List.foldl_cons, hgone]
    obtain ⟨entry, hget, -⟩ := Option.map_eq_some_iff.1 hstate
    have hremove : table.remove id = { table with
        entries := table.entries.erase id
        effective := if table.effective = some id then none else table.effective } := by
      unfold ContextTable.remove
      rw [hget]
    refine ⟨?_, ?_, ?_⟩
    · unfold ContextTable.state
      rw [ContextTable.get_remove, if_pos rfl]
      rfl
    · rw [hremove]
      dsimp only
      split
      · rintro ⟨⟩
      · assumption
    · rw [hremove]
      exact hbelow

/-- Another context leaves the table. -/
theorem removed_other {l : Life} {table : ContextTable} {abi : AbiState}
    (hl : table.Refines c l) (hne : id ≠ c) (hshows : abi.contexts = table) :
    Alive c l [.deleted id abi] ∧
      (table.remove id).Refines c ([Event.deleted id abi].foldl (Event.lives c) l) := by
  have habout : (Event.deleted id abi).about ≠ some c := by
    rintro ⟨⟩
    exact hne rfl
  have hstill : (Event.deleted id abi).lives c l = l := if_neg hne
  refine ⟨⟨⟨?_, ?_⟩, trivial⟩, ?_⟩
  · rintro _ ⟨⟩
    rw [hshows]
    exact hl.state_eq
  · cases l with
    | unborn => exact fun h => absurd h habout
    | gone => exact habout
    | born | dying => exact hl.elim
    | living =>
      refine ⟨by rintro _ ⟨⟩, ?_, by rintro _ _ ⟨⟩, by rintro ⟨⟩⟩
      rintro _ ⟨⟩
      exact hne rfl
  · rw [List.foldl_cons, hstill]
    refine hl.congr ?_ ?_ fun heffective => ?_
    · unfold ContextTable.state
      rw [ContextTable.get_remove, if_neg (Ne.symm hne)]
    · unfold ContextTable.remove
      split <;> rfl
    · left
      unfold ContextTable.remove at heffective
      split at heffective
      · exact heffective
      · dsimp only at heffective
        split at heffective
        · cases heffective
        · exact heffective

/-- A context that is done goes: its deletion callback returned, and it leaves the table. -/
theorem gone {t : List Event} {s₁ : Session} {value : I32} {isRoot : Bool}
    (hdone : s.abi.contexts.state id = some .done)
    (ran : s.Performed .delete id params (.returned .delete id value) t s₁) :
    Follow c s (t ++ [.deleted id s₁.abi]) (s₁.mapAbi fun abi =>
      let abi := { abi with contexts := abi.contexts.remove id }
      if isRoot then abi.forgetRegistrant id else abi) := by
  have hcontexts : (s₁.mapAbi fun abi =>
      let abi := { abi with contexts := abi.contexts.remove id }
      if isRoot then abi.forgetRegistrant id else abi).abi.contexts =
      s₁.abi.contexts.remove id := by
    cases isRoot <;> rfl
  intro hknown l hl
  obtain ⟨l₁, halive, hlast, hl₁, hknown₁⟩ := alive_performed ran (.returned _)
    (fun _ => ⟨by rintro ⟨⟩, fun _ => hdone⟩)
    (fun e he => hknown e (List.mem_append_left _ he)) hl
  suffices hend : Alive c ((Event.returned .delete id value).lives c l₁) [.deleted id s₁.abi] ∧
      (s₁.abi.contexts.remove id).Refines c ([Event.deleted id s₁.abi].foldl (Event.lives c)
        ((Event.returned .delete id value).lives c l₁)) by
    rw [hcontexts, List.foldl_append, hlast]
    exact ⟨Scanned.append_iff.2 ⟨halive, by rw [hlast]; exact hend.1⟩, hend.2⟩
  by_cases hid : id = c
  · subst hid
    have hdying : (Event.returned .delete id value).lives id l₁ = .dying := if_pos rfl
    rw [hdying]
    obtain ⟨state, rfl, -⟩ := hl₁.living hknown₁
    exact removed_self (ran.remains hdone) hl₁.2 rfl
  · have hstill : (Event.returned .delete id value).lives c l₁ = l₁ := if_neg hid
    rw [hstill]
    exact removed_other hl₁ hid rfl

/-- **A context that is done is deleted**: its callback returns, and it leaves the table. -/
theorem deleted_from {isRoot : Bool} (hdone : s.abi.contexts.state id = some .done) :
    AlongFrom (Follow c) (do
      let _ ← Prologue.run id .delete [id.wire] code 0
      removeContext id isRoot : Method Unit) s := by
  have hmay : id = c → Callback.May .delete (s.abi.contexts.state id) :=
    fun _ => ⟨by rintro ⟨⟩, fun _ => hdone⟩
  refine .of_leaves (.bind ((run_leaves s).mono (fun _ _ _ ran => ran) ?_ ?_)
    fun value t s₁ ran => ?_)
  · intro _ t s' ran hknown l hl
    obtain ⟨l₁, halive, hlast, hl₁, -⟩ := alive_performed ran .unwound hmay hknown hl
    exact ⟨halive, hlast ▸ hl₁⟩
  · exact fun _ _ ran => alive_stuck ran hmay
  · exact gone hdone ran

/-- What comes after a deletion, in a context that was done before it. -/
theorem deletes_from {isRoot : Bool} {m : Method α} [Along (Follow c) m]
    (hdone : s.abi.contexts.state id = some .done) :
    AlongFrom (Follow c) (do
      let _ ← Prologue.run id .delete [id.wire] code 0
      removeContext id isRoot
      m) s := by
  have hboth := bind_assoc (Prologue.run id .delete [id.wire] code 0)
    (fun _ => removeContext id isRoot) fun _ => m
  rw [← hboth]
  exact .bind (deleted_from hdone) fun _ _ _ _ => .of_along

instance dropOpenCallouts : Along (Follow c) (dropOpenCallouts id) := delivering.dropOpenCallouts

instance failOpenCallouts {root : ContextId} {codes : CalloutId → Code} :
    Along (Follow c) (failOpenCallouts id root codes) := delivering.failOpenCallouts

/-- A deletion, in whatever order it ends the callouts of the context. -/
theorem delete_from {codes : CalloutId → Code} (hdone : s.abi.contexts.state id = some .done) :
    AlongFrom (Follow c) (delete id codes code) s := by
  unfold ProxyWasmHost.delete
  refine .bind_read ?_
  cases hparent : s.abi.contexts.parent id with
  | some root => exact .bind_quiet fun _ => deletes_from hdone
  | none =>
    -- the failures of its callouts come first, and leave a root that is done as it is
    have hremains : Along (Session.Remains id) (ProxyWasmHost.failOpenCallouts id id codes) :=
      Session.Remains.delivering.failOpenCallouts
    have hstill : AlongFrom (Session.Remains id) (ProxyWasmHost.failOpenCallouts id id codes) s :=
      .of_along
    exact .bind_knowing .of_along hstill fun _ _ _ hremains => deletes_from (hremains hdone)

theorem requireDeletable_finds_done :
    Finds (requireDeletable id) (fun _ => s.abi.contexts.state id = some .done) s :=
  requireDone_finds_done.bind fun _ hdone => .bind_read <| Finds.require.mono fun _ _ => hdone

instance onDelete {codes : CalloutId → Code} : Along (Follow c) (onDelete id codes code) := by
  refine .of_from fun s => ?_
  unfold ProxyWasmHost.onDelete
  refine .bind_along fun _ s₁ => .bind_along fun _ s₂ => ?_
  refine .bind_finds requireDeletable_finds_done fun _ hdone => ?_
  refine .bind_modify (.of_eq rfl) (.bind (.attempt (delete_from hdone)) fun _ _ _ _ => .of_along)

/-! ## The calls of an embedder -/

theorem dropped {s : Session} : Follow c s [] (dropped s) := by
  refine .of_eq ?_
  unfold ProxyWasmHost.dropped
  dsimp only
  split <;> rfl

instance startRun {plugin : PluginConfig} {codes : StartCodes} :
    Along (Follow c) (startRun id plugin codes) := by
  have hstarted : Along (Follow c) (Prog.modify (·.mapAbi fun abi => { abi with vmStarted := true }) :
      Prog Session Event (Callback × GuestError) Unit) := .modify fun _ => .of_eq rfl
  unfold ProxyWasmHost.startRun
  dsimp only
  infer_instance

/-- A start, whose scope is dropped whichever way it ends. -/
instance start {plugin : PluginConfig} {codes : StartCodes} : Along (Follow c) (start plugin codes) := by
  have henter : Along (Follow c) enterRoot := .modify fun _ => .of_eq rfl
  have hcreate : Along (Follow c) (Prog.cleanedUp
      (do
        let root ← ProxyWasmHost.onContextCreate none codes.contextCreate
        return (root, ← Prog.attempt (ProxyWasmHost.startRun root plugin codes)) :
        Method (ContextId × Except (Callback × GuestError) Started))
      ProxyWasmHost.dropped) := .cleanedUp fun _ => dropped
  have hreject : ∀ (callback : Callback) (root : ContextId), Along (Follow c)
      (Prog.modify (·.mapContexts fun table =>
        if callback = .vmStart then table.rejectVm root else table.reject root) : Method Unit) := by
    refine fun callback root => mapContexts fun table l hl => ?_
    split
    · exact hl.congr rfl rfl .inl
    · exact hl.modify fun _ => rfl
  unfold ProxyWasmHost.start contexts
  refine .andThen fun table => ?_
  have hrest : Along (Follow c) (do
      let (root, answer) ← Prog.cleanedUp
        (do
          let root ← ProxyWasmHost.onContextCreate none codes.contextCreate
          return (root, ← Prog.attempt (ProxyWasmHost.startRun root plugin codes)))
        ProxyWasmHost.dropped
      match answer with
      | .ok started => return started
      | .error (callback, error) =>
        Prog.modify (·.mapContexts fun table =>
          if callback = .vmStart then table.rejectVm root else table.reject root)
        Prog.throw error : Method Started) := by
    refine .andThen fun result => ?_
    obtain ⟨root, ⟨callback, error⟩ | started⟩ := result <;> infer_instance
  cases table.rootWithId plugin.rootId with
  | some root => infer_instance
  | none => exact .andThen fun _ => hrest

instance finish : Along (Follow c) finish := by
  have hend : Along (Follow c) (Prog.modify fun s : Session =>
      let s := if s.abi.currentCallback.isSome then s.mapHost HostState.poison else s
      ProxyWasmHost.dropped (takeStreamState s) : Method Unit) := by
    refine .modify fun s => ?_
    have htaken : Follow c s [] (takeStreamState
        (if s.abi.currentCallback.isSome then s.mapHost HostState.poison else s)) := by
      refine .of_eq ?_
      split <;> rfl
    exact Chain.trans htaken dropped
  unfold ProxyWasmHost.finish
  infer_instance

/-- **Every call of an embedder** follows the life of `c`. -/
theorem perform (op : Op) : Along (Follow c) op.perform := by
  have hreply : ∀ {α} {m : Method α} {reply : α → Reply}, Along (Follow c) m →
      Along (Follow c) (replying m reply) := fun _ => .andThen fun _ => inferInstance
  cases op with
  | enter => exact hreply (.modify fun _ => .of_eq rfl)
  | setServices => exact hreply (.modify fun _ => .of_eq rfl)
  | dropScope => exact hreply (.modify fun _ => dropped)
  | forgetScope => exact hreply (.modify fun _ => .of_eq rfl)
  | takeStream type =>
    have htake : Along (Follow c) (Prog.modify fun s : Session => { s with detached := none } :
      Method Unit) := .modify fun _ => .of_eq rfl
    refine hreply ?_
    unfold ProxyWasmHost.takeStream
    infer_instance
  | takeStreamAny =>
    have htake : Along (Follow c) (Prog.modify fun s : Session => { s with detached := none } :
      Method Unit) := .modify fun _ => .of_eq rfl
    refine hreply ?_
    unfold ProxyWasmHost.takeStreamAny
    infer_instance
  | takeChanges =>
    exact hreply (.of_from fun _ => .bind_read (.bind_modify (.of_eq rfl) .of_along))
  | _ => exact hreply inferInstance

end Follow

/-! ## Runs -/

/-- The calls of an embedder follow the life of `c`. -/
theorem Follow.called {calls : List Call} (path : Steps Session.Calls s calls s') :
    Follow c s (calls.flatMap Call.trace) s' := by
  induction path with
  | nil s => exact Chain.refl s
  | cons head tail ih =>
    obtain ⟨op, -, rfl, rfl⟩ := head
    rw [List.flatMap_append, List.flatMap_singleton]
    exact Chain.trans ((Follow.perform op).along _) ih

namespace Run

variable (r : Run)

theorem begins_known : BeginsKnown r.trace := by
  intro e he callback c abi hbegun
  cases e <;> cases hbegun
  exact r.began_known he

/-- A run follows the life of `c` from the start. -/
theorem follow (c : ContextId) : Alive c .unborn r.trace ∧
    r.last.abi.contexts.Refines c (r.trace.foldl (Event.lives c) .unborn) := by
  have hcreation : Follow c r.first r.creation r.fresh := by
    obtain ⟨h, heq, path⟩ := r.creation_host
    rw [heq]
    exact fun _ _ hl => HostStep.alive_steps path hl
  have hfirst : r.first.abi.contexts.Refines c .unborn := by
    refine ⟨?_, ?_, ?_⟩
    · rfl
    · rintro ⟨⟩
    · exact c.pos
  exact Chain.trans hcreation (Follow.called r.called) r.begins_known _ hfirst

/-- **Every context lives one life.** Whatever the embedder calls and whatever the guest does,
    each event of a run is one that every context permits where it is in its life, the table that
    it shows has the context there too, and so has the table in the end: a context is created
    once, its creation callback is the first that begins for it, it changes its state by the
    answer to `proxy_on_done` and by an accepted `proxy_done` alone, the callbacks of its end
    begin for one that is done, and it leaves the table when its deletion callback returned, for
    good. -/
theorem contexts_live (c : ContextId) :
    (∀ past e rest, r.trace = past ++ e :: rest →
      e.Suits c (past.foldl (Event.lives c) .unborn)) ∧
    r.last.abi.contexts.Refines c (r.trace.foldl (Event.lives c) .unborn) := by
  obtain ⟨halive, hlast⟩ := r.follow c
  exact ⟨fun past e rest htrace => (htrace ▸ halive).fits, hlast⟩

end Run

end ProxyWasmHost
