/-
  What the methods of a guest are built of, so that what holds of the pieces, and is kept
  by the ways to put them together, holds of every method.
-/
import ProxyWasmHost.Guest.Delivers

namespace ProxyWasmHost

open Prog Session Prologue

set_option synthInstance.maxSize 1000

/-- A change that is no stage of a callback: the callouts, the delivery and the limits
    stay, and so does whether the guest can go on. -/
structure Session.Silent (u : Session → Session) : Prop where
  callouts : ∀ s, (u s).abi.callouts = s.abi.callouts
  delivery : ∀ s, (u s).abi.delivery = s.abi.delivery
  limits : ∀ s, (u s).host.limits = s.host.limits
  live : ∀ s, (u s).Live ↔ s.Live

/-- What follows a part that was attempted: on its error a change, and an error. -/
def rescuing {ε ε' α β : Type} (g : ε' → ε) (v : α → ε' → Session → Session) :
    α × Except ε' β → Prog Session Event ε β
  | (_, .ok b) => Prog.pure b
  | (a, .error e) => do
    Prog.modify (v a e)
    Prog.throw (g e)

/-- **A program built as the methods are**, whose errors unwind as `unw` says. -/
class inductive Built (makes : Delivered → Prop) :
    {ε α : Type} → (ε → Bool) → Prog Session Event ε α → Prop
  | look {ε α : Type} {unw : ε → Bool} {m : Prog Session Event ε α} (quiet : Quiet m)
      (mild : ∀ s e, (m.run s).exit = .err e → unw e = false)
      (calm : ∀ s, (m.run s).exit ≠ .panicked) : Built makes unw m
  | bind {ε α β : Type} {unw : ε → Bool} {m : Prog Session Event ε α}
      {f : α → Prog Session Event ε β} (first : Built makes unw m)
      (rest : ∀ a, Built makes unw (f a)) : Built makes unw (m >>= f)
  /-- What comes second is built for what the first finds. -/
  | known {ε α β : Type} {unw : ε → Bool} {m : Prog Session Event ε α}
      {f : α → Prog Session Event ε β} {P : α → Prop} (first : Built makes unw m)
      (finds : ∀ s, Finds m P s) (rest : ∀ a, P a → Built makes unw (f a)) :
      Built makes unw (m >>= f)
  | change {ε : Type} {unw : ε → Bool} {u : Session → Session} (silent : Silent u) :
      Built makes unw (Prog.modify u : Prog Session Event ε Unit)
  | tell {ε : Type} {unw : ε → Bool} {e : Session → Event} {u : Session → Session}
      (silent : Silent u) (told : ∀ s, (∃ id parent, e s = .created id parent) ∨
        ∃ c abi, e s = .deleted c abi) :
      Built makes unw (Prog.act e u : Prog Session Event ε Unit)
  | drop {ε : Type} {unw : ε → Bool} (ids : List CalloutId) :
      Built makes unw (Prog.act (fun _ => .dropped ids)
        (·.mapCallouts fun table => ids.foldl .remove table) : Prog Session Event ε Unit)
  | requireLive : Built makes GuestError.unwinds requireLive
  | run (c : ContextId) {callback : Callback} (params : List I32) (code : Code) (default : I32)
      (plain : callback.delivers = false) :
      Built makes GuestError.unwinds (Prologue.run c callback params code default)
  | deliver {call : Delivered} (code : Code) (made : makes call) :
      Built makes GuestError.unwinds (deliver call code)
  | closing {ε α : Type} {unw : ε → Bool} {m : Prog Session Event ε α} {u : Session → Session}
      (body : Built makes unw m) (silent : Silent u) :
      Built makes unw (do
        let result ← Prog.attempt m
        Prog.modify u
        Prog.ofExcept result)
  | mapErr {ε ε' α : Type} {unw : ε → Bool} {unw' : ε' → Bool} {g : ε → ε'}
      {m : Prog Session Event ε α} (agrees : ∀ e, unw' (g e) = unw e)
      (body : Built makes unw m) : Built makes unw' (Prog.mapErr g m)
  | rescued {ε ε' α β : Type} {unw : ε → Bool} {unw' : ε' → Bool} {g : ε' → ε}
      {m : Prog Session Event ε α} {n : α → Prog Session Event ε' β} {u : Session → Session}
      {v : α → ε' → Session → Session} (agrees : ∀ e, unw (g e) = unw' e)
      (first : Built makes unw m) (second : ∀ a, Built makes unw' (n a))
      (silent : Silent u) (silent' : ∀ a e, Silent (v a e)) :
      Built makes unw (Prog.cleanedUp (do
        let a ← m
        return (a, ← Prog.attempt (n a))) u >>= rescuing g v)

namespace Built

attribute [instance] requireLive

variable {makes : Delivered → Prop} {ε α β : Type} {unw : ε → Bool}
  {m n : Prog Session Event ε α}

/-- A callback that runs for no delivery. -/
class Plain (callback : Callback) : Prop where
  plain : callback.delivers = false

instance runPlain {c : ContextId} {callback : Callback} {params : List I32} {code : Code}
    {default : I32} [hplain : Plain callback] :
    Built makes GuestError.unwinds (Prologue.run c callback params code default) :=
  .run c params code default hplain.plain

section Plain

instance : Plain .contextCreate := ⟨rfl⟩

instance : Plain .vmStart := ⟨rfl⟩

instance : Plain .configure := ⟨rfl⟩

instance : Plain .done := ⟨rfl⟩

instance : Plain .log := ⟨rfl⟩

instance : Plain .delete := ⟨rfl⟩

instance : Plain .tick := ⟨rfl⟩

instance : Plain .queueReady := ⟨rfl⟩

instance : Plain .newConnection := ⟨rfl⟩

instance : Plain .downstreamData := ⟨rfl⟩

instance : Plain .downstreamConnectionClose := ⟨rfl⟩

instance : Plain .upstreamData := ⟨rfl⟩

instance : Plain .upstreamConnectionClose := ⟨rfl⟩

instance : Plain .requestHeaders := ⟨rfl⟩

instance : Plain .requestBody := ⟨rfl⟩

instance : Plain .requestTrailers := ⟨rfl⟩

instance : Plain .responseHeaders := ⟨rfl⟩

instance : Plain .responseBody := ⟨rfl⟩

instance : Plain .responseTrailers := ⟨rfl⟩

end Plain

instance andThen {f : α → Prog Session Event ε β} [first : Built makes unw m]
    [rest : ∀ a, Built makes unw (f a)] : Built makes unw (m >>= f) :=
  .bind first rest

/-! ## The pieces that only look -/

/-- An error that does not say that a guest call unwound. -/
class Mild (unw : ε → Bool) (e : ε) : Prop where
  mild : unw e = false

section Errors

instance {callback : Callback} {root : ContextId} :
    Mild GuestError.unwinds (.guestRejected callback root) := ⟨rfl⟩

instance {rootId : Bytes} {root : ContextId} :
    Mild GuestError.unwinds (.duplicateRootId rootId root) := ⟨rfl⟩

instance {c : ContextId} {problem : ContextProblem} :
    Mild GuestError.unwinds (.context c problem) := ⟨rfl⟩

instance {callback : Callback} {value : I32} :
    Mild GuestError.unwinds (.unexpectedReturn callback value) := ⟨rfl⟩

instance {id : CalloutId} {problem : CalloutProblem} :
    Mild GuestError.unwinds (.callout id problem) := ⟨rfl⟩

instance {queue : QueueId} {problem : QueueProblem} :
    Mild GuestError.unwinds (.queue queue problem) := ⟨rfl⟩

instance {len : ℕ} : Mild GuestError.unwinds (.runtime (.valueTooLarge len)) := ⟨rfl⟩

end Errors

instance pure {a : α} : Built makes unw (Pure.pure a : Prog Session Event ε α) :=
  .look inferInstance (by rintro s e ⟨⟩) (by rintro s ⟨⟩)

instance read {g : Session → α} : Built makes unw (Prog.read g : Prog Session Event ε α) :=
  .look inferInstance (by rintro s e ⟨⟩) (by rintro s ⟨⟩)

instance throw {e : ε} [he : Mild unw e] : Built makes unw (Prog.throw e : Prog Session Event ε α) :=
  .look inferInstance (by rintro s e ⟨⟩; exact he.mild) (by rintro s ⟨⟩)

instance ite {c : Prop} [Decidable c] [Built makes unw m] [Built makes unw n] :
    Built makes unw (if c then m else n) := by
  split <;> infer_instance

instance require {c : Prop} [Decidable c] {e : ε} [Mild unw e] :
    Built makes unw (Prog.require c e : Prog Session Event ε Unit) := by
  unfold Prog.require
  split
  · exact pure
  · exact throw

instance orThrow {o : Option α} {e : ε} [Mild unw e] :
    Built makes unw (Prog.orThrow o e : Prog Session Event ε α) := by
  cases o
  · exact throw
  · exact pure

/-! ## The checks -/

variable {c : ContextId} {kind : StreamKind} {code : Code}

instance contexts : Built makes GuestError.unwinds Prologue.contexts := read

instance problem {p : ContextProblem} :
    Built makes GuestError.unwinds (Prologue.problem c p : Method α) := throw

instance requireKnown : Built makes GuestError.unwinds (Prologue.require c) := by
  unfold Prologue.require
  infer_instance

instance requireRoot : Built makes GuestError.unwinds (Prologue.requireRoot c) := by
  unfold Prologue.requireRoot
  refine .bind inferInstance fun type => ?_
  cases type <;> infer_instance

instance requireStream : Built makes GuestError.unwinds (Prologue.requireStream c) := by
  unfold Prologue.requireStream
  refine .bind inferInstance fun type => ?_
  cases type <;> infer_instance

instance requireDone : Built makes GuestError.unwinds (Prologue.requireDone c) := by
  unfold Prologue.requireDone
  infer_instance

instance requireDeletable : Built makes GuestError.unwinds (Prologue.requireDeletable c) := by
  unfold Prologue.requireDeletable
  infer_instance

instance requireStreamKind : Built makes GuestError.unwinds (Prologue.requireStreamKind c kind) := by
  unfold Prologue.requireStreamKind
  refine .bind inferInstance fun table => ?_
  split <;> infer_instance

instance accepted : Built makes GuestError.unwinds (Prologue.accepted c) := by
  unfold Prologue.accepted
  refine .bind inferInstance fun table => ?_
  split <;> infer_instance

instance vmAccepted : Built makes GuestError.unwinds Prologue.vmAccepted := by
  unfold Prologue.vmAccepted
  refine .bind inferInstance fun table => ?_
  split <;> infer_instance

instance wireU32 {value : UInt32} : Built makes GuestError.unwinds (Prologue.wireU32 value) := by
  unfold Prologue.wireU32
  infer_instance

instance wireSize {len : ℕ} : Built makes GuestError.unwinds (Prologue.wireSize len) := by
  unfold Prologue.wireSize
  infer_instance

instance boolean {callback : Callback} {value : I32} :
    Built makes GuestError.unwinds (Prologue.boolean callback value) := by
  unfold Prologue.boolean
  infer_instance

/-! ## The changes -/

/-- A change of what neither the callouts nor the guest's life depend on. -/
theorem silent_of_eq {u : Session → Session}
    (hcallouts : ∀ s, (u s).abi.callouts = s.abi.callouts)
    (hdelivery : ∀ s, (u s).abi.delivery = s.abi.delivery)
    (hlimits : ∀ s, (u s).host.limits = s.host.limits)
    (hpoisoned : ∀ s, (u s).host.poisoned = s.host.poisoned)
    (hcurrent : ∀ s, (u s).abi.currentCallback = s.abi.currentCallback) : Silent u where
  callouts := hcallouts
  delivery := hdelivery
  limits := hlimits
  live s := by
    constructor
    · exact fun h => ⟨(hcurrent s).symm.trans h.idle, (hpoisoned s).symm.trans h.live⟩
    · exact fun h => ⟨(hcurrent s).trans h.idle, (hpoisoned s).trans h.live⟩

theorem silent_mapContexts (u : ContextTable → ContextTable) : Silent (·.mapContexts u) :=
  silent_of_eq (fun _ => rfl) (fun _ => rfl) (fun _ => rfl) (fun _ => rfl) fun _ => rfl

instance mapContexts {u : ContextTable → ContextTable} :
    Built makes unw (Prog.modify (·.mapContexts u) : Prog Session Event ε Unit) :=
  .change (silent_mapContexts u)

instance recordStreamKind : Built makes GuestError.unwinds (Prologue.recordStreamKind c kind) :=
  mapContexts

instance requireServed : Built makes GuestError.unwinds (requireServed c) := by
  unfold ProxyWasmHost.requireServed
  refine .bind inferInstance fun scope => ?_
  have hserve : Built makes GuestError.unwinds (Prog.modify fun s : Session =>
      { s with scope := s.scope.map fun scope => { scope with served := some c } } :
        Method Unit) :=
    .change (silent_of_eq (fun _ => rfl) (fun _ => rfl) (fun _ => rfl) (fun _ => rfl)
      fun _ => rfl)
  split <;> infer_instance

instance requireServedStream : Built makes GuestError.unwinds (requireServedStream c) := by
  unfold ProxyWasmHost.requireServedStream
  infer_instance

theorem silent_setAnnounced (announced : Option (BufferType × UInt32)) :
    Silent (·.mapAbi fun abi => { abi with announced }) :=
  silent_of_eq (fun _ => rfl) (fun _ => rfl) (fun _ => rfl) (fun _ => rfl) fun _ => rfl

/-! ## The methods of a scope -/

instance prepareStream : Built makes GuestError.unwinds (prepareStream c kind) := by
  unfold ProxyWasmHost.prepareStream
  infer_instance

/-- What follows a body that was closed. -/
theorem closing_andThen {u : Session → Session} {f : α → Prog Session Event ε β}
    (body : Built makes unw m) (silent : Silent u) (rest : ∀ a, Built makes unw (f a)) :
    Built makes unw (do
      let result ← Prog.attempt m
      Prog.modify u
      let a ← Prog.ofExcept result
      f a) := by
  have hassoc : (do
      let result ← Prog.attempt m
      Prog.modify u
      let a ← Prog.ofExcept result
      f a) = (do
        let result ← Prog.attempt m
        Prog.modify u
        Prog.ofExcept result) >>= f := by
    rw [Prog.bind_assoc]
    exact congrArg _ (funext fun _ => (Prog.bind_assoc _ _ _).symm)
  rw [hassoc]
  exact .bind (.closing body silent) rest

instance streamAction {callback : Callback} {announced : Option (BufferType × UInt32)}
    {params : List I32} [Plain callback] :
    Built makes GuestError.unwinds (streamAction c kind callback announced params code) := by
  unfold ProxyWasmHost.streamAction
  refine .bind inferInstance fun _ => ?_
  refine .bind (.change (silent_setAnnounced announced)) fun _ => ?_
  exact closing_andThen runPlain (silent_setAnnounced none) fun _ => inferInstance

instance streamEvent {callback : Callback} {params : List I32} [Plain callback] :
    Built makes GuestError.unwinds (streamEvent c callback params code) := by
  unfold ProxyWasmHost.streamEvent
  infer_instance

theorem ofExcept_create (t : ContextTable) (parent : Option ContextId) :
    Built makes GuestError.unwinds (Prog.ofExcept (t.create parent) :
      Method (ContextId × ContextTable)) := by
  refine .look inferInstance (fun s e he => ?_) fun s => ?_
  · have herror : t.create parent = .error e := by
      cases hcreate : t.create parent <;> rw [hcreate] at he <;> cases he
      rfl
    unfold ContextTable.create at herror
    cases htype : t.childType parent with
    | ok type =>
      rw [htype] at herror
      cases hnext : t.next.checkedSucc <;>
        simp only [Bind.bind, Except.bind, Pure.pure, Except.pure, hnext] at herror <;> cases herror
      rfl
    | error e' =>
      rw [htype] at herror
      cases herror
      unfold ContextTable.childType at htype
      split at htype
      · cases htype
      · split at htype <;> cases htype <;> rfl
  · cases t.create parent <;> rintro ⟨⟩

instance onContextCreate {parent : Option ContextId} :
    Built makes GuestError.unwinds (onContextCreate parent code) := by
  unfold ProxyWasmHost.onContextCreate
  have htold : ∀ (id : ContextId) (table : ContextTable), Built makes GuestError.unwinds
      (Prog.act (fun _ => .created id parent) (·.mapContexts fun _ => table) : Method Unit) :=
    fun id table => .tell (silent_mapContexts _) fun _ => .inl ⟨id, parent, rfl⟩
  have hcreate : ∀ table : ContextTable, Built makes GuestError.unwinds
      (Prog.ofExcept (table.create parent) : Method (ContextId × ContextTable)) :=
    fun table => ofExcept_create table parent
  refine .bind inferInstance fun _ => ?_
  cases parent <;> infer_instance

instance onVmStart : Built makes GuestError.unwinds (onVmStart c code) := by
  unfold ProxyWasmHost.onVmStart
  dsimp only
  infer_instance

instance onConfigure {plugin : PluginConfig} :
    Built makes GuestError.unwinds (onConfigure c plugin code) := by
  unfold ProxyWasmHost.onConfigure
  dsimp only
  infer_instance

instance expectStreamKind : Built makes GuestError.unwinds (expectStreamKind c kind) := by
  unfold ProxyWasmHost.expectStreamKind
  infer_instance

instance requireOpen {callout : CalloutId} {kinds : List CalloutKind} :
    Built makes GuestError.unwinds (requireOpen c callout kinds) := by
  unfold ProxyWasmHost.requireOpen
  infer_instance

instance grpcAccepted {callout : CalloutId} :
    Built makes GuestError.unwinds (grpcAccepted c callout) := by
  unfold ProxyWasmHost.grpcAccepted
  infer_instance

theorem deliverHttpResponse {brings : Delivery → Prop} {callout : CalloutId}
    {response : HttpCallResponse} (hbrings : brings (.httpCallResponse callout response)) :
    Built (·.Faithful brings) GuestError.unwinds
      (deliverHttpResponse c callout response code) := by
  unfold ProxyWasmHost.deliverHttpResponse
  refine .known inferInstance (fun _ => wireSize_finds) fun headers hheaders => ?_
  refine .known inferInstance (fun _ => wireSize_finds) fun body hbody => ?_
  refine .known inferInstance (fun _ => wireSize_finds) fun trailers htrailers => ?_
  exact .deliver _ (.httpResponse hbrings hheaders hbody htrailers)

theorem deliverGrpcClose {brings : Delivery → Prop} {callout : CalloutId} {status : GrpcStatus}
    (hbrings : brings (.grpcClose callout status)) :
    Built (·.Faithful brings) GuestError.unwinds (deliverGrpcClose c callout status code) := by
  unfold ProxyWasmHost.deliverGrpcClose
  exact .bind inferInstance fun _ => .deliver _ (.grpcClose hbrings)

/-! ### The end of a context -/

instance onDone : Built makes GuestError.unwinds (onDone c code) := by
  unfold ProxyWasmHost.onDone
  infer_instance

instance dropOpenCallouts : Built makes GuestError.unwinds (dropOpenCallouts c) := by
  unfold ProxyWasmHost.dropOpenCallouts
  have hdrop : ∀ ids : List CalloutId, Built makes GuestError.unwinds
      (Prog.act (fun _ => .dropped ids)
        (·.mapCallouts fun table => ids.foldl .remove table) : Method Unit) := .drop
  infer_instance

/-- The deliveries of a deletion: the failures of callouts. -/
def Fails (d : Delivery) : Prop :=
  ∃ callout, d = .httpCallResponse callout .failed ∨ d = .grpcClose callout ⟨cancelled, []⟩

instance failEach {codes : CalloutId → Code} {callouts : List (CalloutId × CalloutKind)} :
    Built (·.Faithful Fails) GuestError.unwinds (failEach c codes callouts) := by
  induction callouts with
  | nil => exact pure
  | cons entry rest ih =>
    obtain ⟨callout, kind⟩ := entry
    have hhttp : Built (·.Faithful Fails) GuestError.unwinds
        (ProxyWasmHost.deliverHttpResponse c callout .failed (codes callout)) :=
      deliverHttpResponse ⟨callout, .inl rfl⟩
    have hgrpc : Built (·.Faithful Fails) GuestError.unwinds
        (ProxyWasmHost.deliverGrpcClose c callout ⟨cancelled, []⟩ (codes callout)) :=
      deliverGrpcClose ⟨callout, .inr rfl⟩
    unfold ProxyWasmHost.failEach
    refine .bind inferInstance fun entry => ?_
    cases entry with
    | none => exact ih
    | some entry => cases kind <;> infer_instance

instance failOpenCallouts {root : ContextId} {codes : CalloutId → Code} :
    Built (·.Faithful Fails) GuestError.unwinds (failOpenCallouts c root codes) := by
  unfold ProxyWasmHost.failOpenCallouts
  infer_instance

theorem silent_removeContext (c : ContextId) (isRoot : Bool) :
    Silent (·.mapAbi fun abi =>
      let abi := { abi with contexts := abi.contexts.remove c }
      if isRoot then abi.forgetRegistrant c else abi) := by
  cases isRoot <;>
    exact silent_of_eq (fun _ => rfl) (fun _ => rfl) (fun _ => rfl) (fun _ => rfl) fun _ => rfl

instance removeContext {isRoot : Bool} : Built makes GuestError.unwinds (removeContext c isRoot) :=
  .tell (silent_removeContext c isRoot) fun s => .inr ⟨c, s.abi, rfl⟩

instance delete {codes : CalloutId → Code} :
    Built (·.Faithful Fails) GuestError.unwinds (delete c codes code) := by
  unfold ProxyWasmHost.delete
  refine .bind inferInstance fun table => ?_
  dsimp only
  cases table.parent c <;> infer_instance

theorem silent_markDeleting (mark : Option ContextId) :
    Silent (·.mapAbi fun abi => { abi with deleting := mark }) :=
  silent_of_eq (fun _ => rfl) (fun _ => rfl) (fun _ => rfl) (fun _ => rfl) fun _ => rfl

instance onDelete {codes : CalloutId → Code} :
    Built (·.Faithful Fails) GuestError.unwinds (onDelete c codes code) := by
  unfold ProxyWasmHost.onDelete
  refine .bind inferInstance fun _ => .bind inferInstance fun _ => .bind inferInstance fun _ => ?_
  refine .bind (.change (silent_markDeleting _)) fun _ => ?_
  exact .closing inferInstance (silent_markDeleting none)

/-! ## The methods of a guest -/

theorem silent_enter (stream : Lent) : Silent fun s =>
    { s.mapAbi fun abi => { abi with streamState := some stream } with
      detached := none
      scope := some ⟨none, stream.type⟩ } :=
  silent_of_eq (fun _ => rfl) (fun _ => rfl) (fun _ => rfl) (fun _ => rfl) fun _ => rfl

instance enter {stream : Lent} : Built makes GuestError.unwinds (enter stream) :=
  .change (silent_enter stream)

/-- A scope that is dropped poisons a guest whose callback never returned, and no
    other. -/
theorem silent_dropped : Silent dropped where
  callouts s := by unfold dropped; dsimp only; split <;> rfl
  delivery s := by unfold dropped; dsimp only; split <;> rfl
  limits s := by unfold dropped; dsimp only; split <;> rfl
  live s := by
    unfold dropped
    dsimp only
    split
    · rename_i hrunning
      constructor
      · rintro ⟨-, hlive⟩
        cases hlive
      · rintro ⟨hidle, -⟩
        rw [hidle] at hrunning
        cases hrunning
    · exact ⟨fun h => ⟨h.idle, h.live⟩, fun h => ⟨h.idle, h.live⟩⟩

/-! ### Deliveries, ticks and queues -/

instance onLog : Built makes GuestError.unwinds (onLog c code) := by
  unfold ProxyWasmHost.onLog
  infer_instance

instance onHttpCallResponse {callout : CalloutId} {response : HttpCallResponse} :
    Built (·.Faithful (· = .httpCallResponse callout response)) GuestError.unwinds
      (onHttpCallResponse c callout response code) := by
  have hdeliver : ∀ root, Built (·.Faithful (· = .httpCallResponse callout response))
      GuestError.unwinds (ProxyWasmHost.deliverHttpResponse root callout response code) :=
    fun _ => deliverHttpResponse rfl
  unfold ProxyWasmHost.onHttpCallResponse
  infer_instance

instance onGrpcReceiveInitialMetadata {callout : CalloutId} {metadata : List Pair} :
    Built (·.Faithful (· = .grpcInitialMetadata callout metadata)) GuestError.unwinds
      (onGrpcReceiveInitialMetadata c callout metadata code) := by
  unfold ProxyWasmHost.onGrpcReceiveInitialMetadata
  refine .bind inferInstance fun _ => .bind inferInstance fun entry => ?_
  refine .known inferInstance (fun _ => wireSize_finds) fun count hcount => ?_
  exact .deliver _ (.single rfl rfl rfl (congrArg some hcount.symm))

instance onGrpcReceive {callout : CalloutId} {message : Bytes} :
    Built (·.Faithful (· = .grpcMessage callout message)) GuestError.unwinds
      (onGrpcReceive c callout message code) := by
  unfold ProxyWasmHost.onGrpcReceive
  refine .bind inferInstance fun _ => .bind inferInstance fun entry => ?_
  refine .known inferInstance (fun _ => wireSize_finds) fun size hsize => ?_
  exact .deliver _ (.single rfl rfl rfl (congrArg some hsize.symm))

instance onGrpcReceiveTrailingMetadata {callout : CalloutId} {metadata : List Pair} :
    Built (·.Faithful (· = .grpcTrailingMetadata callout metadata)) GuestError.unwinds
      (onGrpcReceiveTrailingMetadata c callout metadata code) := by
  unfold ProxyWasmHost.onGrpcReceiveTrailingMetadata
  refine .bind inferInstance fun _ => .bind inferInstance fun entry => ?_
  refine .known inferInstance (fun _ => wireSize_finds) fun count hcount => ?_
  exact .deliver _ (.single rfl rfl rfl (congrArg some hcount.symm))

instance onGrpcClose {callout : CalloutId} {status : GrpcStatus} :
    Built (·.Faithful (· = .grpcClose callout status)) GuestError.unwinds
      (onGrpcClose c callout status code) := by
  have hdeliver : ∀ root, Built (·.Faithful (· = .grpcClose callout status)) GuestError.unwinds
      (ProxyWasmHost.deliverGrpcClose root callout status code) := fun _ => deliverGrpcClose rfl
  unfold ProxyWasmHost.onGrpcClose
  infer_instance

instance onTick : Built makes GuestError.unwinds (onTick c code) := by
  unfold ProxyWasmHost.onTick
  infer_instance

instance onQueueReady {queue : QueueId} :
    Built makes GuestError.unwinds (onQueueReady c queue code) := by
  unfold ProxyWasmHost.onQueueReady
  infer_instance

instance onForeignFunction {functionId : UInt32} {arguments : Bytes} :
    Built (·.Faithful (· = .foreignArguments arguments)) GuestError.unwinds
      (onForeignFunction c functionId arguments code) := by
  unfold ProxyWasmHost.onForeignFunction
  refine .bind inferInstance fun _ => .bind inferInstance fun _ => .bind inferInstance fun _ => ?_
  refine .known inferInstance (fun _ => wireSize_finds) fun size hsize => ?_
  exact .deliver _ (.single rfl rfl rfl (congrArg some hsize.symm))

/-! ### The start of a plugin -/

theorem silent_started : Silent (·.mapAbi fun abi => { abi with vmStarted := true }) :=
  silent_of_eq (fun _ => rfl) (fun _ => rfl) (fun _ => rfl) (fun _ => rfl) fun _ => rfl

instance startRun {plugin : PluginConfig} {codes : StartCodes} :
    Built makes (fun e : Callback × GuestError => e.2.unwinds) (startRun c plugin codes) := by
  have hstarted : Built makes (fun e : Callback × GuestError => e.2.unwinds) (Prog.modify fun s : Session =>
      s.mapAbi fun abi => { abi with vmStarted := true }) := .change silent_started
  have hvm : Built makes GuestError.unwinds (ProxyWasmHost.onVmStart c codes.vmStart) :=
    inferInstance
  have hplugin : Built makes GuestError.unwinds
    (ProxyWasmHost.onConfigure c plugin codes.configure) := inferInstance
  have hvmStart : Built makes (fun e : Callback × GuestError => e.2.unwinds)
      (Prog.mapErr (Callback.vmStart, ·) (ProxyWasmHost.onVmStart c codes.vmStart)) :=
    .mapErr (fun _ => rfl) hvm
  have hconfigure : Built makes (fun e : Callback × GuestError => e.2.unwinds)
      (Prog.mapErr (Callback.configure, ·) (ProxyWasmHost.onConfigure c plugin codes.configure)) :=
    .mapErr (fun _ => rfl) hplugin
  unfold ProxyWasmHost.startRun
  dsimp only
  infer_instance

/-- A program that goes on as another does. -/
theorem bind_congr {f f' : α → Prog Session Event ε β} (hf : ∀ a, f a = f' a)
    (h : Built makes unw (m >>= f')) : Built makes unw (m >>= f) := by
  rw [funext hf]
  exact h

instance start {plugin : PluginConfig} {codes : StartCodes} :
    Built makes GuestError.unwinds (start plugin codes) := by
  unfold ProxyWasmHost.start
  refine .bind inferInstance fun table => ?_
  have henter : Built makes GuestError.unwinds enterRoot := enter
  dsimp only
  have hrun : ∀ f : ContextId × Except (Callback × GuestError) Started → Method Started,
      (∀ result, f result = rescuing Prod.snd (fun root e s => s.mapContexts fun table =>
        if e.1 = .vmStart then table.rejectVm root else table.reject root) result) →
      Built makes GuestError.unwinds (Prog.cleanedUp (do
        let root ← ProxyWasmHost.onContextCreate none codes.contextCreate
        return (root, ← Prog.attempt (ProxyWasmHost.startRun root plugin codes))) dropped >>= f) :=
    fun f hf => bind_congr hf (.rescued (fun _ => rfl) inferInstance (fun _ => inferInstance)
      silent_dropped fun _ _ => silent_mapContexts _)
  split
  · exact .bind throw fun _ => .bind henter fun _ => hrun _ (by rintro ⟨root, _ | _⟩ <;> rfl)
  · exact .bind henter fun _ => hrun _ (by rintro ⟨root, _ | _⟩ <;> rfl)

/-! ### The callbacks of a stream -/

section Stream

variable {count : UInt32} {endOfStream : Bool} {peer : PeerType}

instance onRequestHeaders : Built makes GuestError.unwinds (onRequestHeaders c count endOfStream code) := by
  unfold ProxyWasmHost.onRequestHeaders
  dsimp only
  infer_instance

instance onRequestBody : Built makes GuestError.unwinds (onRequestBody c count endOfStream code) := by
  unfold ProxyWasmHost.onRequestBody
  dsimp only
  infer_instance

instance onRequestTrailers : Built makes GuestError.unwinds (onRequestTrailers c count code) := by
  unfold ProxyWasmHost.onRequestTrailers
  infer_instance

instance onResponseHeaders :
    Built makes GuestError.unwinds (onResponseHeaders c count endOfStream code) := by
  unfold ProxyWasmHost.onResponseHeaders
  dsimp only
  infer_instance

instance onResponseBody : Built makes GuestError.unwinds (onResponseBody c count endOfStream code) := by
  unfold ProxyWasmHost.onResponseBody
  dsimp only
  infer_instance

instance onResponseTrailers : Built makes GuestError.unwinds (onResponseTrailers c count code) := by
  unfold ProxyWasmHost.onResponseTrailers
  infer_instance

instance onNewConnection : Built makes GuestError.unwinds (onNewConnection c code) := streamAction

instance onDownstreamData : Built makes GuestError.unwinds (onDownstreamData c count endOfStream code) := by
  unfold ProxyWasmHost.onDownstreamData
  dsimp only
  infer_instance

instance onUpstreamData : Built makes GuestError.unwinds (onUpstreamData c count endOfStream code) := by
  unfold ProxyWasmHost.onUpstreamData
  dsimp only
  infer_instance

instance onDownstreamConnectionClose :
    Built makes GuestError.unwinds (onDownstreamConnectionClose c peer code) := streamEvent

instance onUpstreamConnectionClose :
    Built makes GuestError.unwinds (onUpstreamConnectionClose c peer code) := streamEvent

end Stream

/-! ### The calls -/

instance replying {m : Method α} {reply : α → Reply} [h : Built makes GuestError.unwinds m] :
    Built makes GuestError.unwinds (replying m reply) := by
  unfold ProxyWasmHost.replying
  infer_instance

instance setServices {services : VmServices} : Built makes GuestError.unwinds
    (Prog.modify (·.mapAbi fun abi => { abi with services }) : Method Unit) :=
  .change (silent_of_eq (fun _ => rfl) (fun _ => rfl) (fun _ => rfl) (fun _ => rfl) fun _ => rfl)

theorem silent_detach : Silent fun s => { s with detached := none } :=
  silent_of_eq (fun _ => rfl) (fun _ => rfl) (fun _ => rfl) (fun _ => rfl) fun _ => rfl

instance takeStream {type : ℕ} : Built makes GuestError.unwinds (takeStream type) := by
  have hdetach : Built makes GuestError.unwinds
      (Prog.modify fun s => { s with detached := none } : Method Unit) := .change silent_detach
  unfold ProxyWasmHost.takeStream
  infer_instance

instance takeStreamAny : Built makes GuestError.unwinds takeStreamAny := by
  have hdetach : Built makes GuestError.unwinds
      (Prog.modify fun s => { s with detached := none } : Method Unit) := .change silent_detach
  unfold ProxyWasmHost.takeStreamAny
  infer_instance

instance dropScope : Built makes GuestError.unwinds (Prog.modify dropped : Method Unit) :=
  .change silent_dropped

instance forgetScope : Built makes GuestError.unwinds
    (Prog.modify fun s => { s with scope := none } : Method Unit) :=
  .change (silent_of_eq (fun _ => rfl) (fun _ => rfl) (fun _ => rfl) (fun _ => rfl) fun _ => rfl)

/-- **What an embedder calls is built of the pieces**, but for two calls: one that takes the
    changes the guest reported, and one that panics when the scope has lost its stream
    state. -/
theorem perform {op : Op} (htake : op ≠ .takeChanges) (hfinish : op ≠ .finish) :
    Built (·.Faithful op.Brings) GuestError.unwinds op.perform := by
  cases op with
  | takeChanges => exact absurd rfl htake
  | finish => exact absurd rfl hfinish
  | onDelete => exact replying (h := onDelete)
  | onHttpCallResponse => exact replying (h := onHttpCallResponse)
  | onGrpcReceiveInitialMetadata => exact replying (h := onGrpcReceiveInitialMetadata)
  | onGrpcReceive => exact replying (h := onGrpcReceive)
  | onGrpcReceiveTrailingMetadata => exact replying (h := onGrpcReceiveTrailingMetadata)
  | onGrpcClose => exact replying (h := onGrpcClose)
  | onForeignFunction => exact replying (h := onForeignFunction)
  | _ =>
    unfold Op.perform
    infer_instance

end Built

end ProxyWasmHost
