/-
  Refusals: a callback method that refuses before guest code could run leaves the guest
  and the scope as they were, but for the end of a stream that is asked for too early.
-/
import ProxyWasmHost.Guest.Path

namespace ProxyWasmHost

open Prog Session Prologue

variable {α β : Type} {s s₀ : Session}

/-- The errors by which a method refuses a call before the guest could run. -/
def GuestError.refuses : GuestError → Bool
  | .context _ _ | .callout _ _ | .queue _ _ | .guestRejected _ _
  | .runtime (.valueTooLarge _) => true
  | _ => false

/-- `m`, from `s`, leaves `s₀` and no trace when it refuses. -/
abbrev Spares (s₀ s : Session) (m : Method α) : Prop :=
  Leaves m (fun _ _ _ => True) (fun e t s' => e.refuses = true → t = [] ∧ s' = s₀)
    (fun _ _ => True) s

/-- `m` never refuses. -/
abbrev Serving (s : Session) (m : Method α) : Prop :=
  Leaves m (fun _ _ _ => True) (fun e _ _ => e.refuses = false) (fun _ _ => True) s

theorem Serving.spares {m : Method α} (h : Serving s m) : Spares s₀ s m :=
  h.mono (fun _ _ _ h => h) (fun _ _ _ he hr => by rw [he] at hr; cases hr) fun _ _ h => h

theorem Serving.bind {m : Method α} {f : α → Method β} (hm : Serving s m)
    (hf : ∀ a s', Serving s' (f a)) : Serving s (m >>= f) :=
  Leaves.bind (M := fun _ _ _ => True) hm fun a _ s' _ => hf a s'

/-- What comes after the checks. -/
theorem Spares.bind {m : Method α} {f : α → Method β} (hm : Spares s₀ s m)
    (hf : ∀ a s', Serving s' (f a)) : Spares s₀ s (m >>= f) := by
  refine Leaves.bind (M := fun _ _ _ => True) hm fun a t s' _ => ?_
  exact (hf a s').mono (fun _ _ _ h => h) (fun _ _ _ he hr => by rw [he] at hr; cases hr)
    fun _ _ h => h

/-- What comes after one check. -/
theorem Spares.check {m : Method α} {P : α → Prop} {f : α → Method β} (hm : Finds m P s)
    (hf : ∀ a, P a → Spares s s (f a)) : Spares s s (m >>= f) :=
  .bind_finds hm hf (fun _ _ => ⟨rfl, rfl⟩) trivial

theorem Spares.requireLive {f : Unit → Method α} (hf : s.Live → Spares s s (f ())) :
    Spares s s (requireLive >>= f) := by
  refine Leaves.bind (M := fun _ t s' => t = [] ∧ s' = s ∧ s.Live)
    ((requireLive_leaves s).mono (fun _ _ _ h => h) ?_ fun _ _ h => h.elim) ?_
  · rintro _ _ _ ⟨-, rfl, -⟩ hrefuses
    cases hrefuses
  · rintro _ _ _ ⟨rfl, rfl, hlive⟩
    exact hf hlive

/-! ## The call into the guest -/

/-- What a callback fails with never looks like a refusal. -/
theorem run_serving {c : ContextId} {callback : Callback} {params : List I32} {code : Code}
    {default : I32} (s : Session) : Serving s (run c callback params code default) := by
  have hcall : ∀ s, Leaves (callCallback callback code default) (fun _ _ _ => True)
      (fun e _ _ => e.unwinds = true) (fun _ _ => True) s := by
    intro s
    unfold callCallback
    refine .bind_read ?_
    split
    · have hzoom : Follows (fun _ _ _ => True) (Prog.zoom Session.host
          (fun s host => { s with host }) (callTyped code)) _ _ _ s :=
        .zoom rfl (fun _ _ _ _ => trivial) (callTyped_follows code s.host)
      refine (Leaves.of_follows hzoom).mono (fun _ _ _ _ => trivial) ?_ fun _ _ _ => trivial
      rintro e _ _ ⟨-, h, -, -, hunwinds⟩
      exact hunwinds
    · trivial
  unfold Prologue.run
  refine .bind_act (.bind (M := fun result _ _ => ∀ e, result = .error e → e.unwinds = true)
    (.attempt ((hcall _).mono ?_ ?_ fun _ _ h => h)) ?_)
  · rintro _ _ _ - e ⟨⟩
  · rintro e _ _ hunwinds _ ⟨⟩
    exact hunwinds
  · rintro (e | value) t s' hresult
    · refine .bind_act (.bind_emit (.throw ?_))
      have hunwinds := hresult e rfl
      cases e <;> first | rfl | cases hunwinds
    · exact .bind_act (.bind_emit trivial)

theorem boolean_serving {callback : Callback} {value : I32} (s : Session) :
    Serving s (boolean callback value) := by
  unfold boolean
  split
  · trivial
  · split
    · trivial
    · exact .throw rfl

theorem takeEnded_serving {call : Delivered} (s : Session) : Serving s (takeEnded call) := by
  unfold takeEnded
  split <;> trivial

theorem ofExcept_serving {result : Except GuestError α} (s : Session)
    (h : ∀ e, result = .error e → e.refuses = false) : Serving s (Prog.ofExcept result) := by
  cases result with
  | ok value => trivial
  | error e => exact h e rfl

/-- A delivery fails with what its callback failed with. -/
theorem deliver_serving {call : Delivered} {code : Code} (s : Session) :
    Serving s (deliver call code) := by
  unfold deliver
  refine (takeEnded_serving s).bind fun entry s' => .bind_modify ?_
  refine .bind (M := fun result _ _ => ∀ e, result = .error e → e.refuses = false)
    (.attempt ((run_serving _).mono ?_ ?_ fun _ _ h => h)) ?_
  · rintro _ _ _ - e ⟨⟩
  · rintro e _ _ he _ ⟨⟩
    exact he
  · intro result t s' hresult
    refine .bind_read (.bind_modify ?_)
    have hend : ∀ s, Serving s (do let _ ← Prog.ofExcept result) :=
      fun s => (ofExcept_serving s hresult).bind fun _ _ => trivial
    cases entry with
    | none => exact hend _
    | some entry =>
      dsimp only
      split
      · exact .bind_modify (hend _)
      · exact hend _

/-! ## The methods -/

/-- The scope of a session. -/
theorem Session.serving_of_served {c : ContextId} (h : s.scope.bind (·.served) = some c) :
    s.serving c = s := by
  unfold Session.serving
  cases hscope : s.scope with
  | none => rw [hscope] at h; cases h
  | some scope =>
    rw [hscope, Option.bind_some] at h
    obtain ⟨host, detached, exports, _⟩ := s
    obtain ⟨served, lends⟩ := scope
    cases hscope
    cases h
    rfl

section Methods

variable {c root : ContextId} {code : Code}

theorem requireServed_spares : Spares s s (requireServed c) := by
  unfold requireServed
  refine .bind_read ?_
  split
  · exact Spares.check .require fun _ _ => trivial
  · trivial

theorem prepareStream_spares {kind : StreamKind} : Spares s s (prepareStream c kind) := by
  unfold prepareStream
  refine .requireLive fun _ => ?_
  refine .check requireStream_finds fun _ _ => ?_
  refine .check accepted_finds fun _ _ => ?_
  refine .check requireStreamKind_finds fun _ _ => ?_
  exact requireServed_spares.bind fun _ _ => trivial

theorem streamAction_spares {kind : StreamKind} {callback : Callback}
    {announced : Option (BufferType × UInt32)} {params : List I32} :
    Spares s s (streamAction c kind callback announced params code) := by
  unfold streamAction
  refine prepareStream_spares.bind fun _ s' => .bind_modify ?_
  refine .bind (M := fun result _ _ => ∀ e, result = .error e → e.refuses = false)
    (.attempt ((run_serving _).mono ?_ ?_ fun _ _ h => h)) ?_
  · rintro _ _ _ - e ⟨⟩
  · rintro e _ _ he _ ⟨⟩
    exact he
  · intro result t s' hresult
    refine .bind_modify ((ofExcept_serving _ hresult).bind fun value s' => ?_)
    cases haction : Action.tryFrom value with
    | none => exact .throw rfl
    | some action => trivial

theorem streamEvent_spares {callback : Callback} {params : List I32} :
    Spares s s (streamEvent c callback params code) := by
  unfold streamEvent
  exact prepareStream_spares.bind fun _ s' => (run_serving s').bind fun _ _ => trivial

theorem expectStreamKind_spares {kind : StreamKind} :
    Spares s s (expectStreamKind c kind) := by
  unfold expectStreamKind
  refine .requireLive fun _ => ?_
  refine .check requireStream_finds fun _ _ => ?_
  exact .check requireStreamKind_finds fun _ _ => trivial

theorem onContextCreate_spares {parent : Option ContextId} :
    Spares s s (onContextCreate parent code) := by
  unfold onContextCreate
  refine .requireLive fun _ => ?_
  cases parent with
  | none =>
    refine .check vmAccepted_finds fun _ _ => ?_
    refine .bind_read (Spares.check .quiet fun made _ => ?_)
    refine Serving.spares (.bind_act ?_)
    exact (run_serving _).bind fun _ _ => trivial
  | some p =>
    refine .check requireRoot_finds fun _ _ => .check accepted_finds fun _ _ => ?_
    refine .bind_read (Spares.check .quiet fun made _ => ?_)
    refine Serving.spares (.bind_act ?_)
    exact (run_serving _).bind fun _ _ => trivial

theorem onVmStart_spares : Spares s s (onVmStart root code) := by
  unfold onVmStart
  refine .requireLive fun _ => ?_
  refine .check requireRoot_finds fun _ _ => ?_
  refine .check accepted_finds fun _ _ => ?_
  refine .bind_read (Spares.check .quiet fun size _ => Serving.spares ?_)
  refine (run_serving s).bind fun value s' => (boolean_serving s').bind fun accepted s' => ?_
  cases accepted <;> trivial

theorem onConfigure_spares {plugin : PluginConfig} :
    Spares s s (onConfigure root plugin code) := by
  unfold onConfigure
  refine .requireLive fun _ => ?_
  refine .check requireRoot_finds fun _ _ => ?_
  refine .check accepted_finds fun _ _ => ?_
  refine .check .quiet fun size _ => Serving.spares (.bind_modify ?_)
  refine (run_serving _).bind fun value s' => (boolean_serving s').bind fun accepted s' => ?_
  cases accepted <;> trivial

theorem onTick_spares : Spares s s (onTick root code) := by
  unfold onTick
  refine .requireLive fun _ => ?_
  refine .check requireRoot_finds fun _ _ => ?_
  refine .check accepted_finds fun _ _ => Serving.spares ?_
  exact (run_serving s).bind fun _ _ => trivial

theorem onQueueReady_spares {queue : QueueId} : Spares s s (onQueueReady root queue code) := by
  unfold onQueueReady
  refine .requireLive fun _ => ?_
  refine .check requireRoot_finds fun _ _ => ?_
  refine .check accepted_finds fun _ _ => .bind_read ?_
  refine Spares.check .require fun _ _ => Serving.spares ?_
  exact (run_serving s).bind fun _ _ => trivial

/-! ### Deliveries -/

section Callouts

variable {callout : CalloutId}

theorem onHttpCallResponse_spares {response : HttpCallResponse} :
    Spares s s (onHttpCallResponse c callout response code) := by
  unfold onHttpCallResponse
  refine .requireLive fun _ => ?_
  refine .check requireOpen_finds fun entry _ => ?_
  refine .check .require fun _ _ => ?_
  refine .check requireRoot_finds fun _ _ => ?_
  refine .check accepted_finds fun _ _ => ?_
  unfold deliverHttpResponse
  refine .check .quiet fun headers _ => ?_
  refine .check .quiet fun body _ => ?_
  exact .check .quiet fun trailers _ => (deliver_serving s).spares

/-- What every gRPC delivery does. -/
theorem grpcDelivery_spares {call : Callout → I32 → Delivered} {size : ℕ} : Spares s s (do
    requireLive
    let entry ← grpcAccepted c callout
    let count ← wireSize size
    deliver (call entry count) code) := by
  refine .requireLive fun _ => ?_
  refine .check grpcAccepted_finds fun entry _ => ?_
  exact .check .quiet fun count _ => (deliver_serving s).spares

theorem onGrpcReceiveInitialMetadata_spares {metadata : List Pair} :
    Spares s s (onGrpcReceiveInitialMetadata c callout metadata code) := grpcDelivery_spares

theorem onGrpcReceive_spares {message : Bytes} :
    Spares s s (onGrpcReceive c callout message code) := grpcDelivery_spares

theorem onGrpcReceiveTrailingMetadata_spares {metadata : List Pair} :
    Spares s s (onGrpcReceiveTrailingMetadata c callout metadata code) := grpcDelivery_spares

theorem onGrpcClose_spares {status : GrpcStatus} :
    Spares s s (onGrpcClose c callout status code) := grpcDelivery_spares

theorem onForeignFunction_spares {functionId : UInt32} {arguments : Bytes} :
    Spares s s (onForeignFunction c functionId arguments code) := by
  unfold onForeignFunction
  refine .requireLive fun _ => ?_
  refine .check require_finds fun _ _ => ?_
  refine .check accepted_finds fun _ _ => ?_
  exact .check .quiet fun size _ => (deliver_serving s).spares

end Callouts

/-! ### The end of a stream -/

/-- The scope serves no stream yet, and `c` is one. -/
def Session.Unserved (s : Session) (c : ContextId) : Prop :=
  s.abi.contexts.contextType c = some .stream ∧ s.scope.bind (·.served) = none

/-- A scope that serves no stream chooses `c` before anything else is checked. -/
theorem requireServedStream_leaves (s : Session) (c : ContextId) :
    Leaves (requireServedStream c)
      (fun _ t s' => t = [] ∧ (s' = s ∨ s.Unserved c ∧ s' = s.serving c))
      (fun e t s' => e.refuses = true → t = [] ∧ s' = s) (fun _ _ => True) s := by
  unfold requireServedStream
  refine .bind_read ?_
  split
  · rename_i hstream
    unfold requireServed
    refine .bind_read ?_
    split
    · rename_i lent hlent
      refine .bind_finds .require (fun _ hc => ?_) (fun _ _ => ⟨rfl, rfl⟩) trivial
      subst hc
      exact ⟨rfl, .inl (serving_of_served hlent)⟩
    · rename_i hnone
      exact ⟨rfl, .inr ⟨⟨hstream, hnone⟩, rfl⟩⟩
  · exact ⟨rfl, .inl rfl⟩

theorem requireDone_of_done (h : s.abi.contexts.state c = some .done) :
    (requireDone c).run s = ⟨.ok (), s, []⟩ := by
  have hknown : ∃ type, s.abi.contexts.contextType c = some type := by
    unfold ContextTable.state at h
    obtain ⟨entry, hget, -⟩ := Option.map_eq_some_iff.1 h
    exact ⟨entry.contextType, by unfold ContextTable.contextType; rw [hget]; rfl⟩
  obtain ⟨type, htype⟩ := hknown
  unfold requireDone
  rw [bind_of_ok_nil (require_of_known htype)]
  show (Prog.require (s.abi.contexts.state c = some .done) _ : Method Unit).run s = _
  unfold Prog.require
  rw [if_pos h]
  rfl

theorem requireDeletable_of_done (h : s.abi.contexts.state c = some .done)
    (hchildren : s.abi.contexts.hasChildren c = false) :
    (requireDeletable c).run s = ⟨.ok (), s, []⟩ := by
  unfold requireDeletable
  rw [bind_of_ok_nil (requireDone_of_done h)]
  show (Prog.require (¬ s.abi.contexts.hasChildren c = true) _ : Method Unit).run s = _
  unfold Prog.require
  rw [hchildren]
  rfl

/-- The end of a stream, whose own check `m` lets through what the scope chose. -/
theorem Spares.ofServed {m : Method α} {P : α → Prop} {f : α → Method β} {a : α}
    (hm : Finds m P s) (hserved : s.Unserved c → m.run (s.serving c) = ⟨.ok a, s.serving c, []⟩)
    (hf : ∀ a s', Serving s' (f a)) :
    Spares s s (do requireServedStream c; let a ← m; f a) := by
  refine Leaves.bind (requireServedStream_leaves s c) ?_
  rintro _ _ _ ⟨rfl, rfl | ⟨hunserved, rfl⟩⟩
  · exact Spares.check hm fun a _ => (hf a _).spares
  · exact Serving.spares (.bind_ok (hserved hunserved) (hf a _))

theorem onDone_spares : Spares s s (onDone c code) := by
  unfold onDone
  refine .requireLive fun _ => ?_
  refine .ofServed (a := .stream) require_finds (fun hunserved => require_of_known hunserved.1) ?_
  intro _ s'
  refine (run_serving s').bind fun value s' => (boolean_serving s').bind fun done s' => ?_
  trivial

theorem onLog_spares (h : ¬ (s.Unserved c ∧ s.abi.contexts.state c ≠ some .done)) :
    Spares s s (onLog c code) := by
  unfold onLog
  refine .requireLive fun _ => ?_
  refine .ofServed (a := ()) requireDone_finds (fun hunserved => ?_) fun _ s' => ?_
  · exact requireDone_of_done (s := s.serving c) (not_not.1 fun hstate => h ⟨hunserved, hstate⟩)
  · exact (run_serving s').bind fun _ _ => trivial

theorem dropOpenCallouts_serving (s : Session) : Serving s (dropOpenCallouts c) := trivial

theorem failEach_serving (codes : CalloutId → Code) (rest : List (CalloutId × CalloutKind))
    (s : Session) : Serving s (failEach root codes rest) := by
  induction rest generalizing s with
  | nil => trivial
  | cons entry rest ih =>
    obtain ⟨callout, kind⟩ := entry
    rw [failEach_cons]
    refine .bind_read ?_
    split
    · exact ih s
    · refine (deliver_serving s).bind fun _ s' => ?_
      exact (ih s').bind fun _ _ => trivial

theorem failOpenCallouts_serving (codes : CalloutId → Code) (s : Session) :
    Serving s (failOpenCallouts c root codes) := by
  unfold failOpenCallouts
  refine .bind_read (.bind_read ?_)
  split
  · exact dropOpenCallouts_serving s
  · exact failEach_serving codes _ s

theorem delete_serving (codes : CalloutId → Code) (s : Session) :
    Serving s (delete c codes code) := by
  have hrest : ∀ (m : Method (List CalloutId)) (ended : List CalloutId) (isRoot : Bool) (s : Session),
      (∀ s, Serving s m) → Serving s (do
        let _ ← Prologue.run c .delete [c.wire] code 0
        removeContext c isRoot
        let failed ← m
        let dropped ← dropOpenCallouts c
        return ended ++ failed ++ dropped) := by
    intro m ended isRoot s hm
    refine (run_serving s).bind fun _ s' => ?_
    refine Serving.bind (m := removeContext c isRoot) trivial fun _ s' => ?_
    refine (hm s').bind fun failed s' => ?_
    exact (dropOpenCallouts_serving s').bind fun _ _ => trivial
  unfold delete
  refine .bind_read ?_
  dsimp only
  cases hparent : s.abi.contexts.parent c with
  | none =>
    refine (failOpenCallouts_serving codes s).bind fun ended s' => ?_
    exact hrest (Pure.pure []) ended true s' fun _ => trivial
  | some root =>
    refine Serving.bind (m := (Pure.pure [] : Method (List CalloutId))) trivial fun ended s' => ?_
    exact hrest (failOpenCallouts c root codes) ended false s' (failOpenCallouts_serving codes)

theorem onDelete_spares {codes : CalloutId → Code}
    (h : ¬ (s.Unserved c ∧ (s.abi.contexts.state c ≠ some .done ∨
      s.abi.contexts.hasChildren c = true))) : Spares s s (onDelete c codes code) := by
  unfold onDelete
  refine .requireLive fun _ => ?_
  refine .ofServed (a := ()) requireDeletable_finds (fun hunserved => ?_) fun _ s' => ?_
  · refine requireDeletable_of_done (s := s.serving c) (not_not.1 fun hstate => ?_)
      (Bool.eq_false_of_not_eq_true fun hchildren => ?_)
    · exact h ⟨hunserved, .inl hstate⟩
    · exact h ⟨hunserved, .inr hchildren⟩
  · refine .bind_modify (.bind (M := fun result _ _ => ∀ e, result = .error e → e.refuses = false)
      (.attempt ((delete_serving codes _).mono ?_ ?_ fun _ _ h => h)) ?_)
    · rintro _ _ _ - e ⟨⟩
    · rintro e _ _ he _ ⟨⟩
      exact he
    · exact fun result t s' hresult => .bind_modify (ofExcept_serving _ hresult)

end Methods

/-! ## Every method -/

/-- The end of a stream is asked for too early, in a scope that serves no stream yet. -/
def Op.Early (s : Session) : Op → Prop
  | .onLog c _ => s.Unserved c ∧ s.abi.contexts.state c ≠ some .done
  | .onDelete c _ _ => s.Unserved c ∧ (s.abi.contexts.state c ≠ some .done ∨
      s.abi.contexts.hasChildren c = true)
  | _ => False

theorem replying_spares {m : Method α} {reply : α → Reply} (h : Spares s s m) :
    Spares s s (replying m reply) :=
  h.bind fun _ _ => trivial

theorem Op.perform_spares {op : Op} (hin : op.inScope = true) (hleave : op.aim ≠ .leave)
    (h : ¬ op.Early s) : Spares s s op.perform := by
  cases op with
  | enter | start | setServices | takeStream | takeStreamAny | takeChanges | expectStreamKind =>
    cases hin
  | finish | dropScope | forgetScope => exact absurd rfl hleave
  | onContextCreate => exact replying_spares onContextCreate_spares
  | onVmStart => exact replying_spares onVmStart_spares
  | onConfigure => exact replying_spares onConfigure_spares
  | scopeExpectStreamKind => exact replying_spares expectStreamKind_spares
  | onRequestHeaders | onRequestBody | onRequestTrailers | onResponseHeaders | onResponseBody
  | onResponseTrailers | onDownstreamData | onUpstreamData =>
    exact replying_spares (.check .quiet fun _ _ => streamAction_spares)
  | onNewConnection => exact replying_spares streamAction_spares
  | onDownstreamConnectionClose | onUpstreamConnectionClose =>
    exact replying_spares streamEvent_spares
  | onDone => exact replying_spares onDone_spares
  | onLog => exact replying_spares (onLog_spares h)
  | onDelete => exact replying_spares (onDelete_spares h)
  | onTick => exact replying_spares onTick_spares
  | onQueueReady => exact replying_spares onQueueReady_spares
  | onHttpCallResponse => exact replying_spares onHttpCallResponse_spares
  | onGrpcReceiveInitialMetadata => exact replying_spares onGrpcReceiveInitialMetadata_spares
  | onGrpcReceive => exact replying_spares onGrpcReceive_spares
  | onGrpcReceiveTrailingMetadata => exact replying_spares onGrpcReceiveTrailingMetadata_spares
  | onGrpcClose => exact replying_spares onGrpcClose_spares
  | onForeignFunction => exact replying_spares onForeignFunction_spares

/-! ## A refusal that comes too late -/

theorem requireServedStream_of_unserved {c : ContextId} (h : s.Unserved c) :
    (requireServedStream c).run s = ⟨.ok (), s.serving c, []⟩ := by
  unfold requireServedStream
  show (if s.abi.contexts.contextType c = some .stream then requireServed c else _).run s = _
  rw [if_pos h.1]
  have hread : (Prog.read (·.scope) : Method _).run s = ⟨.ok s.scope, s, []⟩ := rfl
  unfold requireServed
  rw [bind_of_ok_nil hread, h.2]
  rfl

/-- The scope chose `c`, and the check that came after refused. -/
theorem Session.Unserved.serving_ne {c : ContextId} (h : s.Unserved c)
    (hscope : s.scope.isSome) : s.serving c ≠ s := by
  intro heq
  have hserved : (s.serving c).scope.bind (·.served) = some c := by
    unfold Session.serving
    obtain ⟨scope, hs⟩ := Option.isSome_iff_exists.1 hscope
    rw [hs]
    rfl
  rw [heq, h.2] at hserved
  cases hserved

theorem requireDone_of_early {c : ContextId} (h : s.abi.contexts.contextType c = some .stream)
    (hstate : s.abi.contexts.state c ≠ some .done) :
    (requireDone c).run s = ⟨.err (.context c .notDone), s, []⟩ := by
  unfold requireDone
  rw [bind_of_ok_nil (require_of_known h)]
  show (Prog.require (s.abi.contexts.state c = some .done) _ : Method Unit).run s = _
  unfold Prog.require
  rw [if_neg hstate]
  rfl

theorem requireDeletable_of_early {c : ContextId}
    (h : s.abi.contexts.contextType c = some .stream)
    (hearly : s.abi.contexts.state c ≠ some .done ∨ s.abi.contexts.hasChildren c = true) :
    ∃ problem, (requireDeletable c).run s = ⟨.err (.context c problem), s, []⟩ := by
  unfold requireDeletable
  by_cases hstate : s.abi.contexts.state c = some .done
  · have hchildren := hearly.resolve_left (not_not.2 hstate)
    refine ⟨.hasChildren, ?_⟩
    rw [bind_of_ok_nil (requireDone_of_done hstate)]
    show (Prog.require (¬ s.abi.contexts.hasChildren c = true) _ : Method Unit).run s = _
    unfold Prog.require
    rw [hchildren]
    rfl
  · exact ⟨.notDone, by rw [bind_of_err (requireDone_of_early h hstate)]⟩

/-- A call that asks for the end of a stream too early refuses, and the scope keeps the
    stream it chose. -/
theorem Op.Early.perform {op : Op} (h : op.Early s) (hlive : s.Live) : ∃ c problem,
    op.perform.run s = ⟨.err (.context c problem), s.serving c, []⟩ ∧ s.Unserved c := by
  cases op with
  | onLog c code =>
    refine ⟨c, .notDone, ?_, h.1⟩
    have hrun : (ProxyWasmHost.onLog c code).run s =
        ⟨.err (.context c .notDone), s.serving c, []⟩ := by
      unfold ProxyWasmHost.onLog
      rw [bind_of_ok_nil (requireLive_of_live hlive),
        bind_of_ok_nil (requireServedStream_of_unserved h.1),
        bind_of_err (requireDone_of_early (s := s.serving c) h.1.1 h.2)]
    exact bind_of_err hrun
  | onDelete c codes code =>
    obtain ⟨problem, hdeletable⟩ := requireDeletable_of_early (s := s.serving c) h.1.1 h.2
    have hrun : (ProxyWasmHost.onDelete c codes code).run s =
        ⟨.err (.context c problem), s.serving c, []⟩ := by
      unfold ProxyWasmHost.onDelete
      rw [bind_of_ok_nil (requireLive_of_live hlive),
        bind_of_ok_nil (requireServedStream_of_unserved h.1), bind_of_err hdeletable]
    exact ⟨c, problem, bind_of_err hrun, h.1⟩
  | _ => exact h.elim

/-- **A refused call changes nothing**, in a live guest with a scope, exactly when it does
    not ask for the end of a stream too early. -/
theorem Op.refusal_spares_iff {op : Op} (hin : op.inScope = true) (hleave : op.aim ≠ .leave)
    (hscope : s.scope.isSome) (hlive : s.Live) :
    (∀ e, (op.perform.run s).exit = .err e → e.refuses = true →
      (op.perform.run s).trace = [] ∧ (op.perform.run s).state = s) ↔ ¬ op.Early s := by
  constructor
  · intro h hearly
    obtain ⟨c, problem, hrun, hunserved⟩ := hearly.perform hlive
    have hsame := (h (.context c problem) (by rw [hrun]) rfl).2
    rw [hrun] at hsame
    exact hunserved.serving_ne hscope hsame
  · intro h e hexit
    have hspares := Op.perform_spares hin hleave h
    unfold Spares Leaves at hspares
    rw [hexit] at hspares
    exact hspares

/-! ## A log of a stream that is not done -/

namespace Refusal

/-- A guest with a root and two streams, in a scope that serves none of them yet. -/
def twoStreams : Run :=
  .of 1 .bare ⟨[], .info, [], [], 1, 2⟩ (.atMost none)
    [.enter .noStream, .onContextCreate none (.returning 0),
      .onContextCreate (some .min) (.returning 0),
      .onContextCreate (some .min) (.returning 0)]
    rfl (by decide)

def stream : ContextId := ⟨2, by decide, by decide⟩

def other : ContextId := ⟨3, by decide, by decide⟩

/-- The log of a stream that is not done. -/
def log : Op := .onLog stream (.returning 0)

/-- It is refused, and the scope refuses the other stream from then on. -/
theorem log_chooses : (log.perform.run twoStreams.last).exit =
      .err (.context stream .notDone) ∧
    (log.perform.run twoStreams.last).state.scope ≠ twoStreams.last.scope ∧
    ((Op.onNewConnection other (.returning 0)).perform.run twoStreams.last).exit =
      .ok (.action .continue) ∧
    ((Op.onNewConnection other (.returning 0)).perform.run
        (log.perform.run twoStreams.last).state).exit =
      .err (.context other (.otherStream stream)) := by
  refine ⟨rfl, by decide, rfl, rfl⟩

/-- The tick of a stream. -/
def tick : Op := .onTick stream (.returning 0)

/-- It is refused with the guest as it was. -/
theorem tick_spares : (tick.perform.run twoStreams.last).trace = [] ∧
    (tick.perform.run twoStreams.last).state = twoStreams.last :=
  (Op.refusal_spares_iff (by rfl) (by rintro ⟨⟩) (by decide) ⟨rfl, rfl⟩).2 id
    (.context stream .notRoot) rfl rfl

end Refusal

end ProxyWasmHost
