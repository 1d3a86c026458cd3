/-
  A guest that unwound, or whose callback never returned, runs no more: what every call
  of the embedder does to it, and what a call that fails otherwise leaves.
-/
import ProxyWasmHost.Guest.Staged

namespace ProxyWasmHost

open Prog Session Prologue

variable {s s' : Session} {α β : Type} {m : Method α} {f : α → Method β}

/-! ## A guest that is not live -/

/-- The guest after the check that refuses it, which poisons one whose last callback never
    returned. -/
def Session.barred (s : Session) : Session :=
  if s.abi.currentCallback.isSome then s.mapHost .poison else s

/-- What a call leaves of the contexts, the open callouts and the grants: all of them. -/
structure Session.Kept (s s' : Session) : Prop where
  limits : s'.host.limits = s.host.limits
  delivery : s'.abi.delivery = s.abi.delivery
  contexts : s'.abi.contexts = s.abi.contexts
  callouts : s'.abi.callouts = s.abi.callouts
  queues : s'.abi.queues = s.abi.queues
  metrics : s'.abi.metrics = s.abi.metrics
  heldNames : s'.abi.heldNames = s.abi.heldNames
  registrants : s'.abi.registrants = s.abi.registrants
  grantedAgainst : s'.abi.grantedAgainst = s.abi.grantedAgainst

namespace Session

theorem Kept.refl (s : Session) : s.Kept s := ⟨rfl, rfl, rfl, rfl, rfl, rfl, rfl, rfl, rfl⟩

theorem Kept.trans {s'' : Session} (h : s.Kept s') (h' : s'.Kept s'') : s.Kept s'' :=
  ⟨h'.limits.trans h.limits, h'.delivery.trans h.delivery, h'.contexts.trans h.contexts,
    h'.callouts.trans h.callouts, h'.queues.trans h.queues, h'.metrics.trans h.metrics,
    h'.heldNames.trans h.heldNames, h'.registrants.trans h.registrants,
    h'.grantedAgainst.trans h.grantedAgainst⟩

theorem kept_barred (s : Session) : s.Kept s.barred := by
  unfold barred
  split <;> exact ⟨rfl, rfl, rfl, rfl, rfl, rfl, rfl, rfl, rfl⟩

theorem kept_dropped (s : Session) : s.Kept (dropped s) := by
  unfold dropped
  dsimp only
  split <;> exact ⟨rfl, rfl, rfl, rfl, rfl, rfl, rfl, rfl, rfl⟩

theorem poisoned_barred (h : ¬ s.Live) : s.barred.host.poisoned = true := by
  unfold barred
  split
  · rfl
  · rename_i hidle
    by_contra hpoisoned
    exact h ⟨by simpa using hidle, by simpa using hpoisoned⟩

theorem not_live_of_poisoned (h : s.host.poisoned = true) : ¬ s.Live := by
  intro hlive
  rw [hlive.live] at h
  cases h

theorem not_live_barred (h : ¬ s.Live) : ¬ s.barred.Live :=
  not_live_of_poisoned (poisoned_barred h)

end Session

/-- The error of a call on a guest that is not live: it is poisoned, or the arguments are
    refused before anything looks at the guest. -/
def GuestError.barred : GuestError → Bool
  | .runtime .poisoned | .runtime (.valueTooLarge _) | .duplicateRootId _ _ => true
  | _ => false

/-- **`m` is refused** by a guest that is not live. -/
class Gated (m : Method α) : Prop where
  refused : ∀ s : Session, ¬ s.Live → m.run s = ⟨.err (.runtime .poisoned), s.barred, []⟩ ∨
    ∃ len, m.run s = ⟨.err (.runtime (.valueTooLarge len)), s, []⟩

namespace Gated

theorem requireLive_of_dead (hdead : ¬ s.Live) :
    requireLive.run s = ⟨.err (.runtime .poisoned), s.barred, []⟩ := by
  unfold Prologue.requireLive Session.barred
  rw [bind_of_ok_nil (a := s.abi.currentCallback) (r := s) rfl]
  dsimp only
  split
  · rw [bind_of_ok_nil (a := ()) (r := s.mapHost .poison) rfl]
    exact bind_of_ok_nil (a := true) (r := s.mapHost .poison) rfl
  · rename_i hidle
    have hpoisoned : s.host.poisoned = true := by
      by_contra hpoisoned
      exact hdead ⟨by simpa using hidle, by simpa using hpoisoned⟩
    rw [bind_of_ok_nil (a := true) (r := s) (by rw [← hpoisoned]; rfl)]
    rfl

instance requireLive : Gated requireLive := ⟨fun _ hdead => .inl (requireLive_of_dead hdead)⟩

instance bind [hm : Gated m] : Gated (m >>= f) := by
  refine ⟨fun s hdead => ?_⟩
  rcases hm.refused s hdead with hrun | ⟨len, hrun⟩
  · exact .inl (bind_of_err hrun)
  · exact .inr ⟨len, bind_of_err hrun⟩

instance wireU32 {value : UInt32} {f : I32 → Method β} [hf : ∀ v, Gated (f v)] :
    Gated (wireU32 value >>= f) := by
  refine ⟨fun s hdead => ?_⟩
  unfold Prologue.wireU32 Prog.require
  split
  · exact (hf value).refused s hdead
  · exact .inr ⟨value.toNat, rfl⟩

section Methods

variable {c : ContextId} {code : Code} {kind : StreamKind} {callback : Callback}
  {params : List I32} {announced : Option (BufferType × UInt32)} {count : UInt32}
  {endOfStream : Bool} {callout : CalloutId}

instance prepareStream : Gated (prepareStream c kind) := by
  unfold ProxyWasmHost.prepareStream
  infer_instance

instance streamAction : Gated (streamAction c kind callback announced params code) := by
  unfold ProxyWasmHost.streamAction
  infer_instance

instance streamEvent : Gated (streamEvent c callback params code) := by
  unfold ProxyWasmHost.streamEvent
  infer_instance

instance onContextCreate {parent : Option ContextId} : Gated (onContextCreate parent code) := by
  unfold ProxyWasmHost.onContextCreate
  infer_instance

instance onVmStart : Gated (onVmStart c code) := by
  unfold ProxyWasmHost.onVmStart
  infer_instance

instance onConfigure {plugin : PluginConfig} : Gated (onConfigure c plugin code) := by
  unfold ProxyWasmHost.onConfigure
  infer_instance

instance expectStreamKind : Gated (expectStreamKind c kind) := by
  unfold ProxyWasmHost.expectStreamKind
  infer_instance

instance onRequestHeaders : Gated (onRequestHeaders c count endOfStream code) := by
  unfold ProxyWasmHost.onRequestHeaders
  infer_instance

instance onRequestBody : Gated (onRequestBody c count endOfStream code) := by
  unfold ProxyWasmHost.onRequestBody
  infer_instance

instance onRequestTrailers : Gated (onRequestTrailers c count code) := by
  unfold ProxyWasmHost.onRequestTrailers
  infer_instance

instance onResponseHeaders : Gated (onResponseHeaders c count endOfStream code) := by
  unfold ProxyWasmHost.onResponseHeaders
  infer_instance

instance onResponseBody : Gated (onResponseBody c count endOfStream code) := by
  unfold ProxyWasmHost.onResponseBody
  infer_instance

instance onResponseTrailers : Gated (onResponseTrailers c count code) := by
  unfold ProxyWasmHost.onResponseTrailers
  infer_instance

instance onNewConnection : Gated (onNewConnection c code) := streamAction

instance onDownstreamData : Gated (onDownstreamData c count endOfStream code) := by
  unfold ProxyWasmHost.onDownstreamData
  infer_instance

instance onUpstreamData : Gated (onUpstreamData c count endOfStream code) := by
  unfold ProxyWasmHost.onUpstreamData
  infer_instance

instance onDownstreamConnectionClose {peer : PeerType} :
    Gated (onDownstreamConnectionClose c peer code) := streamEvent

instance onUpstreamConnectionClose {peer : PeerType} :
    Gated (onUpstreamConnectionClose c peer code) := streamEvent

instance onDone : Gated (onDone c code) := by
  unfold ProxyWasmHost.onDone
  infer_instance

instance onLog : Gated (onLog c code) := by
  unfold ProxyWasmHost.onLog
  infer_instance

instance onDelete {codes : CalloutId → Code} : Gated (onDelete c codes code) := by
  unfold ProxyWasmHost.onDelete
  infer_instance

instance onTick : Gated (onTick c code) := by
  unfold ProxyWasmHost.onTick
  infer_instance

instance onQueueReady {queue : QueueId} : Gated (onQueueReady c queue code) := by
  unfold ProxyWasmHost.onQueueReady
  infer_instance

instance onHttpCallResponse {response : HttpCallResponse} :
    Gated (onHttpCallResponse c callout response code) := by
  unfold ProxyWasmHost.onHttpCallResponse
  infer_instance

instance onGrpcReceiveInitialMetadata {metadata : List Pair} :
    Gated (onGrpcReceiveInitialMetadata c callout metadata code) := by
  unfold ProxyWasmHost.onGrpcReceiveInitialMetadata
  infer_instance

instance onGrpcReceive {message : Bytes} : Gated (onGrpcReceive c callout message code) := by
  unfold ProxyWasmHost.onGrpcReceive
  infer_instance

instance onGrpcReceiveTrailingMetadata {metadata : List Pair} :
    Gated (onGrpcReceiveTrailingMetadata c callout metadata code) := by
  unfold ProxyWasmHost.onGrpcReceiveTrailingMetadata
  infer_instance

instance onGrpcClose {status : GrpcStatus} : Gated (onGrpcClose c callout status code) := by
  unfold ProxyWasmHost.onGrpcClose
  infer_instance

instance onForeignFunction {functionId : UInt32} {arguments : Bytes} :
    Gated (onForeignFunction c functionId arguments code) := by
  unfold ProxyWasmHost.onForeignFunction
  infer_instance

instance replying {reply : α → Reply} [Gated m] : Gated (replying m reply) := by
  unfold ProxyWasmHost.replying
  infer_instance

end Methods

end Gated

/-! ## What a call does to a guest that is not live -/

/-- Whether a call is one of the callback methods, or declares the family of a stream. -/
def Op.reachesGuest : Op → Bool
  | .enter _ | .setServices _ | .takeStream _ | .takeStreamAny | .takeChanges | .finish
  | .dropScope | .forgetScope => false
  | _ => true

/-- A call that a guest refuses: nothing is visible of it, and nothing changes. -/
structure Op.Refused (op : Op) (s : Session) : Prop where
  silent : (op.perform.run s).trace = []
  kept : s.Kept (op.perform.run s).state
  dead : ¬ (op.perform.run s).state.Live
  answer : op.reachesGuest = true → ∃ e, (op.perform.run s).exit = .err e ∧ e.barred = true ∧
    (e.unwinds = false → (op.perform.run s).state.host.poisoned = s.host.poisoned)

theorem Op.Refused.of_gated {op : Op} (hdead : ¬ s.Live) (h : Gated op.perform) :
    op.Refused s := by
  rcases h.refused s hdead with hrun | ⟨len, hrun⟩
  · exact ⟨by rw [hrun], by rw [hrun]; exact s.kept_barred,
      by rw [hrun]; exact not_live_barred hdead, fun _ => ⟨_, by rw [hrun], rfl, by rintro ⟨⟩⟩⟩
  · exact ⟨by rw [hrun], by rw [hrun]; exact .refl s, by rw [hrun]; exact hdead,
      fun _ => ⟨_, by rw [hrun], rfl, fun _ => by rw [hrun]⟩⟩

/-- The guest that a scope borrows. -/
theorem Session.kept_entered (s : Session) (stream : Lent) : s.Kept
    { s.mapAbi fun abi => { abi with streamState := some stream } with
      detached := none, scope := some ⟨none, stream.type⟩ } :=
  ⟨rfl, rfl, rfl, rfl, rfl, rfl, rfl, rfl, rfl⟩

theorem not_live_dropped (h : ¬ s.Live) : ¬ (dropped s).Live :=
  mt (Built.silent_dropped.live s).1 h

/-- A start is refused too, once it entered its scope. -/
theorem start_of_dead (plugin : PluginConfig) (codes : StartCodes) (hdead : ¬ s.Live) :
    ∃ e s', (start plugin codes).run s = ⟨.err e, s', []⟩ ∧ e.barred = true ∧ s.Kept s' ∧
      ¬ s'.Live ∧ (e.unwinds = false → s' = s) := by
  unfold start
  rw [bind_of_ok_nil (a := s.abi.contexts) (r := s) rfl]
  dsimp only
  split
  · exact ⟨_, s, bind_of_err rfl, rfl, .refl s, hdead, fun _ => rfl⟩
  · let entered : Session := { s.mapAbi fun abi => { abi with streamState := some .noStream } with
      detached := none, scope := some ⟨none, Lent.noStream.type⟩ }
    have hentered : ¬ entered.Live := mt ((Built.silent_enter .noStream).live s).1 hdead
    have hcreate : (onContextCreate none codes.contextCreate).run entered =
        ⟨.err (.runtime .poisoned), entered.barred, []⟩ :=
      bind_of_err (Gated.requireLive_of_dead hentered)
    rw [bind_of_ok_nil (a := ()) (r := entered) rfl]
    refine ⟨.runtime .poisoned, dropped entered.barred, bind_of_err ?_, rfl, ?_, ?_, by rintro ⟨⟩⟩
    · simp only [Prog.cleanedUp, bind_of_err hcreate]
    · exact ((s.kept_entered .noStream).trans entered.kept_barred).trans (Session.kept_dropped _)
    · exact not_live_dropped (not_live_barred hentered)

/-- A call that runs no callback. -/
theorem Op.Refused.of_idle {op : Op} (hidle : op.reachesGuest = false)
    (hsilent : (op.perform.run s).trace = []) (hkept : s.Kept (op.perform.run s).state)
    (hdead : ¬ (op.perform.run s).state.Live) : op.Refused s := by
  refine ⟨hsilent, hkept, hdead, fun hreaches => ?_⟩
  rw [hidle] at hreaches
  cases hreaches

theorem not_live_of_eq (h : ¬ s.Live) (hpoisoned : s'.host.poisoned = s.host.poisoned)
    (hcurrent : s'.abi.currentCallback = s.abi.currentCallback) : ¬ s'.Live :=
  fun hlive => h ⟨hcurrent.symm.trans hlive.idle, hpoisoned.symm.trans hlive.live⟩

/-- The end of a scope leaves no trace. -/
theorem finish_run (s : Session) : ∃ exit, finish.run s = ⟨exit, dropped (takeStreamState
    (if s.abi.currentCallback.isSome then s.mapHost .poison else s)), []⟩ := by
  have hquiet : Quiet (Prog.orPanic (s.abi.streamState.bind fun lent =>
    if lent.type = s.scope.bind (·.lends) then some lent else none) : Method Lent) := inferInstance
  unfold finish
  rw [bind_of_ok_nil (a := s) (r := s) rfl, bind_of_ok_nil (a := ()) rfl]
  exact hquiet.looks _

theorem finish_refused (hdead : ¬ s.Live) : Op.finish.Refused s := by
  obtain ⟨exit, hfinish⟩ := finish_run s
  obtain ⟨htrace, hstate⟩ := replying_run finish (fun stream => .stream (some stream)) s
  rw [hfinish] at htrace hstate
  refine .of_idle rfl htrace ?_ ?_
  · show s.Kept ((replying finish _).run s).state
    rw [hstate]
    refine Session.Kept.trans ?_ (Session.kept_dropped _)
    split <;> exact ⟨rfl, rfl, rfl, rfl, rfl, rfl, rfl, rfl, rfl⟩
  · show ¬ ((replying finish _).run s).state.Live
    rw [hstate]
    refine not_live_dropped ?_
    split
    · exact not_live_of_poisoned rfl
    · exact not_live_of_eq hdead rfl rfl

theorem takeStream_refused {type : ℕ} (hdead : ¬ s.Live) : (Op.takeStream type).Refused s := by
  obtain ⟨htrace, hstate⟩ := replying_run (takeStream type) .stream s
  have htake : ∃ exit s', (takeStream type).run s = ⟨exit, s', []⟩ ∧ s.Kept s' ∧ ¬ s'.Live := by
    unfold takeStream
    rw [bind_of_ok_nil (a := s.detached) (r := s) rfl]
    split
    · exact ⟨_, _, bind_of_ok_nil (a := ()) (r := { s with detached := none }) rfl,
        ⟨rfl, rfl, rfl, rfl, rfl, rfl, rfl, rfl, rfl⟩, not_live_of_eq hdead rfl rfl⟩
    · exact ⟨_, s, rfl, .refl s, hdead⟩
  obtain ⟨exit, s', htake, hkept, hdead'⟩ := htake
  rw [htake] at htrace hstate
  refine .of_idle rfl htrace ?_ ?_
  · show s.Kept ((replying (takeStream type) _).run s).state
    rw [hstate]
    exact hkept
  · show ¬ ((replying (takeStream type) _).run s).state.Live
    rw [hstate]
    exact hdead'

/-- **A guest that is not live refuses whatever it is asked.** -/
theorem Op.refused (op : Op) (hdead : ¬ s.Live) : op.Refused s := by
  cases op with
  | enter stream =>
    exact .of_idle rfl rfl (s.kept_entered stream) (not_live_of_eq hdead rfl rfl)
  | setServices | takeStreamAny | takeChanges | forgetScope =>
    exact .of_idle rfl rfl ⟨rfl, rfl, rfl, rfl, rfl, rfl, rfl, rfl, rfl⟩ (not_live_of_eq hdead rfl rfl)
  | takeStream type => exact takeStream_refused hdead
  | finish => exact finish_refused hdead
  | dropScope => exact .of_idle rfl rfl (Session.kept_dropped s) (not_live_dropped hdead)
  | start plugin codes =>
    obtain ⟨e, s', hstart, hbarred, hkept, hdead', hmild⟩ := start_of_dead plugin codes hdead
    have hrun : (Op.start plugin codes).perform.run s = ⟨.err e, s', []⟩ := bind_of_err hstart
    exact ⟨by rw [hrun], by rw [hrun]; exact hkept, by rw [hrun]; exact hdead',
      fun _ => ⟨e, by rw [hrun], hbarred, fun h => by rw [hrun, hmild h]⟩⟩
  | _ =>
    refine .of_gated hdead ?_
    unfold Op.perform
    infer_instance

/-! ## The stages of a call -/

/-- What a refused call does is no stage of a callback. -/
theorem Op.Refused.between {op : Op} (hdead : ¬ s.Live) (h : op.Refused s) :
    s.Between (op.perform.run s).trace (op.perform.run s).state where
  callouts := h.kept.callouts
  delivery := h.kept.delivery
  limits := h.kept.limits
  live := iff_of_false h.dead hdead
  events e he := by
    rw [h.silent] at he
    cases he

/-- A callback method of a live guest takes stages. -/
theorem Op.reaches {op : Op} (hlive : s.Live) (hreaches : op.reachesGuest = true) :
    Stages (·.Faithful op.Brings) GuestError.unwinds s op.perform := by
  refine (Built.perform ?_ ?_).stages hlive
  · rintro rfl
    cases hreaches
  · rintro rfl
    cases hreaches

theorem takeStreamState_between (hlive : s.Live) : s.Between [] (takeStreamState s) :=
  ⟨rfl, rfl, rfl, iff_of_true ⟨hlive.idle, hlive.live⟩ hlive, by rintro e ⟨⟩⟩

/-- **Every call takes stages**, whatever state the guest is in. -/
theorem Op.stages (op : Op) (s : Session) :
    Steps (Session.StageOf (·.Faithful op.Brings)) s (op.perform.run s).trace
      (op.perform.run s).state := by
  by_cases hlive : s.Live
  · by_cases htake : op = .takeChanges
    · subst htake
      exact .single (.between ⟨rfl, rfl, rfl,
        iff_of_true ⟨hlive.idle, hlive.live⟩ hlive, by rintro e ⟨⟩⟩)
    · by_cases hfinish : op = .finish
      · subst hfinish
        obtain ⟨exit, hrun⟩ := finish_run s
        obtain ⟨htrace, hstate⟩ := replying_run ProxyWasmHost.finish
          (fun stream => .stream (some stream)) s
        rw [hrun, hlive.idle] at htrace hstate
        show Steps (Session.StageOf _) s ((replying ProxyWasmHost.finish _).run s).trace
          ((replying ProxyWasmHost.finish _).run s).state
        rw [htrace, hstate]
        have hdropped : Session.StageOf (·.Faithful Op.finish.Brings) (takeStreamState s) []
            (dropped (takeStreamState s)) := .of_silent Built.silent_dropped _
        exact Steps.cons (Session.StageOf.between (takeStreamState_between hlive))
          (.single hdropped)
      · exact ((Built.perform htake hfinish).stages hlive).1
  · exact .single (.between ((op.refused hlive).between hlive))

theorem Session.staged_of_calls {calls : List Call} (hcalls : Steps Session.Calls s calls s') :
    Steps Session.Stage s (calls.flatMap Call.trace) s' := by
  induction hcalls with
  | nil s => exact .nil s
  | cons head tail ih =>
    obtain ⟨op, -, rfl, rfl⟩ := head
    rw [List.flatMap_append, List.flatMap_singleton]
    exact ((op.stages _).mono fun _ _ _ => Session.StageOf.stage).trans ih

/-- **A run is a sequence of stages**, after the creation of its guest. -/
theorem Run.staged (r : Run) : Steps Session.Stage r.fresh (r.calls.flatMap Call.trace) r.last :=
  Session.staged_of_calls r.called

/-- The creation of a guest is what host functions do. -/
theorem Run.creation_host (r : Run) :
    ∃ h, r.fresh = { r.first with host := h } ∧ Steps HostStep r.first.host r.creation h :=
  ⟨_, rfl, (instantiate_follows r.module (h := r.first.host) rfl).1⟩

/-! ## The end of a guest -/

/-- Whether an event tells that a guest call unwound. -/
def Event.unwinds : Event → Bool
  | .unwound _ _ => true
  | _ => false

theorem Event.unwinds_of_ofHost {e : Event} (h : e.ofHost = true) : e.unwinds = false := by
  cases e <;> first | rfl | cases h

/-- An event that only the last of a list can be is the last one. -/
theorem last_of_append {ι : Type} {P : ι → Prop} {u w t : List ι} {x e : ι}
    (hcalm : ∀ e ∈ u, ¬ P e) (h : u ++ [x] = w ++ e :: t) (he : P e) : t = [] ∧ e = x := by
  rcases List.eq_nil_or_concat t with rfl | ⟨v, y, rfl⟩
  · obtain ⟨-, hx⟩ := List.append_inj' h rfl
    cases hx
    exact ⟨rfl, rfl⟩
  · rw [List.concat_eq_append, ← List.cons_append, ← List.append_assoc] at h
    obtain ⟨rfl, -⟩ := List.append_inj' h rfl
    exact absurd he (hcalm e (List.mem_append_right _ (.head _)))

section Sealed

variable {callback : Callback} {c : ContextId} {params : List I32} {how : Event} {t : List Event}
  {call : Delivered}

/-- Only the last event of a callback can tell that it unwound. -/
theorem Session.Performed.calm (h : s.Performed callback c params how t s') :
    ∃ u, t = u ++ [how] ∧ ∀ e ∈ u, e.unwinds = false := by
  obtain ⟨inner, h', path, -, rfl⟩ := h
  refine ⟨s.beginning callback c params :: (inner ++ [.finished h'.abi]), by simp, ?_⟩
  intro e he
  simp only [List.mem_cons, List.mem_append, List.not_mem_nil, or_false] at he
  rcases he with rfl | he | rfl
  · rfl
  · exact Event.unwinds_of_ofHost (HostStep.ofHost_of_steps path e he)
  · rfl

theorem Session.Stuck.calm (h : s.Stuck callback c params t s') : ∀ e ∈ t, e.unwinds = false := by
  obtain ⟨inner, h', path, -, rfl⟩ := h
  intro e he
  rcases List.mem_cons.1 he with rfl | he
  · rfl
  · exact Event.unwinds_of_ofHost (HostStep.ofHost_of_steps path e he)

theorem Session.taking_calm (s : Session) (call : Delivered) :
    ∀ e ∈ s.taking call, e.unwinds = false := by
  unfold taking
  cases call.takes with
  | none => simp
  | some id => simp [Event.unwinds]

/-- **An unwound callback ends a stage**, and its guest. -/
theorem Session.Stage.sealed (h : s.Stage t s') {w v : List Event} {e : Event}
    (ht : t = w ++ e :: v) (he : e.unwinds = true) : v = [] ∧ ¬ s'.Live := by
  have hcalm : ∀ u : List Event, (∀ e ∈ u, e.unwinds = false) → ∀ e ∈ u, ¬ e.unwinds = true :=
    fun u hu e he => by rw [hu e he]; exact Bool.false_ne_true
  have hnone : (∀ e ∈ t, e.unwinds = false) → v = [] ∧ ¬ s'.Live := by
    intro hcalm
    rw [hcalm e (by rw [ht]; exact List.mem_append_right _ (.head _))] at he
    cases he
  cases h with
  | between between =>
    refine hnone fun e he => ?_
    obtain ⟨-, ⟨id, parent, rfl⟩ | ⟨c, abi, rfl⟩⟩ := between.events e he <;> rfl
  | performed live ran ends =>
    obtain ⟨u, hu, hbefore⟩ := ran.calm
    obtain ⟨rfl, rfl⟩ := last_of_append (hcalm u hbefore) (hu ▸ ht) he
    refine ⟨rfl, ?_⟩
    cases ends with
    | returned => cases he
    | unwound poisoned => exact not_live_of_poisoned poisoned
  | stuck live ran ends => exact hnone ran.calm
  | @delivered call _ _ _ live ran ends =>
    obtain ⟨u, s₁, ran, rfl, rfl⟩ := ran
    obtain ⟨u, rfl, hbefore⟩ := ran.calm
    rw [← List.append_assoc] at ht
    have hbefore' : ∀ e ∈ s.taking call ++ u, e.unwinds = false := by
      intro e he
      rcases List.mem_append.1 he with he | he
      · exact s.taking_calm _ e he
      · exact hbefore e he
    obtain ⟨rfl, rfl⟩ := last_of_append (hcalm _ hbefore') ht he
    refine ⟨rfl, ?_⟩
    cases ends with
    | returned => cases he
    | unwound poisoned => exact not_live_of_poisoned poisoned
  | stuckIn live ran ends =>
    obtain ⟨u, ran, rfl⟩ := ran
    refine hnone fun e he => ?_
    rcases List.mem_append.1 he with he | he
    · exact s.taking_calm _ e he
    · exact ran.calm e he
  | dropped live ids => exact hnone (by simp [Event.unwinds])

/-- A guest that is not live shows nothing more. -/
theorem Session.Stage.silent (h : s.Stage t s') (hdead : ¬ s.Live) : t = [] ∧ ¬ s'.Live := by
  cases h with
  | between between =>
    refine ⟨List.eq_nil_iff_forall_not_mem.2 fun e he => hdead (between.events e he).1, ?_⟩
    exact mt between.live.1 hdead
  | performed live | stuck live | delivered live | stuckIn live | dropped live =>
    exact absurd live hdead

end Sealed

/-- After an event that tells of an unwound callback there is no other, and the guest is
    not live. -/
def Session.Sealed (past : List Event) (s : Session) : Prop :=
  ∀ w e v, past = w ++ e :: v → e.unwinds = true → v = [] ∧ ¬ s.Live

theorem Session.Sealed.stage {past t : List Event} (hsealed : s.Sealed past) (h : s.Stage t s') :
    s'.Sealed (past ++ t) := by
  intro w e v ht he
  rcases List.append_eq_append_iff.1 ht with ⟨u, rfl, hu⟩ | ⟨u, hu, hv⟩
  · exact h.sealed hu he
  · rcases u with _ | ⟨e', u⟩
    · exact h.sealed (w := []) hv.symm he
    · obtain ⟨rfl, rfl⟩ := List.cons.inj hv
      obtain ⟨hnil, hdead⟩ := hsealed w e u hu he
      obtain ⟨rfl, hdead'⟩ := h.silent hdead
      exact ⟨by rw [hnil]; rfl, hdead'⟩

/-- **An unwound callback is the last thing a run shows.** -/
theorem Run.sealed (r : Run) : r.last.Sealed r.trace := by
  obtain ⟨h, -, path⟩ := r.creation_host
  refine r.staged.history (I := fun past s => s.Sealed past)
    (fun past s t s' hsealed hstage => hsealed.stage hstage) ?_
  intro w e v ht he
  have hmem : e ∈ r.creation := by
    rw [show r.creation = _ from ht]
    exact List.mem_append_right _ (.head _)
  rw [Event.unwinds_of_ofHost (HostStep.ofHost_of_steps path e hmem)] at he
  cases he

/-- A call in which a guest call unwound, or a callback never returned. -/
def Call.Breaks (call : Call) : Prop :=
  (∃ e ∈ call.trace, e.unwinds = true) ∨ call.op.reachesGuest = true ∧
    (call.exit = .panicked ∨ ∃ e, call.exit = .err e ∧ e.unwinds = true)

/-- **A call that breaks a guest** leaves none that is live. -/
theorem Call.Breaks.dead {op : Op}
    (h : Call.Breaks ⟨op, (op.perform.run s).exit, (op.perform.run s).trace⟩) :
    ¬ (op.perform.run s).state.Live := by
  rcases h with ⟨e, hmem, he⟩ | ⟨hreaches, hexit⟩
  · obtain ⟨w, v, ht⟩ := List.append_of_mem hmem
    have hsealed : (op.perform.run s).state.Sealed ([] ++ (op.perform.run s).trace) :=
      (op.stages s).history (I := fun past s => s.Sealed past)
        (fun past s t s' hsealed hstage => hsealed.stage hstage.stage) (by rintro (_ | _) e v ⟨⟩)
    exact (hsealed w e v ht he).2
  · by_cases hlive : s.Live
    · have hends := (Op.reaches hlive hreaches).2
      rcases hexit with hexit | ⟨e, hexit, hunwinds⟩
      · have hexit : (op.perform.run s).exit = .panicked := hexit
        rw [hexit] at hends
        exact hends
      · have hexit : (op.perform.run s).exit = .err e := hexit
        rw [hexit] at hends
        intro hlive'
        have hmild := hends.1 hlive'
        rw [hunwinds] at hmild
        cases hmild
    · exact (op.refused hlive).dead

/-- A guest that is not live stays so, and shows nothing. -/
theorem Session.dead_of_calls {calls : List Call} (hcalls : Steps Session.Calls s calls s')
    (hdead : ¬ s.Live) : calls.flatMap Call.trace = [] ∧ ¬ s'.Live := by
  induction hcalls with
  | nil s => exact ⟨rfl, hdead⟩
  | cons head tail ih =>
    obtain ⟨op, -, rfl, rfl⟩ := head
    obtain ⟨hsilent, hdead'⟩ := ih (op.refused hdead).dead
    refine ⟨?_, hdead'⟩
    rw [List.flatMap_append, List.flatMap_singleton, hsilent, (op.refused hdead).silent]
    rfl

/-- A callback method that fails without unwinding poisons no guest. -/
theorem Op.mild {op : Op} (hreaches : op.reachesGuest = true) {e : GuestError}
    (hexit : (op.perform.run s).exit = .err e) (hmild : e.unwinds = false) :
    (op.perform.run s).state.host.poisoned = s.host.poisoned := by
  by_cases hlive : s.Live
  · have hends := (Op.reaches hlive hreaches).2
    rw [hexit] at hends
    rw [(hends.2 hmild).live, hlive.live]
  · obtain ⟨e', hexit', -, hkept⟩ := (op.refused hlive).answer hreaches
    rw [hexit] at hexit'
    cases hexit'
    exact hkept hmild

/-- **Poisoning**: once a guest call unwound, or a callback never returned, the guest runs no
    more code and every method refuses it, with everything it holds left as it is; a method
    that fails otherwise poisons no guest; and guest code that returns left it unpoisoned,
    whatever the allocator did in the host functions it called. -/
theorem poisoned_for_good :
    (∀ (r : Run) (t₁ t₂ : List Event) (callback : Callback) (c : ContextId),
      r.trace = t₁ ++ .unwound callback c :: t₂ → t₂ = []) ∧
    (∀ (r : Run) (before after : List Call) (call : Call), r.calls = before ++ call :: after →
      call.Breaks → after.flatMap Call.trace = [] ∧ ∀ op : Op, op.Allowed r.last →
        op.Refused r.last) ∧
    (∀ (r : Run) (op : Op) (e : GuestError), op.Allowed r.last → op.reachesGuest = true →
      (op.perform.run r.last).exit = .err e → e.unwinds = false →
        (op.perform.run r.last).state.host.poisoned = r.last.host.poisoned) ∧
    ∀ (code : Code) (h : HostState) (value : I32), h.poisoned = false →
      (code.exec.run h).exit = .ok value → (code.exec.run h).state.poisoned = false := by
  refine ⟨?_, ?_, ?_, ?_⟩
  · intro r t₁ t₂ callback c htrace
    exact (r.sealed t₁ _ t₂ htrace rfl).1
  · intro r before after call hcalls hbreaks
    obtain ⟨s, hbefore, hrest⟩ := Steps.split (fun _ _ _ => Session.Calls.singleton) r.called hcalls
    obtain ⟨s', hcall, hafter⟩ := hrest.split (fun _ _ _ => Session.Calls.singleton)
      (t := [call]) (u := after) rfl
    obtain ⟨op, -, rfl, hcall'⟩ := hcall.of_singleton fun _ _ _ => Session.Calls.singleton
    cases List.singleton_inj.1 hcall'
    obtain ⟨hsilent, hdead⟩ := Session.dead_of_calls hafter hbreaks.dead
    exact ⟨hsilent, fun op _ => op.refused hdead⟩
  · exact fun r op e _ hreaches hexit hmild => Op.mild hreaches hexit hmild
  · intro code h value live hexit
    have hends := (code.exec_runs.follows h live).2
    rw [hexit] at hends
    exact hends

/-! ## A guest that traps -/

namespace Poisoned

/-- A root traps in a tick, and is ticked again. -/
def trapping : Run :=
  .of 4 .bare ⟨[], .info, [], [], 1, 2⟩ (.atMost none)
    [.enter .noStream, .onContextCreate none (.returning 0),
      .onTick .min (.unwind (.trap "")), .onTick .min (.returning 0)]
    rfl (by decide)

/-- The second tick shows nothing, and so would a third one. -/
theorem trapping_refused : (trapping.calls.drop 3).flatMap Call.trace = [] ∧
    (Op.onTick .min (.returning 0)).Refused trapping.last := by
  have hbroken := poisoned_for_good.2.1 trapping (trapping.calls.take 2) (trapping.calls.drop 3) _
    rfl (.inl ⟨.unwound .tick .min, List.mem_of_getElem? (i := 2) rfl, rfl⟩)
  exact ⟨hbroken.1, hbroken.2 _ rfl⟩

end Poisoned

end ProxyWasmHost
