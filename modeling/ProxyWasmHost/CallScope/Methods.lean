/-
  The callbacks of a stream, of a start and of a delivery take the steps of their aim,
  and leave a guest between two calls.
-/
import ProxyWasmHost.CallScope.Checks

namespace ProxyWasmHost

open Prog Session Prologue

variable {aim : Aim} {s : Session} {α β : Type}

/-! ## Stream contexts -/

theorem Session.Ready.serving (h : s.Ready) (c : ContextId) : (s.serving c).Ready :=
  ⟨⟨h.idle, h.live⟩, h.unmarked, h.undelivered⟩

theorem Session.serves_serving (s : Session) (c : ContextId) : (s.serving c).Serves c := by
  intro scope hscope
  obtain ⟨_, -, rfl⟩ := Option.map_eq_some_iff.1 hscope
  rfl

/-- The scope chooses the stream it serves, and nothing else changes. -/
theorem requireServed_reaches {c : ContextId} (hs : s.Rested) :
    Reaches aim s (requireServed c) fun _ s' => s' = s.serving c := by
  unfold requireServed
  refine .bind_read ?_
  split
  · rename_i lent hlent
    refine .bind_require (fun hc => .modify (.served s c fun scope lent' hscope hserved => ?_) rfl)
      fun _ => hs
    rw [hscope, Option.bind_some, hserved] at hlent
    exact (Option.some.inj hlent).trans hc
  · rename_i hlent
    refine .modify (.served s c fun scope lent' hscope hserved => ?_) rfl
    rw [hscope, Option.bind_some, hserved] at hlent
    cases hlent

/-- A scope that lets `c` through, and that may have chosen it. -/
structure LetThrough (c : ContextId) (s s' : Session) : Prop where
  served : s' = s ∨ s' = s.serving c
  serves : s.abi.contexts.contextType c = some .stream → s'.Serves c

theorem LetThrough.abi {s' : Session} {c : ContextId} (h : LetThrough c s s') :
    s'.abi = s.abi := by
  rcases h.served with rfl | rfl <;> rfl

theorem LetThrough.ready {s' : Session} {c : ContextId} (h : LetThrough c s s') (hs : s.Ready) :
    s'.Ready := by
  rcases h.served with rfl | rfl
  · exact hs
  · exact hs.serving c

theorem requireServedStream_reaches {c : ContextId} (hs : s.Rested) :
    Reaches aim s (requireServedStream c) fun _ s' => LetThrough c s s' := by
  unfold requireServedStream
  refine .bind_read ?_
  split
  · refine (requireServed_reaches hs).mono ?_ (fun _ _ he => he) fun _ hu => hu
    rintro _ _ rfl
    exact ⟨.inr rfl, fun _ => s.serves_serving c⟩
  · rename_i hstream
    exact .pure ⟨.inl rfl, fun h => absurd h hstream⟩

/-- A context for which a stream callback of the family may run. -/
structure Prepared (c : ContextId) (kind : StreamKind) (s : Session) : Prop
    extends s.Ready where
  stream : s.abi.contexts.contextType c = some .stream
  accepted : s.abi.contexts.rejectionOf c = none
  kind : s.abi.contexts.streamKind c = some kind
  serves : s.Serves c

theorem Prepared.mayBegin {c : ContextId} {kind : StreamKind} {callback : Callback}
    (h : Prepared c kind s) (hfamily : callback.family = some kind) :
    s.MayBegin aim callback c where
  idle := h.idle
  live := h.live
  known := ContextTable.isSome_of_contextType h.stream
  allowed := .inr h.accepted
  belongs id entry hid := by rw [h.undelivered] at hid; cases hid
  family kind' hkind := by
    rw [hfamily] at hkind
    cases hkind
    exact ⟨h.stream, h.kind⟩
  served _ _ := h.serves
  vmStart hcallback := by rw [hcallback] at hfamily; cases hfamily

theorem prepareStream_reaches {c : ContextId} {kind : StreamKind} (hs : s.Rested) :
    Reaches aim s (prepareStream c kind) fun _ s' => Prepared c kind s' := by
  unfold prepareStream
  refine bind_requireLive hs fun hready => ?_
  refine bind_check hs requireStream_finds fun _ hstream => ?_
  refine bind_check hs accepted_finds fun _ haccepted => ?_
  refine bind_check hs requireStreamKind_finds fun _ hkind => ?_
  refine .bind (requireServed_reaches hs) ?_
  rintro _ _ rfl
  refine .modify (.streamKind hstream hkind) ⟨(hready.serving c).of_mapContexts _, ?_, ?_, ?_, ?_⟩
  · rw [contexts_mapContexts, ContextTable.contextType_setStreamKind]
    exact hstream
  · rw [contexts_mapContexts, ContextTable.rejectionOf_setStreamKind]
    exact haccepted
  · exact ContextTable.streamKind_setStreamKind_self kind
      (ContextTable.isSome_of_contextType hstream)
  · exact s.serves_serving c

/-- A callback in a scope of its own values: it is announced, and the announcement is
    taken back. -/
theorem streamAction_acts {c : ContextId} {kind : StreamKind} {callback : Callback}
    {announced : Option (BufferType × UInt32)} {params : List I32} {code : Code}
    (hs : s.Rested) (hfamily : callback.family = some kind) :
    Acts aim s (streamAction c kind callback announced params code) := by
  unfold streamAction
  refine .bind (prepareStream_reaches hs) fun _ s1 hprepared => ?_
  have hprepared' : Prepared c kind (s1.mapAbi fun abi => { abi with announced }) :=
    ⟨⟨⟨hprepared.idle, hprepared.live⟩, hprepared.unmarked, hprepared.undelivered⟩,
      hprepared.stream, hprepared.accepted, hprepared.kind, hprepared.serves⟩
  refine .bind_modify (.announced s1 announced) ?_
  refine .bind (M := fun _ s' => s'.Rested) (.attempt ?_) fun value s2 hrested => ?_
  · refine (run_reaches hprepared'.toReady (hprepared'.mayBegin hfamily)).mono ?_ ?_ fun _ hu => hu
    · exact fun _ _ hq => hq.2.rested
    · exact fun _ _ hq => hq
  · refine .bind_modify (.announced s2 none) ?_
    have hrested' : (s2.mapAbi fun abi => { abi with announced := none }).Rested :=
      hrested.of_eq rfl rfl rfl rfl
    exact bind_check hrested' .quiet fun value _ => .orThrow (fun _ _ => hrested') fun _ => hrested'

theorem streamEvent_acts {c : ContextId} {callback : Callback} {params : List I32} {code : Code}
    (hs : s.Rested) (hfamily : callback.family = some .tcp) :
    Acts aim s (streamEvent c callback params code) := by
  unfold streamEvent
  refine .bind (prepareStream_reaches hs) fun _ s1 hprepared => ?_
  refine .bind (run_reaches hprepared.toReady (hprepared.mayBegin hfamily)) ?_
  exact fun _ s2 ⟨_, hready⟩ => .pure hready.rested

theorem expectStreamKind_acts {c : ContextId} {kind : StreamKind} (hs : s.Rested) :
    Acts aim s (expectStreamKind c kind) := by
  unfold expectStreamKind
  refine bind_requireLive hs fun hready => ?_
  refine bind_check hs requireStream_finds fun _ hstream => ?_
  refine bind_check hs requireStreamKind_finds fun _ hkind => ?_
  exact .modify (.streamKind hstream hkind) (hready.of_mapContexts _).rested

/-! ## The start of a context, an instance and a plugin -/

/-- A context that was created, and whose callback returned. -/
def Made (parent : Option ContextId) (s : Session) (id : ContextId) (s' : Session) : Prop :=
  ∃ table, s.abi.contexts.create parent = .ok (id, table) ∧
    (s.mapContexts fun _ => table).Frame s' ∧ s'.Ready

/-- The part of a creation that comes after the parent is accepted. -/
theorem create_reaches {parent : Option ContextId} {code : Code}
    (hwf : s.abi.contexts.WellFormed)
    (haim : aim = .create parent ∨ (∃ plugin, aim = .start plugin) ∧ parent = none)
    (hready : s.Ready) (hvm : s.abi.contexts.vmRejected = none)
    (haccepted : ∀ p, parent = some p → s.abi.contexts.rejectionOf p = none) :
    Reaches aim s (do
      let (id, table) ← Prog.ofExcept ((← contexts).create parent)
      Prog.act (fun _ => .created id parent) (·.mapContexts fun _ => table)
      let _ ← run id .contextCreate [id.wire, (parent.map Id.wire).getD 0] code 0
      return id) (Made parent s) := by
  refine .bind_read (.bind_ofExcept ?_ fun _ _ => hready.rested)
  rintro ⟨id, table⟩ hcreate
  have hcreates := ContextTable.creates_of_create hcreate
  have hready' : (s.mapContexts fun _ => table).Ready := hready.of_mapContexts _
  refine .bind_act (.created haim hready.idle hready.live hvm haccepted hcreate) ?_
  refine .bind (run_reaches hready' (mayBegin_of_accepted hready' ?_ ?_ rfl (by rintro ⟨⟩))) ?_
  · rw [contexts_mapContexts, hcreates.get_eq, if_pos rfl]
    rfl
  · rw [contexts_mapContexts]
    exact hwf.rejectionOf_of_create hcreates hvm haccepted
  · exact fun _ s' ⟨hframe, hready'⟩ => .pure ⟨table, hcreate, hframe, hready'⟩

theorem onContextCreate_reaches {parent : Option ContextId} {code : Code} (hs : s.Rested)
    (hwf : s.abi.contexts.WellFormed)
    (haim : aim = .create parent ∨ (∃ plugin, aim = .start plugin) ∧ parent = none) :
    Reaches aim s (onContextCreate parent code) (Made parent s) := by
  unfold onContextCreate
  refine bind_requireLive hs fun hready => ?_
  cases parent with
  | none =>
    refine bind_check hs vmAccepted_finds fun _ hvm => ?_
    exact create_reaches hwf haim hready hvm (by rintro p ⟨⟩)
  | some p =>
    refine bind_check hs requireRoot_finds fun _ _ => ?_
    refine bind_check hs accepted_finds fun _ haccepted => ?_
    exact create_reaches hwf haim hready (ContextTable.rejectionOf_eq_none.1 haccepted).1
      (by rintro _ ⟨⟩; exact haccepted)

/-- The answer of the guest to a callback that asks it, and what a refusal does. -/
def Answered (refuse : ContextTable → ContextTable) (s : Session) (accepted : Bool)
    (s' : Session) : Prop :=
  s'.Ready ∧ ∃ s₁, s.Frame s₁ ∧ s' = if accepted then s₁ else s₁.mapContexts refuse

theorem onVmStart_reaches {root : ContextId} {code : Code} (hs : s.Rested)
    (haim : aim = .vmStart ∨ (∃ plugin, aim = .start plugin) ∧ s.abi.vmStarted = false) :
    Reaches aim s (onVmStart root code) (Answered (·.rejectVm root) s) := by
  unfold onVmStart
  refine bind_requireLive hs fun hready => ?_
  refine bind_check hs requireRoot_finds fun _ hroot => ?_
  refine bind_check hs accepted_finds fun _ haccepted => ?_
  refine .bind_read (bind_check hs .quiet fun size _ => ?_)
  refine .bind (run_reaches hready (mayBegin_of_accepted hready
    (ContextTable.isSome_of_contextType hroot) haccepted rfl fun _ => haim))
    fun value s1 ⟨hframe, hready1⟩ => ?_
  refine bind_check hready1.rested .quiet fun accepted _ => ?_
  cases accepted with
  | false =>
    exact .bind_modify (.rejectedVm s1 root (haim.imp_right And.left))
      (.pure ⟨hready1.of_mapContexts _, s1, hframe, rfl⟩)
  | true => exact .pure ⟨hready1, s1, hframe, rfl⟩

theorem onConfigure_reaches {root : ContextId} {plugin : PluginConfig} {code : Code}
    (hs : s.Rested) (haim : aim = .configure ∨
      aim = .start plugin ∧ s.abi.contexts.Awaits root plugin.rootId) :
    Reaches aim s (onConfigure root plugin code) (fun accepted s' =>
      s.abi.contexts.contextType root = some .root ∧
      Answered (·.reject root) (s.mapContexts (·.setPlugin root plugin)) accepted s') := by
  unfold onConfigure
  refine bind_requireLive hs fun hready => ?_
  refine bind_check hs requireRoot_finds fun _ hroot => ?_
  refine bind_check hs accepted_finds fun _ haccepted => ?_
  refine bind_check hs .quiet fun size _ => ?_
  refine .bind_modify (.plugin s root plugin haim) ?_
  have hready' : (s.mapContexts (·.setPlugin root plugin)).Ready := hready.of_mapContexts _
  refine .bind (run_reaches hready' (mayBegin_of_accepted hready' ?_ ?_ rfl (by rintro ⟨⟩)))
    fun value s1 ⟨hframe, hready1⟩ => ?_
  · exact ContextTable.isSome_of_contextType
      (by rw [contexts_mapContexts, ContextTable.contextType_setPlugin]; exact hroot)
  · rw [contexts_mapContexts, ContextTable.rejectionOf_setPlugin]
    exact haccepted
  · refine bind_check hready1.rested .quiet fun accepted _ => ?_
    cases accepted with
    | false =>
      refine .bind_modify (.rejected s1 root (haim.imp_right ?_))
        (.pure ⟨hroot, hready1.of_mapContexts _, s1, hframe, rfl⟩)
      exact fun h => ⟨plugin, h.1⟩
    | true => exact .pure ⟨hroot, hready1, s1, hframe, rfl⟩

/-! ## Deliveries -/

theorem onTick_acts {root : ContextId} {code : Code} (hs : s.Rested) :
    Acts aim s (onTick root code) := by
  unfold onTick
  refine bind_requireLive hs fun hready => ?_
  refine bind_check hs requireRoot_finds fun _ hroot => ?_
  refine bind_check hs accepted_finds fun _ haccepted => ?_
  have hget := ContextTable.isSome_of_contextType hroot
  exact .bind (run_reaches hready (mayBegin_of_accepted hready hget haccepted rfl (by rintro ⟨⟩)))
    fun _ s' ⟨_, hready'⟩ => .pure hready'.rested

theorem onQueueReady_acts {root : ContextId} {queue : QueueId} {code : Code} (hs : s.Rested) :
    Acts aim s (onQueueReady root queue code) := by
  unfold onQueueReady
  refine bind_requireLive hs fun hready => ?_
  refine bind_check hs requireRoot_finds fun _ hroot => ?_
  refine bind_check hs accepted_finds fun _ haccepted => ?_
  refine .bind_read (bind_check hs .require fun _ _ => ?_)
  have hget := ContextTable.isSome_of_contextType hroot
  exact .bind (run_reaches hready (mayBegin_of_accepted hready hget haccepted rfl (by rintro ⟨⟩)))
    fun _ s' ⟨_, hready'⟩ => .pure hready'.rested

/-- A delivery that the checks let through: to an accepted context, of a callout that is
    its own, and that it may end when it does. -/
structure Delivered.Fits (call : Delivered) (aim : Aim) (s : Session) : Prop where
  live : (s.abi.contexts.get call.context).isSome
  accepted : s.abi.contexts.rejectionOf call.context = none
  carries : call.delivery.callout = call.callout
  rooted : ∀ id entry, call.callout = some id → s.abi.callouts.get id = some entry →
    entry.root = call.context
  aimed : call.ends = true → ∀ id, call.callout = some id → aim = .deliver id ∨
    ∃ c, aim = .delete c
  plain : call.callback.ofOneStream = false
  later : call.callback ≠ .vmStart

/-- A callout that is taken out for a delivery. -/
structure Taken (s s' : Session) : Prop where
  frame : s.Frame s'
  live : s'.Live
  contexts : s'.abi.contexts = s.abi.contexts
  changes : s'.abi.changes = s.abi.changes
  registrants : s'.abi.registrants = s.abi.registrants
  callouts : ∀ id entry, s'.abi.callouts.get id = some entry → s.abi.callouts.get id = some entry

theorem takeEnded_follows {call : Delivered} {E : GuestError → Session → Prop}
    {U : Session → Prop} (hs : s.Live) (hfits : call.Fits aim s) :
    Follows (Session.Step aim) (takeEnded call) (fun _ s' => Taken s s') E U s := by
  unfold takeEnded
  cases hends : call.ends with
  | false => exact .pure ⟨.refl s, hs, rfl, rfl, rfl, fun _ _ h => h⟩
  | true =>
    cases hcallout : call.callout with
    | none => exact .pure ⟨.refl s, hs, rfl, rfl, rfl, fun _ _ h => h⟩
    | some id =>
      have hended : Session.Step aim s [.ended id (s.abi.callouts.get id)]
          (s.mapCallouts (·.remove id)) :=
        .ended hs.idle hs.live (hfits.aimed hends id hcallout) fun entry hget => by
          rw [hfits.rooted id entry hcallout hget]; exact hfits.accepted
      refine .bind_read (.bind_act hended (.pure ⟨⟨rfl, rfl, rfl, rfl, rfl, rfl, rfl, rfl, .refl _⟩,
        ⟨hs.idle, hs.live⟩, rfl, rfl, rfl, fun x entry hget => ?_⟩))
      rw [callouts_mapCallouts, CalloutTable.get_remove] at hget
      split at hget
      · cases hget
      · exact hget

/-- The callback of a delivery that is set. -/
theorem Delivered.Fits.mayBegin {call : Delivered} {s₁ : Session} (hfits : call.Fits aim s)
    (htaken : Taken s s₁) :
    (s₁.mapAbi fun abi => { abi with delivery := some call.delivery }).MayBegin aim
      call.callback call.context where
  idle := htaken.live.idle
  live := htaken.live.live
  known := by
    rw [abi_mapAbi, htaken.contexts]
    exact hfits.live
  allowed := .inr (by
    rw [abi_mapAbi, htaken.contexts]
    exact hfits.accepted)
  belongs id entry hid hget :=
    hfits.rooted id entry (hfits.carries.symm.trans hid) (htaken.callouts id entry hget)
  family kind hkind := by
    have hplain := hfits.plain
    unfold Callback.ofOneStream at hplain
    rw [hkind] at hplain
    cases hplain
  served hserved := by
    rw [hfits.plain] at hserved
    cases hserved
  vmStart hcallback := absurd hcallback hfits.later

/-- A delivery whose callback unwound. -/
structure Failed (s : Session) (e : GuestError) (s' : Session) : Prop where
  idle : s'.abi.currentCallback = none
  poisoned : s'.host.poisoned = true
  error : ∃ error, e = .runtime error ∧ error.unwinds = true

/-- **A delivery**: as its callback, and a callout it ends comes back when the guest does
    not survive. -/
theorem deliver_follows {call : Delivered} {code : Code} (hs : s.Live)
    (hnone : s.abi.delivery = none) (hfits : call.Fits aim s) :
    Follows (Session.Step aim) (deliver call code) (fun _ s' => Ran call.context s s')
      (Failed s) (fun s' => s'.abi.currentCallback.isSome) s := by
  unfold deliver
  refine .bind (takeEnded_follows hs hfits) fun entry s1 htaken => ?_
  refine .bind_modify (.delivery s1 (some call.delivery)) ?_
  refine .bind_attempt ((run_follows (hfits.mayBegin htaken)).mono (fun _ _ hran => hran)
    (fun _ _ hunwound => hunwound) fun _ hrunning => hrunning.2) ?_ ?_
  · intro value s2 hran2
    have hframe : s.Frame (s2.mapAbi fun abi => { abi with delivery := none }) :=
      htaken.frame.trans ⟨hran2.frame.exports, hran2.frame.scope, hran2.frame.guest,
        hran2.frame.limits, hran2.frame.services, hran2.frame.deleting,
        (htaken.frame.delivery.trans hnone).symm, hran2.frame.vmStarted, hran2.frame.contexts⟩
    have hran : Ran call.context s (s2.mapAbi fun abi => { abi with delivery := none }) := by
      refine ⟨hframe, ⟨hran2.live.idle, hran2.live.live⟩, fun root hroot => ?_⟩
      have hroot1 : s1.abi.contexts.rootOf call.context = some root := by
        rw [htaken.contexts]; exact hroot
      have hconfined : Confined root s.abi s2.abi :=
        (hran2.confined root hroot1).of_start htaken.contexts
          (congrArg Changes.tickPeriods htaken.changes) htaken.registrants htaken.callouts
      exact hconfined.congr rfl rfl rfl rfl
    refine .bind_read (.bind_modify (.delivery s2 none) ?_)
    cases entry with
    | none => exact .pure hran
    | some entry =>
      obtain ⟨callout, entry⟩ := entry
      dsimp only
      rw [if_neg (by rw [hran2.live.live]; simp)]
      exact .pure hran
  · intro e s2 hunwound
    have hend : ∀ s3 : Session, s3.abi.currentCallback = none → s3.host.poisoned = true →
        Follows (Session.Step aim) (do let _ ← Prog.ofExcept (.error e : Except GuestError I32))
          (fun _ s' => Ran call.context s s') (Failed s)
          (fun s' => s'.abi.currentCallback.isSome) s3 := by
      intro s3 hidle3 hpoisoned3
      exact .bind_ofExcept (by rintro _ ⟨⟩)
        (by rintro _ ⟨⟩; exact ⟨hidle3, hpoisoned3, hunwound.error⟩)
    refine .bind_read (.bind_modify (.delivery s2 none) ?_)
    cases entry with
    | none => exact hend _ hunwound.idle hunwound.poisoned
    | some entry =>
      obtain ⟨callout, entry⟩ := entry
      dsimp only
      rw [if_pos hunwound.poisoned]
      exact .bind_modify (.reentered callout entry hunwound.poisoned)
        (hend _ hunwound.idle hunwound.poisoned)

/-- A delivery from a guest that is ready. -/
theorem deliver_acts {call : Delivered} {code : Code} (hs : s.Ready) (hfits : call.Fits aim s) :
    Acts aim s (deliver call code) := by
  refine (deliver_follows hs.toLive hs.undelivered hfits).mono ?_ ?_ ?_
  · exact fun _ _ hran => (hs.of_frame hran.frame hran.live).rested
  · exact fun _ _ hfailed => .of_poisoned hfailed.poisoned
  · exact fun _ hrunning => .of_running hrunning

/-! ### Callouts -/

section Callouts

variable {c : ContextId} {callout : CalloutId} {code : Code}

/-- What `requireOpen` finds is open, of the caller, and of one of the kinds. -/
theorem requireOpen_finds {kinds : List CalloutKind} :
    Finds (requireOpen c callout kinds) (fun entry => s.abi.callouts.get callout = some entry ∧
      entry.caller = c ∧ entry.kind ∈ kinds) s :=
  .bind_read <| Finds.orThrow.bind fun _ hget => Finds.require.bind fun _ hcaller =>
    Finds.require.bind fun _ hkind => .pure ⟨hget, hcaller, hkind⟩

theorem grpcAccepted_finds :
    Finds (grpcAccepted c callout) (fun entry => s.abi.callouts.get callout = some entry ∧
      entry.kind ∈ [CalloutKind.grpcCall, .grpcStream] ∧
      s.abi.contexts.contextType entry.root = some .root ∧
      s.abi.contexts.rejectionOf entry.root = none) s :=
  requireOpen_finds.bind fun _ ⟨hget, _, hkind⟩ => requireRoot_finds.bind fun _ hroot =>
    accepted_finds.bind fun _ haccepted => .pure ⟨hget, hkind, hroot, haccepted⟩

/-- A delivery of an open callout to its root. -/
theorem Delivered.Fits.of_open {call : Delivered} {entry : Callout}
    (hget : s.abi.callouts.get callout = some entry)
    (hroot : s.abi.contexts.contextType entry.root = some .root)
    (haccepted : s.abi.contexts.rejectionOf entry.root = none)
    (hcontext : call.context = entry.root) (hcallout : call.callout = some callout)
    (hdelivery : call.delivery.callout = some callout)
    (hplain : call.callback.ofOneStream = false) (hlater : call.callback ≠ .vmStart) :
    call.Fits (.deliver callout) s where
  live := by rw [hcontext]; exact ContextTable.isSome_of_contextType hroot
  accepted := by rw [hcontext]; exact haccepted
  carries := hdelivery.trans hcallout.symm
  rooted id entry' hid hget' := by
    rw [hcallout] at hid
    cases hid
    rw [hget] at hget'
    cases hget'
    exact hcontext.symm
  aimed _ id hid := by
    rw [hcallout] at hid
    cases hid
    exact .inl rfl
  plain := hplain
  later := hlater

theorem onHttpCallResponse_acts {response : HttpCallResponse} (hs : s.Rested) :
    Acts (.deliver callout) s (onHttpCallResponse c callout response code) := by
  unfold onHttpCallResponse
  refine bind_requireLive hs fun hready => ?_
  refine bind_check hs requireOpen_finds fun entry ⟨hget, _, _⟩ => ?_
  refine bind_check hs .require fun _ _ => ?_
  refine bind_check hs requireRoot_finds fun _ hroot => ?_
  refine bind_check hs accepted_finds fun _ haccepted => ?_
  unfold deliverHttpResponse
  refine bind_check hs .quiet fun headers _ => ?_
  refine bind_check hs .quiet fun body _ => ?_
  refine bind_check hs .quiet fun trailers _ => ?_
  exact deliver_acts hready (.of_open hget hroot haccepted rfl rfl rfl rfl (by rintro ⟨⟩))

/-- What every gRPC delivery does: it checks, measures what it brings, and calls the root that
    made the callout. -/
theorem grpcDelivery_acts {call : Callout → I32 → Delivered} {size : ℕ} (hs : s.Rested)
    (hcall : ∀ entry count, (call entry count).context = entry.root ∧
      (call entry count).callout = some callout ∧
      (call entry count).delivery.callout = some callout ∧
      (call entry count).callback.ofOneStream = false ∧ (call entry count).callback ≠ .vmStart) :
    Acts (.deliver callout) s (do
      requireLive
      let entry ← grpcAccepted c callout
      let count ← wireSize size
      deliver (call entry count) code) := by
  refine bind_requireLive hs fun hready => ?_
  refine bind_check hs grpcAccepted_finds fun entry ⟨hget, _, hroot, haccepted⟩ => ?_
  refine bind_check hs .quiet fun count _ => ?_
  obtain ⟨hcontext, hcallout, hdelivery, hplain, hlater⟩ := hcall entry count
  exact deliver_acts hready
    (.of_open hget hroot haccepted hcontext hcallout hdelivery hplain hlater)

theorem onGrpcReceiveInitialMetadata_acts {metadata : List Pair} (hs : s.Rested) :
    Acts (.deliver callout) s (onGrpcReceiveInitialMetadata c callout metadata code) :=
  grpcDelivery_acts hs fun _ _ => ⟨rfl, rfl, rfl, rfl, by rintro ⟨⟩⟩

theorem onGrpcReceive_acts {message : Bytes} (hs : s.Rested) :
    Acts (.deliver callout) s (onGrpcReceive c callout message code) :=
  grpcDelivery_acts hs fun _ _ => ⟨rfl, rfl, rfl, rfl, by rintro ⟨⟩⟩

theorem onGrpcReceiveTrailingMetadata_acts {metadata : List Pair} (hs : s.Rested) :
    Acts (.deliver callout) s (onGrpcReceiveTrailingMetadata c callout metadata code) :=
  grpcDelivery_acts hs fun _ _ => ⟨rfl, rfl, rfl, rfl, by rintro ⟨⟩⟩

theorem onGrpcClose_acts {status : GrpcStatus} (hs : s.Rested) :
    Acts (.deliver callout) s (onGrpcClose c callout status code) :=
  grpcDelivery_acts hs fun _ _ => ⟨rfl, rfl, rfl, rfl, by rintro ⟨⟩⟩

theorem onForeignFunction_acts {functionId : UInt32} {arguments : Bytes} (hs : s.Rested) :
    Acts aim s (onForeignFunction c functionId arguments code) := by
  unfold onForeignFunction
  refine bind_requireLive hs fun hready => ?_
  refine bind_check hs require_finds fun _ htype => ?_
  refine bind_check hs accepted_finds fun _ haccepted => ?_
  refine bind_check hs .quiet fun size _ => ?_
  exact deliver_acts hready ⟨ContextTable.isSome_of_contextType htype, haccepted, rfl,
    by rintro _ _ ⟨⟩, by rintro ⟨⟩, rfl, by rintro ⟨⟩⟩

end Callouts

end ProxyWasmHost
