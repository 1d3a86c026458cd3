/-
  Every call of an embedder takes the steps of its aim, so that a run is a path of steps:
  what every step keeps holds in every state of every run.
-/
import ProxyWasmHost.CallScope.Deletion
import ProxyWasmHost.CallScope.Sound
import ProxyWasmHost.Guest.Run

namespace ProxyWasmHost

open Prog Session Prologue

/-- What a call is about. -/
def Op.aim : Op → Aim
  | .enter _ => .enter
  | .start plugin _ => .start plugin
  | .setServices _ => .services
  | .takeChanges => .changes
  | .onContextCreate parent _ => .create parent
  | .onVmStart _ _ => .vmStart
  | .onConfigure _ _ _ => .configure
  | .onDone context _ => .done context
  | .onDelete context _ _ => .delete context
  | .onHttpCallResponse _ callout _ _ | .onGrpcReceiveInitialMetadata _ callout _ _
  | .onGrpcReceive _ callout _ _ | .onGrpcReceiveTrailingMetadata _ callout _ _
  | .onGrpcClose _ callout _ _ => .deliver callout
  | .finish | .dropScope | .forgetScope => .leave
  | _ => .nothing

variable {aim : Aim} {s s' : Session} {α : Type}

/-! ## The end of a scope -/

theorem takeStreamState_steps (detached : Option Lent)
    (haim : aim = .leave ∨ ∃ plugin, aim = .start plugin) :
    Session.Step aim s [] { takeStreamState s with detached } :=
  .left s none detached haim

theorem dropped_steps (haim : aim = .leave ∨ ∃ plugin, aim = .start plugin) :
    Steps (Session.Step aim) s [] (dropped s) := by
  unfold dropped
  dsimp only
  split
  · exact .cons (takeStreamState_steps _ haim) (.single (.abandoned _ haim))
  · exact .single (takeStreamState_steps _ haim)

theorem scope_dropped (s : Session) : (dropped s).scope = none := by
  unfold dropped
  dsimp only
  split <;> rfl

theorem streamState_dropped (s : Session) : (dropped s).abi.streamState = none := by
  unfold dropped
  dsimp only
  split <;> rfl

theorem detached_dropped (s : Session) : (dropped s).detached = match s.abi.streamState with
    | some (.value type value) => some (.value type value)
    | _ => s.detached := by
  unfold dropped
  dsimp only
  split <;> rfl

theorem rested_dropped (hs : s.Rested) : (dropped s).Rested := by
  unfold dropped
  dsimp only
  split
  · exact .of_poisoned rfl
  · exact hs.of_eq rfl rfl rfl rfl

theorem finish_acts (hs : s.Rested) : Acts .leave s finish := by
  unfold finish
  refine .bind_read ?_
  have hend : ∀ s', s'.Rested → Acts .leave s' (Prog.orPanic
      (s.abi.streamState.bind fun lent =>
        if lent.type = s.scope.bind (·.lends) then some lent else none)) :=
    fun s' hs' => .orPanic (fun _ _ => hs') fun _ => hs'
  have hdropped : ∀ s₁ : Session, Steps (Session.Step .leave) s₁ [] (dropped (takeStreamState s₁)) :=
    fun s₁ => .cons (takeStreamState_steps s₁.detached (.inl rfl)) (dropped_steps (.inl rfl))
  refine .bind (M := fun _ s' => s'.Rested) ⟨?_, ?_⟩ fun _ s' => hend s'
  · show Steps (Session.Step .leave) s [] (dropped (takeStreamState _))
    split
    · exact .cons (.poison s) (hdropped _)
    · exact hdropped s
  · refine rested_dropped ?_
    show (takeStreamState _).Rested
    split
    · exact .of_poisoned rfl
    · exact hs.of_eq rfl rfl rfl rfl

/-! ## The start of a plugin -/

namespace ContextTable

variable {t t' : ContextTable} {root : ContextId} {rootId : Bytes}

theorem Unused.of_rootWithId (h : t.rootWithId rootId = none) : t.Unused rootId := by
  intro x entry plugin hget hplugin hid
  unfold ContextTable.rootWithId at h
  rw [List.findSome?_eq_none_iff] at h
  have hx := h (x, entry) (Std.ExtTreeMap.mem_toList_iff_getElem?_eq_some.2 hget)
  dsimp only at hx
  rw [hplugin] at hx
  dsimp only at hx
  rw [if_pos hid] at hx
  cases hx

/-- A new root awaits a root id that no context has. -/
theorem Awaits.creates (h : t.Unused rootId) (c : t.Creates none root t') :
    t'.Awaits root rootId := by
  refine ⟨fun x entry plugin hget hplugin => ?_, fun entry hget => ?_⟩
  · rw [c.get_eq] at hget
    split at hget
    · cases hget
      cases hplugin
    · exact h x entry plugin hget hplugin
  · rw [c.get_eq, if_pos rfl] at hget
    cases hget
    rfl

theorem Awaits.keeps (h : t.Awaits root rootId) (k : t.Keeps t') : t'.Awaits root rootId := by
  refine ⟨fun x entry plugin hget hplugin => ?_, fun entry hget => ?_⟩
  · obtain ⟨entry₀, hget₀, hentry⟩ := k.entry_of hget
    rw [hentry] at hplugin
    exact h.unused x entry₀ plugin hget₀ hplugin
  · obtain ⟨entry₀, hget₀, hentry⟩ := k.entry_of hget
    rw [hentry]
    exact h.bare entry₀ hget₀

end ContextTable

section Start

variable {root : ContextId} {plugin : PluginConfig} {codes : StartCodes}

theorem Session.Ready.started (h : s.Ready) (vmStarted : Bool) :
    (s.mapAbi fun abi => { abi with vmStarted }).Ready :=
  ⟨⟨h.idle, h.live⟩, h.unmarked, h.undelivered⟩

theorem configure_acts (hs : s.Ready) (hawaits : s.abi.contexts.Awaits root plugin.rootId) :
    Follows (Session.Step (.start plugin)) (do
      Prog.modify (·.mapAbi fun abi => { abi with vmStarted := true })
      let configured ← Prog.mapErr (Callback.configure, ·)
        (onConfigure root plugin codes.configure)
      if configured then return Started.serving root else return .refused root .configure)
      (fun _ s' => s'.Rested) (fun _ s' => s'.Rested) (fun s' => s'.Rested) s := by
  refine .bind_modify (.started s ⟨plugin, rfl⟩) ?_
  refine .bind (M := fun _ s' => s'.Rested) (.mapErr ?_) fun configured s' hs' => ?_
  · exact (onConfigure_reaches (hs.started true).rested (.inr ⟨rfl, hawaits⟩)).mono
      (fun _ _ hanswered => hanswered.2.1.rested) (fun _ _ he => he) fun _ hu => hu
  · cases configured <;> exact .pure hs'

theorem startRun_acts (hs : s.Ready) (hawaits : s.abi.contexts.Awaits root plugin.rootId) :
    Follows (Session.Step (.start plugin)) (startRun root plugin codes)
      (fun _ s' => s'.Rested) (fun _ s' => s'.Rested) (fun s' => s'.Rested) s := by
  unfold startRun
  refine .bind_read ?_
  cases hvm : s.abi.vmStarted with
  | true => exact configure_acts hs hawaits
  | false =>
    refine .bind (M := fun started s' => s'.Ready ∧
      (started = true → s'.abi.contexts.Awaits root plugin.rootId)) (.mapErr ?_)
      fun started s' ⟨hs', hawaits'⟩ => ?_
    · refine (onVmStart_reaches hs.rested (.inr ⟨⟨plugin, rfl⟩, hvm⟩)).mono ?_
        (fun _ _ he => he) fun _ hu => hu
      rintro accepted s' ⟨hready, s₁, hframe, rfl⟩
      refine ⟨hready, ?_⟩
      rintro rfl
      exact hawaits.keeps hframe.contexts
    · cases started with
      | false => exact .pure hs'.rested
      | true => exact configure_acts hs' (hawaits' rfl)

/-- **A start**, in a scope of its own. -/
theorem start_acts (hs : s.Rested) (hsound : s.Sound) :
    Acts (.start plugin) s (start plugin codes) := by
  have haim : ∃ plugin', Aim.start plugin = .start plugin' := ⟨plugin, rfl⟩
  unfold start
  refine .bind_read ?_
  split
  · exact .bind (.throw hs) fun _ _ h => h
  · rename_i hnone
    have hentered : Session.Rested { s.mapAbi fun abi =>
        { abi with streamState := some .noStream } with
        detached := none, scope := some ⟨none, Lent.noStream.type⟩ } :=
      hs.of_eq rfl rfl rfl rfl
    refine .bind (M := fun _ s' => s'.Rested ∧ s'.abi.contexts = s.abi.contexts)
      (.modify (.entered s .noStream (.inr haim)) ⟨hentered, rfl⟩) ?_
    rintro _ s1 ⟨hs1, hcontexts⟩
    refine .bind (M := fun _ s' => s'.Rested) (.cleanedUp (fun _ => dropped_steps (.inr haim)) ?_)
      fun answer s2 hs2 => ?_
    · refine .bind (((onContextCreate_reaches hs1 (hcontexts ▸ hsound.contexts)
        (.inr ⟨haim, rfl⟩)).mono (fun _ _ hq => hq) (fun _ _ he => rested_dropped he)
        fun _ hu => rested_dropped hu)) ?_
      rintro root s2 ⟨table, hcreate, hframe, hready⟩
      have hawaits : s2.abi.contexts.Awaits root plugin.rootId := by
        refine ContextTable.Awaits.keeps ?_ hframe.contexts
        refine ContextTable.Awaits.creates ?_ (ContextTable.creates_of_create hcreate)
        rw [hcontexts]
        exact .of_rootWithId hnone
      refine .bind (M := fun _ s' => s'.Rested) (.attempt ((startRun_acts hready hawaits).mono
        (fun _ _ hq => hq) (fun _ _ he => he) fun _ hu => rested_dropped hu)) ?_
      exact fun _ s3 hs3 => .pure (rested_dropped hs3)
    · obtain ⟨root, _ | _⟩ := answer
      · rename_i failure
        obtain ⟨callback, error⟩ := failure
        dsimp only
        have hrested : ∀ f, (s2.mapContexts f).Rested := fun f => hs2.of_eq rfl rfl rfl rfl
        by_cases hvm : callback = .vmStart
        · simp only [hvm, if_true]
          exact .bind_modify (.rejectedVm s2 root (.inr haim)) (.throw (hrested _))
        · simp only [hvm, if_false]
          exact .bind_modify (.rejected s2 root (.inr haim)) (.throw (hrested _))
      · exact .pure hs2

end Start

/-! ## The calls -/

theorem replying_acts {m : Method α} {reply : α → Reply} (h : Acts aim s m) :
    Acts aim s (replying m reply) :=
  .bind h fun _ _ hs' => .pure hs'

/-- A reply changes neither the trace nor the state. -/
theorem replying_run (m : Method α) (reply : α → Reply) (s : Session) :
    ((replying m reply).run s).trace = (m.run s).trace ∧
      ((replying m reply).run s).state = (m.run s).state := by
  unfold replying
  cases hres : m.run s with
  | mk exit s' t =>
    cases exit with
    | ok a => rw [bind_of_ok hres]; exact ⟨List.append_nil t, rfl⟩
    | err e => rw [bind_of_err hres]; exact ⟨rfl, rfl⟩
    | panicked => rw [bind_of_panicked hres]; exact ⟨rfl, rfl⟩

theorem replying_leaves {m : Method α} (reply : α → Reply)
    {Q : α → List Event → Session → Prop} {E : GuestError → List Event → Session → Prop}
    {U : List Event → Session → Prop} (h : Leaves m Q E U s) :
    Leaves (replying m reply) (fun r t s' => ∃ a, r = reply a ∧ Q a t s') E U s := by
  refine .bind (M := Q) h fun a t s' ha => ⟨a, rfl, ?_⟩
  show Q a (t ++ []) s'
  rwa [List.append_nil]

theorem modify_acts {u : Session → Session} (hstep : Session.Step aim s [] (u s))
    (hs : (u s).Rested) : Acts aim s (Prog.modify u) :=
  .modify hstep hs

theorem takeStream_acts {type : ℕ} (hs : s.Rested) : Acts aim s (takeStream type) := by
  unfold takeStream
  refine .bind_read ?_
  split
  · exact .bind_modify (.detached s none) (.pure (hs.of_eq rfl rfl rfl rfl))
  · exact .pure hs

theorem Acts.wire {m : Method I32} [Quiet m] {f : I32 → Method α} (hs : s.Rested)
    (hf : ∀ size, Acts aim s (f size)) : Acts aim s (m >>= f) :=
  bind_check hs .quiet fun size _ => hf size

/-- **Every call of an embedder takes the steps of its aim**, and leaves a guest between
    two calls. -/
theorem Op.perform_acts (op : Op) (hs : s.Rested) (hsound : s.Sound) :
    Acts op.aim s op.perform := by
  have hanchored : s.Ready → ∀ c root, s.abi.contexts.rootOf c = some root → Anchored c root s := by
    intro hready c root hroot id entry hget hcaller
    rcases hsound.callouts with hpoisoned | hanchors
    · rw [hready.live] at hpoisoned
      cases hpoisoned
    · rcases hanchors id entry hget with hroot' | hdeleting
      · rw [hcaller, hroot] at hroot'
        exact (Option.some.inj hroot').symm
      · rw [hready.unmarked] at hdeleting
        cases hdeleting
  cases op with
  | enter stream => exact replying_acts (modify_acts (.entered s stream (.inl rfl))
      (hs.of_eq rfl rfl rfl rfl))
  | start plugin codes => exact replying_acts (start_acts hs hsound)
  | setServices services =>
    exact replying_acts (modify_acts (.services s services rfl) (hs.of_eq rfl rfl rfl rfl))
  | takeStream type => exact replying_acts (takeStream_acts hs)
  | takeStreamAny =>
    exact replying_acts (.bind_read (.bind_modify (.detached s none)
      (.pure (hs.of_eq rfl rfl rfl rfl))))
  | takeChanges =>
    exact replying_acts (.bind_read (.bind_modify (.changes s rfl)
      (.pure (hs.of_eq rfl rfl rfl rfl))))
  | expectStreamKind c kind => exact replying_acts (expectStreamKind_acts hs)
  | onContextCreate parent code =>
    exact replying_acts ((onContextCreate_reaches hs hsound.contexts (.inl rfl)).mono
      (fun _ _ ⟨_, _, _, hready⟩ => hready.rested) (fun _ _ he => he) fun _ hu => hu)
  | onVmStart root code =>
    exact replying_acts ((onVmStart_reaches hs (.inl rfl)).mono
      (fun _ _ hanswered => hanswered.1.rested) (fun _ _ he => he) fun _ hu => hu)
  | onConfigure root plugin code =>
    exact replying_acts ((onConfigure_reaches hs (.inl rfl)).mono
      (fun _ _ hanswered => hanswered.2.1.rested) (fun _ _ he => he) fun _ hu => hu)
  | scopeExpectStreamKind c kind => exact replying_acts (expectStreamKind_acts hs)
  | onRequestHeaders | onRequestBody | onRequestTrailers | onResponseHeaders | onResponseBody
  | onResponseTrailers | onDownstreamData | onUpstreamData =>
    exact replying_acts (Acts.wire hs fun _ => streamAction_acts hs rfl)
  | onNewConnection => exact replying_acts (streamAction_acts hs rfl)
  | onDownstreamConnectionClose => exact replying_acts (streamEvent_acts hs rfl)
  | onUpstreamConnectionClose => exact replying_acts (streamEvent_acts hs rfl)
  | onDone => exact replying_acts (onDone_acts hs rfl)
  | onLog => exact replying_acts (onLog_acts hs)
  | onDelete c codes code =>
    exact replying_acts (onDelete_acts hs hsound.contexts fun hready => hanchored hready c)
  | onTick => exact replying_acts (onTick_acts hs)
  | onQueueReady => exact replying_acts (onQueueReady_acts hs)
  | onHttpCallResponse => exact replying_acts (onHttpCallResponse_acts hs)
  | onGrpcReceiveInitialMetadata => exact replying_acts (onGrpcReceiveInitialMetadata_acts hs)
  | onGrpcReceive => exact replying_acts (onGrpcReceive_acts hs)
  | onGrpcReceiveTrailingMetadata => exact replying_acts (onGrpcReceiveTrailingMetadata_acts hs)
  | onGrpcClose => exact replying_acts (onGrpcClose_acts hs)
  | onForeignFunction => exact replying_acts (onForeignFunction_acts hs)
  | finish => exact replying_acts (finish_acts hs)
  | dropScope => exact replying_acts ⟨dropped_steps (.inl rfl), rested_dropped hs⟩
  | forgetScope =>
    exact replying_acts (modify_acts (.left s s.abi.streamState s.detached (.inl rfl))
      (hs.of_eq rfl rfl rfl rfl))

/-! ## The creation of a guest -/

/-- While no context is made, host functions make none effective. -/
theorem HostStep.contexts_new {h h' : HostState} {t : List Event} (step : HostStep h t h')
    (hnew : h.abi.contexts = .new) : h'.abi.contexts = .new := by
  have hcontext : h.abi.context = none := by
    unfold AbiState.context
    rw [hnew]
    rfl
  cases step with
  | done heff | setEffective heff => rw [hnew] at heff; cases heff
  | tickPeriod period live hc => rw [hcontext] at hc; cases hc
  | shared op answer live hc => rw [hcontext] at hc; cases hc
  | settled => exact h.abi.contexts_settle.trans hnew
  | announced buffer => exact (h.abi.contexts_takeAnnounced buffer).trans hnew
  | _ => exact hnew

theorem callAll_follows (codes : List Code) {h : HostState} (live : h.poisoned = false) :
    Follows HostStep (callAll codes) (fun _ h' => h'.poisoned = false) (fun _ _ => True)
      (fun _ => True) h := by
  induction codes generalizing h with
  | nil => exact .pure live
  | cons code codes ih =>
    unfold callAll
    refine .bind ((callTyped_follows code h).mono (fun _ _ hq => hq) (fun _ _ _ => trivial)
      fun _ _ => trivial) fun _ _ live' => ?_
    exact ih live'

theorem instantiate_follows (module : Module) {h : HostState} (live : h.poisoned = false) :
    Follows HostStep (instantiate module) (fun _ h' => h'.poisoned = false) (fun _ _ => True)
      (fun _ => True) h := by
  have hrest : ∀ h : HostState, h.poisoned = false → Follows HostStep (do
      let memory ← Prog.orThrow module.memory Error.missingMemory
      Prog.modify fun h => { h with memory := some memory }
      Prog.require module.allocator .missingAllocator
      Prog.modify fun h => { h with allocator := true }
      callAll module.initializers) (fun _ h' => h'.poisoned = false) (fun _ _ => True)
      (fun _ => True) h := by
    intro h live
    refine .bind_orThrow (fun memory _ => ?_) fun _ => trivial
    refine .bind_modify (.memory h (some memory) h.allocator) ?_
    refine .bind_require (fun _ => ?_) fun _ => trivial
    refine .bind_modify (.memory _ (some memory) true) ?_
    exact callAll_follows module.initializers live
  unfold instantiate
  split
  · rename_i code _
    refine .bind ((code.exec_runs.follows h live).mono (fun _ _ hq => hq)
      (fun _ _ _ => trivial) fun _ _ => trivial) ?_
    exact fun _ h' live' => hrest h' live'
  · exact hrest h live

theorem Session.sound_new (guest : GuestId) (module : Module) (services : VmServices)
    (limits : Limits) : (Session.new guest module services limits).Sound :=
  ⟨.new, .inr fun _ _ hget => by cases hget⟩

namespace Run

variable (r : Run)

/-- The guest as it was created. -/
def fresh : Session := ((Guest.new r.module).run r.first).state

/-- The events of the creation. -/
def creation : List Event := ((Guest.new r.module).run r.first).trace

/-- **The creation of a guest** takes host steps only, and leaves a ready guest. -/
theorem fresh_ready : Steps (Session.Step .nothing) r.first r.creation r.fresh ∧
    r.fresh.Ready := by
  have hhost := ((instantiate_follows r.module (h := r.first.host) rfl).along
    fun t h' => HostKeeps.of_steps).guarded (I := fun h => h.abi.contexts = .new)
    (fun h t h' hnew step => step.contexts_new hnew) rfl
  obtain ⟨hpath, hends⟩ : Follows (Session.Step .nothing) _ _ _ _ r.first :=
    zoom_host (fun _ => .inr) hhost
  refine ⟨hpath, ?_⟩
  have hexit : ((Prog.zoom Session.host (fun s host => { s with host })
      (instantiate r.module)).run r.first).exit = .ok () := r.created
  rw [hexit] at hends
  obtain ⟨h, hstate, live, hkeeps⟩ := hends
  have hfresh : r.fresh = { r.first with host := h } := hstate
  rw [hfresh]
  exact ⟨⟨hkeeps.currentCallback, live⟩, hkeeps.deleting, hkeeps.delivery⟩

end Run

/-! ## Runs -/

/-- What every step keeps, a path keeps. -/
theorem Session.Sound.steps {t : List Event} (h : s.Sound)
    (path : Steps (Session.Step aim) s t s') : s'.Sound :=
  path.invariant (I := Session.Sound) (fun _ _ _ h step => h.step step) h

/-- A call of an embedder, from a guest between two calls. -/
structure Session.CallPath (s : Session) (call : Call) (s' : Session) : Prop where
  allowed : call.op.Allowed s
  exit : call.exit = (call.op.perform.run s).exit
  trace : call.trace = (call.op.perform.run s).trace
  last : s' = (call.op.perform.run s).state
  rested : s.Rested
  sound : s.Sound
  path : Steps (Session.Step call.op.aim) s call.trace s'

theorem Session.callPath {op : Op} (hallowed : op.Allowed s) (hrested : s.Rested)
    (hsound : s.Sound) :
    s.CallPath ⟨op, (op.perform.run s).exit, (op.perform.run s).trace⟩ (op.perform.run s).state :=
  ⟨hallowed, rfl, rfl, rfl, hrested, hsound, (op.perform_acts hrested hsound).1⟩

theorem Session.rested_perform (op : Op) (hrested : s.Rested) (hsound : s.Sound) :
    (op.perform.run s).state.Rested := by
  obtain ⟨-, hends⟩ := op.perform_acts hrested hsound
  cases hexit : (op.perform.run s).exit <;> rw [hexit] at hends <;> exact hends

/-- **Induction over the calls of a run.** -/
theorem Session.calls_induction {I : List Call → Session → Prop} {calls : List Call}
    (past : List Call) (hcall : ∀ past s call s', I past s → call ∈ calls → s.CallPath call s' →
      I (past ++ [call]) s')
    (hpath : Steps Session.Calls s calls s') (hrested : s.Rested) (hsound : s.Sound)
    (hI : I past s) : I (past ++ calls) s' ∧ s'.Rested ∧ s'.Sound := by
  induction hpath generalizing past with
  | nil s => rw [List.append_nil]; exact ⟨hI, hrested, hsound⟩
  | cons head tail ih =>
    obtain ⟨op, hallowed, rfl, rfl⟩ := head
    have hpath := Session.callPath hallowed hrested hsound
    rw [← List.append_assoc]
    refine ih _ (fun past s call s' hI hmem => hcall past s call s' hI (.tail _ hmem))
      (Session.rested_perform _ hrested hsound) (hsound.steps hpath.path) ?_
    exact hcall _ _ _ _ hI (.head _) hpath

/-- A step of a call with an aim that is allowed. -/
def Session.StepOf (allowed : Aim → Prop) (s : Session) (t : List Event) (s' : Session) : Prop :=
  ∃ aim, allowed aim ∧ s.Sound ∧ s.Step aim t s'

/-- The steps of one call. -/
theorem Session.StepOf.path {allowed : Aim → Prop} {t : List Event} (haim : allowed aim)
    (hsound : s.Sound) (path : Steps (Session.Step aim) s t s') :
    Steps (Session.StepOf allowed) s t s' :=
  (path.guarded (I := Session.Sound) (fun _ _ _ h step => h.step step) hsound).mono
    fun _ _ _ ⟨h, step⟩ => ⟨aim, haim, h, step⟩

/-- **Some calls are a path of steps.** -/
theorem Session.path_of_calls (allowed : Aim → Prop) {calls : List Call}
    (haim : ∀ call ∈ calls, allowed call.op.aim) (hpath : Steps Session.Calls s calls s')
    (hrested : s.Rested) (hsound : s.Sound) :
    Steps (Session.StepOf allowed) s (calls.flatMap Call.trace) s' := by
  have h := Session.calls_induction
    (I := fun done s' => Steps (Session.StepOf allowed) s (done.flatMap Call.trace) s') [] ?_
    hpath hrested hsound (.nil s)
  · exact h.1
  · intro done s₁ call s₂ hdone hmem hcall
    rw [List.flatMap_append, List.flatMap_singleton]
    exact hdone.trans (Session.StepOf.path (haim call hmem) hcall.sound hcall.path)

theorem Session.Calls.singleton {calls : List Call} (h : s.Calls calls s') :
    ∃ call, calls = [call] := by
  obtain ⟨op, -, -, rfl⟩ := h
  exact ⟨_, rfl⟩

namespace Run

variable (r : Run)

theorem fresh_sound : r.fresh.Sound :=
  (Session.sound_new _ _ _ _).steps r.fresh_ready.1

/-- **Induction over a run.** -/
theorem induction {I : List Call → Session → Prop} (hfresh : I [] r.fresh)
    (hcall : ∀ past s call s', I past s → call ∈ r.calls → s.CallPath call s' →
      I (past ++ [call]) s') : I r.calls r.last := by
  have h := Session.calls_induction [] hcall r.called r.fresh_ready.2.rested r.fresh_sound hfresh
  rw [List.nil_append] at h
  exact h.1

/-- **Induction over a run**, with the calls before each call and after it. -/
theorem induction_at {I : List Call → Session → Prop} (hfresh : I [] r.fresh)
    (hcall : ∀ before call after s s', r.calls = before ++ call :: after →
      Steps Session.Calls r.fresh before s → I before s → s.CallPath call s' →
      I (before ++ [call]) s') : I r.calls r.last := by
  have hrest : ∀ s calls s', Steps Session.Calls s calls s' → ∀ before,
      r.calls = before ++ calls → Steps Session.Calls r.fresh before s → I before s → s.Rested →
      s.Sound → I r.calls s' := by
    intro s calls s' hpath
    induction hpath with
    | nil s =>
      intro before hcalls _ hI _ _
      rwa [hcalls, List.append_nil]
    | cons head tail ih =>
      rename_i s t s₁ after s''
      intro before hcalls hbefore hI hrested hsound
      have hhead := head
      obtain ⟨op, hallowed, rfl, rfl⟩ := head
      have hpath := Session.callPath hallowed hrested hsound
      refine ih _ ?_ (hbefore.snoc hhead) ?_ (Session.rested_perform _ hrested hsound)
        (hsound.steps hpath.path)
      · rw [hcalls, List.append_assoc]
      · exact hcall _ _ _ _ _ hcalls hbefore hI hpath
  exact hrest _ _ _ r.called [] rfl (.nil _) hfresh r.fresh_ready.2.rested r.fresh_sound

theorem last_rested : r.last.Rested :=
  (Session.calls_induction (I := fun _ _ => True) [] (fun _ _ _ _ _ _ _ => trivial)
    r.called r.fresh_ready.2.rested r.fresh_sound trivial).2.1

theorem last_sound : r.last.Sound :=
  (Session.calls_induction (I := fun _ _ => True) [] (fun _ _ _ _ _ _ _ => trivial)
    r.called r.fresh_ready.2.rested r.fresh_sound trivial).2.2

/-- The aims of a run: of its creation, and of its calls. -/
def Aims (aim : Aim) : Prop := aim = .nothing ∨ ∃ call ∈ r.calls, aim = call.op.aim

/-- **A run is a path of steps.** -/
theorem path : Steps (Session.StepOf r.Aims) r.first r.trace r.last := by
  refine (Session.StepOf.path (.inl rfl) (Session.sound_new _ _ _ _) r.fresh_ready.1).trans ?_
  exact Session.path_of_calls _ (fun call hmem => .inr ⟨call, hmem, rfl⟩) r.called
    r.fresh_ready.2.rested r.fresh_sound

/-- **A run keeps of its events and its state what each of its steps keeps.** -/
theorem history {I : List Event → Session → Prop} (hfirst : I [] r.first)
    (hstep : ∀ aim past s t s', r.Aims aim → I past s → s.Sound → Session.Step aim s t s' →
      I (past ++ t) s') : I r.trace r.last := by
  refine r.path.history ?_ hfirst
  rintro past s t s' hI ⟨aim, haim, hsound, step⟩
  exact hstep aim past s t s' haim hI hsound step

/-- A run cut at one of its calls. -/
theorem cut_at {before after : List Call} {call : Call} (hcalls : r.calls = before ++ call :: after) :
    ∃ r₀ r₁ : Run, r₀.calls = before ∧ r₁.calls = before ++ [call] ∧
      r₀.trace = r.creation ++ before.flatMap Call.trace ∧
      r₁.trace = r.creation ++ (before ++ [call]).flatMap Call.trace ∧
      r₀.last.CallPath call r₁.last ∧ Steps Session.Calls r₁.last after r.last := by
  obtain ⟨s, hbefore, hrest⟩ := Steps.split (fun _ _ _ => Session.Calls.singleton) r.called hcalls
  obtain ⟨s', hcall, hafter⟩ := hrest.split (fun _ _ _ => Session.Calls.singleton)
    (t := [call]) (u := after) rfl
  have hone := hcall.of_singleton fun _ _ _ => Session.Calls.singleton
  obtain ⟨op, hallowed, rfl, hcall'⟩ := id hone
  cases List.singleton_inj.1 hcall'
  let r₀ : Run := { r with calls := before, last := s, called := hbefore }
  refine ⟨r₀, { r with calls := _, last := _, called := hbefore.snoc hone }, rfl, rfl, rfl, rfl,
    ?_, hafter⟩
  exact Session.callPath hallowed r₀.last_rested r₀.last_sound

end Run

/-! ## Runs from the list of their calls -/

namespace Session

/-- The guest after some calls. -/
def after (s : Session) : List Op → Session
  | [] => s
  | op :: ops => ((op.perform.run s).state).after ops

/-- The calls as a run records them. -/
def calls (s : Session) : List Op → List Call
  | [] => []
  | op :: ops =>
    ⟨op, (op.perform.run s).exit, (op.perform.run s).trace⟩ :: (op.perform.run s).state.calls ops

/-- Whether the borrow of the scope allows the calls one after another. -/
def allows (s : Session) : List Op → Bool
  | [] => true
  | op :: ops => s.scope.isSome == op.inScope && (op.perform.run s).state.allows ops

theorem calls_after {s : Session} {ops : List Op} (h : s.allows ops = true) :
    Steps Session.Calls s (s.calls ops) (s.after ops) := by
  induction ops generalizing s with
  | nil => exact .nil s
  | cons op ops ih =>
    unfold allows at h
    rw [Bool.and_eq_true] at h
    exact .cons (t := [_]) ⟨op, eq_of_beq h.1, rfl, rfl⟩ (ih h.2)

end Session

/-- The run that makes the calls of a list. -/
def Run.of (guest : GuestId) (module : Module) (services : VmServices) (limits : Limits)
    (ops : List Op)
    (created : ((Guest.new module).run (.new guest module services limits)).exit = .ok ())
    (allowed : ((Guest.new module).run (.new guest module services limits)).state.allows ops =
      true) : Run where
  guest := guest
  module := module
  services := services
  limits := limits
  calls := Session.calls _ ops
  last := Session.after _ ops
  created := created
  called := Session.calls_after allowed

/-- A module without code of its own, that exports every callback. -/
def Module.bare : Module where
  exports _ := true
  memory := some (List.replicate 16 0)
  allocator := true
  start := none
  initializers := []

/-- Limits that no small run meets, but for the shared names. -/
def Limits.atMost (maxSharedNames : Option ℕ) : Limits where
  pairLimits := ⟨some 16, some 1024⟩
  maxSharedNames := maxSharedNames
  maxNameBytes := some 64
  maxLogBytes := some 64
  maxOpenCallouts := 16

/-- Guest code that calls one host function and returns. -/
def Code.calling (function : HostCall) (world : World) (value : I32) : Code :=
  .call (List.replicate 16 0) function world (fun _ => .unwind (.trap ""))
    fun _ memory => .ret memory value

/-- Guest code that returns. -/
def Code.returning (value : I32) : Code := .ret (List.replicate 16 0) value

end ProxyWasmHost
