/-
  The turns of a guest: a run is its callbacks one after another, each over before the next
  begins, and whatever reaches the embedder in one of them tells of that callback.
-/
import ProxyWasmHost.Guest.Served
import ProxyWasmHost.Guest.Trees

namespace ProxyWasmHost

open Prog Session Prologue

variable {s s' : Session} {h h' : HostState} {t : List Event} {c : ContextId}

/-! ## One turn -/

/-- A callback that began in the state `start`. -/
structure Turn where
  callback : Callback
  context : ContextId
  start : AbiState

namespace Turn

/-- The callout that the callback runs for. -/
def callout (b : Turn) : Option CalloutId := b.start.delivery.bind (·.callout)

/-- The plugin of the root that the callback runs for. -/
def plugin (b : Turn) : Option PluginConfig :=
  (b.start.contexts.rootOf b.context).bind b.start.contexts.plugin

/-- A call that the embedder is told about names the turn. -/
structure Names (b : Turn) (call : Invocation) : Prop where
  guest : call.guest = b.start.guest
  callback : call.callback = some b.callback
  callout : call.callout = b.callout
  tree : b.start.contexts.rootOf call.context = b.start.contexts.rootOf b.context

/-- A state that the guest has in the turn. -/
structure Reaches (b : Turn) (abi : AbiState) : Prop where
  guest : abi.guest = b.start.guest
  services : abi.services = b.start.services
  callback : abi.currentCallback = some b.callback
  delivery : abi.delivery = b.start.delivery
  confined : ∃ root, b.start.contexts.rootOf b.context = some root ∧ Confined root b.start abi

/-- A log line names the turn: the guest, its VM and its plugin as they were when the turn began,
    and the call. -/
structure Signs (b : Turn) (context : LogContext) : Prop where
  guest : context.guest = b.start.guest
  vmId : context.vmId = b.start.services.vmId
  pluginName : context.pluginName = b.plugin.map (·.name)
  rootId : context.rootId = b.plugin.map (·.rootId)
  call : ∃ call, context.call = some call ∧ b.Names call

end Turn

/-- What happens in a turn tells of it, and goes to the services that the guest had when it
    began. -/
def Event.InTurn (b : Turn) : Event → Prop
  | .called abi | .finished abi => b.Reaches abi
  | .acknowledged c => b.start.contexts.rootOf c = b.start.contexts.rootOf b.context
  | .logged context _ _ => b.Signs context
  | .stream call _ => b.Names call
  | .settled service => service = b.start.services.shared
  | .shared service call _ _ abi =>
    service = b.start.services.shared ∧ b.Names call ∧ b.Reaches abi
  | .callout service call _ _ _ => service = b.start.services.callouts ∧ b.Names call
  | _ => False

namespace Turn.Reaches

variable {b : Turn} {abi : AbiState}

theorem names (hb : b.Reaches abi)
    (heffective : abi.contexts.effective = some c) : b.Names (abi.invocation c) := by
  obtain ⟨root, hroot, hconfined⟩ := hb.confined
  refine ⟨hb.guest, hb.callback, ?_, ?_⟩
  · exact congrArg (Option.bind · (·.callout)) hb.delivery
  · exact (hconfined.rootOf_effective heffective).trans hroot.symm

theorem names_of_context (hb : b.Reaches abi) (hcontext : abi.context = some c) :
    b.Names (abi.invocation c) :=
  hb.names (AbiState.effective_of_context hcontext).1

theorem signs (hb : b.Reaches abi) : b.Signs abi.logContext := by
  obtain ⟨root, hroot, hconfined⟩ := hb.confined
  obtain ⟨c, heffective, hc⟩ := hconfined.effective
  -- the line names the plugin of the effective context, which is in the tree of the turn
  have hplugin : (abi.contexts.rootOf c).bind abi.contexts.plugin = b.plugin := by
    have hkeeps := hconfined.contexts
    unfold Turn.plugin
    rw [hkeeps.rootOf, hc, hroot, Option.bind_some, Option.bind_some, hkeeps.plugin]
  unfold AbiState.logContext
  rw [hb.callback, heffective]
  refine ⟨hb.guest, congrArg VmServices.vmId hb.services, ?_, ?_, _, rfl, hb.names heffective⟩
  · exact congrArg (Option.map _) hplugin
  · exact congrArg (Option.map _) hplugin

/-- **A step of a host function** tells of the turn. -/
theorem inTurn (hb : b.Reaches h.abi) (step : HostStep h t h') : ∀ e ∈ t, e.InTurn b := by
  intro e he
  cases step with
  | memory | poison | announced | setEffective | tickPeriod => cases he
  | called live =>
    cases List.mem_singleton.1 he
    exact hb
  | logged level message =>
    cases List.mem_singleton.1 he
    exact hb.signs
  | stream op live hcontext lent asked =>
    cases List.mem_singleton.1 he
    exact hb.names_of_context hcontext
  | done heff hdone =>
    cases List.mem_singleton.1 he
    exact (hb.names heff).tree
  | settled =>
    cases List.mem_singleton.1 he
    exact congrArg VmServices.shared hb.services
  | shared op answer live hcontext hgranted hholds hroom =>
    cases List.mem_singleton.1 he
    exact ⟨congrArg VmServices.shared hb.services, hb.names_of_context hcontext, hb⟩
  | opened answer live hcontext hroot hdel hlen hres hop =>
    cases List.mem_singleton.1 he
    exact ⟨congrArg VmServices.callouts hb.services, hb.names_of_context hcontext⟩
  | sent message endOfStream answer live hcontext hget hkind hopen =>
    cases List.mem_singleton.1 he
    exact ⟨congrArg VmServices.callouts hb.services, hb.names_of_context hcontext⟩
  | cancelled answer live hcontext hget hkind =>
    cases List.mem_singleton.1 he
    exact ⟨congrArg VmServices.callouts hb.services, hb.names_of_context hcontext⟩
  | closed answer live hcontext hget hkind hopen =>
    cases List.mem_singleton.1 he
    exact ⟨congrArg VmServices.callouts hb.services, hb.names_of_context hcontext⟩

theorem steps (hb : b.Reaches h.abi) (path : Steps HostStep h t h') : b.Reaches h'.abi := by
  have hkeeps := HostKeeps.of_steps path
  obtain ⟨root, hroot, hconfined⟩ := hb.confined
  exact ⟨hkeeps.guest.trans hb.guest, hkeeps.services.trans hb.services,
    hkeeps.currentCallback.trans hb.callback, hkeeps.delivery.trans hb.delivery, root, hroot,
    hconfined.steps path⟩

theorem inTurn_steps (hb : b.Reaches h.abi) (path : Steps HostStep h t h') :
    ∀ e ∈ t, e.InTurn b := by
  refine path.events (I := fun h => b.Reaches h.abi) (fun _ _ _ hb step => ?_)
    (fun _ _ _ hb step => hb.inTurn step) hb
  exact hb.steps (.single step)

end Turn.Reaches

/-- A turn begins in its own state, for a context that the guest knows. -/
theorem Session.reaches_running {callback : Callback} (hknown : (s.abi.contexts.get c).isSome) :
    (Turn.mk callback c s.abi).Reaches (s.running c callback).host.abi := by
  have hroot := ContextTable.rootOf_of_get hknown
  exact ⟨rfl, rfl, rfl, rfl, _, hroot, .setEffective hroot⟩

/-! ## One turn after another -/

/-- What a guest is at, once it is created. -/
inductive Moment where
  | idle
  | running (turn : Turn)
  | leaving (turn : Turn)
  | broken

/-- What a guest is at after an event. -/
def Event.moves (m : Moment) : Event → Moment
  | .began callback context _ _ _ abi => .running ⟨callback, context, abi⟩
  | .finished _ =>
    match m with
    | .running b => .leaving b
    | _ => .broken
  | .returned _ _ _ | .created _ _ | .deleted _ _ | .ended _ _ | .dropped _ => .idle
  | .unwound _ _ => .broken
  | _ => m

/-- What happens outside the turns: one begins, or the tables change. -/
def Event.outside : Event → Bool
  | .began _ _ _ _ _ _ | .created _ _ | .deleted _ _ | .ended _ _ | .dropped _ => true
  | _ => false

/-- An event can happen at a moment, and tells of it. -/
def Event.Fits (m : Moment) (e : Event) : Prop :=
  match m with
  | .idle => e.outside = true
  | .running b => (e.ofHost = true ∨ ∃ abi, e = .finished abi) ∧
    ((b.start.contexts.get b.context).isSome → e.InTurn b)
  | .leaving b => e.Tells b.callback b.context
  | .broken => False

/-- Turn after turn, from the moment `m` on. -/
abbrev Turns (m : Moment) (t : List Event) : Prop := Scanned Event.moves Event.Fits m t

theorem Event.moves_of_ofHost {e : Event} {m : Moment} (h : e.ofHost = true) : e.moves m = m := by
  cases e <;> first | rfl | cases h

theorem Event.not_ofHost_of_outside {e : Event} (h : e.outside = true) : e.ofHost = false := by
  cases e <;> first | rfl | cases h

/-- Changes of the tables, one after another. -/
theorem turns_of_tables (ht : ∀ e ∈ t, e.outside = true ∧ e.begun = none) :
    Turns .idle t ∧ t.foldl Event.moves .idle = .idle := by
  have hstill : ∀ e ∈ t, e.moves .idle = .idle := by
    intro e he
    obtain ⟨hout, hbegun⟩ := ht e he
    cases e with
    | began => cases hbegun
    | created | deleted | ended | dropped => rfl
    | _ => cases hout
  exact ⟨.of_still hstill fun e he => (ht e he).1, Scanned.foldl_of_still hstill⟩

/-- What the guest does in a turn, and what follows it. -/
theorem turns_began {callback : Callback} (params : List I32) (rest : List Event) {m : Moment}
    (path : Steps HostStep (s.running c callback).host t h)
    (hrest : Turns (.running ⟨callback, c, s.abi⟩) rest)
    (hlast : rest.foldl Event.moves (.running ⟨callback, c, s.abi⟩) = m) :
    Turns .idle (s.beginning callback c params :: (t ++ rest)) ∧
      (s.beginning callback c params :: (t ++ rest)).foldl Event.moves .idle = m := by
  have hhost := HostStep.ofHost_of_steps path
  have hstill : t.foldl Event.moves (.running ⟨callback, c, s.abi⟩) =
      .running ⟨callback, c, s.abi⟩ :=
    Scanned.foldl_of_still fun e he => Event.moves_of_ofHost (hhost e he)
  refine ⟨⟨rfl, Scanned.append_iff.2 ⟨?_, ?_⟩⟩, ?_⟩
  · refine .of_still (fun e he => Event.moves_of_ofHost (hhost e he)) fun e he => ?_
    exact ⟨.inl (hhost e he), fun hknown => (reaches_running hknown).inTurn_steps path e he⟩
  · show Turns (t.foldl Event.moves (.running ⟨callback, c, s.abi⟩)) rest
    rwa [hstill]
  · rw [List.foldl_cons, List.foldl_append]
    exact (congrArg (rest.foldl Event.moves) hstill).trans hlast

/-- A session whose events brought it to the moment `m`. -/
structure Session.At (s : Session) (m : Moment) : Prop where
  idle : s.Live → m = .idle
  told : ∀ b, m ≠ .leaving b

theorem turns_performed {callback : Callback} {params : List I32} {how : Event}
    {s₁ : Session} (ran : s.Performed callback c params how t s₁)
    (ends : s'.Over callback c how) : Turns .idle t ∧ s'.At (t.foldl Event.moves .idle) := by
  obtain ⟨inner, h, path, -, rfl⟩ := ran
  have hfinished : (Event.finished h.abi).Fits (.running ⟨callback, c, s.abi⟩) :=
    ⟨.inr ⟨_, rfl⟩, fun hknown => (reaches_running hknown).steps path⟩
  cases ends with
  | returned value live =>
    obtain ⟨hturns, hlast⟩ := turns_began params
      [.finished h.abi, .returned callback c value] (m := .idle) path ⟨hfinished, .returned value, trivial⟩ rfl
    rw [hlast]
    exact ⟨hturns, fun _ => rfl, by rintro _ ⟨⟩⟩
  | unwound poisoned =>
    obtain ⟨hturns, hlast⟩ := turns_began params
      [.finished h.abi, .unwound callback c] (m := .broken) path ⟨hfinished, .unwound, trivial⟩ rfl
    rw [hlast]
    refine ⟨hturns, fun hlive => ?_, by rintro _ ⟨⟩⟩
    rw [hlive.live] at poisoned
    cases poisoned

theorem turns_stuck {callback : Callback} {params : List I32}
    (ran : s.Stuck callback c params t s') (ends : ¬ s'.Live) :
    Turns .idle t ∧ s'.At (t.foldl Event.moves .idle) := by
  obtain ⟨inner, h, path, rfl, rfl⟩ := ran
  obtain ⟨hturns, hlast⟩ := turns_began params [] path trivial rfl
  rw [List.append_nil] at hturns hlast
  rw [hlast]
  exact ⟨hturns, fun hlive => absurd hlive ends, by rintro _ ⟨⟩⟩

/-- What a delivery takes out is no part of its turn. -/
theorem turns_taking {call : Delivered} {u : List Event}
    (hu : Turns .idle u ∧ s'.At (u.foldl Event.moves .idle)) :
    Turns .idle (s.taking call ++ u) ∧ s'.At ((s.taking call ++ u).foldl Event.moves .idle) := by
  obtain ⟨htaking, hlast⟩ := turns_of_tables (t := s.taking call) fun e he => by
    unfold Session.taking at he
    cases htakes : call.takes with
    | none =>
      rw [htakes] at he
      cases he
    | some id =>
      rw [htakes] at he
      cases List.mem_singleton.1 he
      exact ⟨rfl, rfl⟩
  rw [List.foldl_append, hlast]
  exact ⟨Scanned.append_iff.2 ⟨htaking, by rw [hlast]; exact hu.1⟩, hu.2⟩

/-- **A stage** takes turns, one after another. -/
theorem Session.At.stage {m : Moment} (hat : s.At m) (stage : s.Stage t s') :
    Turns m t ∧ s'.At (t.foldl Event.moves m) := by
  by_cases hlive : s.Live
  · cases hat.idle hlive
    cases stage with
    | between between =>
      obtain ⟨hturns, hlast⟩ := turns_of_tables (t := t) fun e he => by
        rcases (between.events e he).2 with ⟨_, _, rfl⟩ | ⟨_, _, rfl⟩ <;> exact ⟨rfl, rfl⟩
      rw [hlast]
      exact ⟨hturns, fun _ => rfl, by rintro _ ⟨⟩⟩
    | performed live ran ends plain => exact turns_performed ran ends
    | stuck live ran ends plain => exact turns_stuck ran ends
    | delivered live ran ends made =>
      obtain ⟨u, s₁, ran, rfl, rfl⟩ := ran
      exact turns_taking (turns_performed ran ends)
    | stuckIn live ran ends made =>
      obtain ⟨u, ran, rfl⟩ := ran
      exact turns_taking (turns_stuck ran ends)
    | dropped live ids => exact ⟨⟨rfl, trivial⟩, fun _ => rfl, by rintro _ ⟨⟩⟩
  · obtain ⟨rfl, hdead⟩ := stage.silent hlive
    exact ⟨trivial, fun hlive' => absurd hlive' hdead, hat.told⟩

/-- When a turn runs after some events, it began in them, and what came since happened in it. -/
theorem began_of_running {b : Turn} {past : List Event}
    (hrunning : past.foldl Event.moves .idle = .running b) :
    ∃ before callout params exported inner,
      past = before ++ .began b.callback b.context callout params exported b.start :: inner ∧
        ∀ e ∈ inner, e.ofHost = true := by
  induction past using List.reverseRecOn with
  | nil => cases hrunning
  | append_singleton past e ih =>
    rw [List.foldl_append] at hrunning
    by_cases he : e.ofHost = true
    · rw [List.foldl_cons, Event.moves_of_ofHost he] at hrunning
      obtain ⟨before, callout, params, exported, inner, rfl, hinner⟩ := ih hrunning
      refine ⟨before, callout, params, exported, inner ++ [e], by simp, fun e' he' => ?_⟩
      rcases List.mem_append.1 he' with he' | he'
      · exact hinner e' he'
      · cases List.mem_singleton.1 he'
        exact he
    · generalize past.foldl Event.moves .idle = m at hrunning
      cases e with
      | began callback context callout params exported abi =>
        cases hrunning
        exact ⟨past, callout, params, exported, [], rfl, by rintro e ⟨⟩⟩
      | finished abi => cases m <;> cases hrunning
      | returned | unwound | created | deleted | ended | dropped => cases hrunning
      | called | acknowledged | logged | stream | settled | shared | callout => exact absurd rfl he

/-! ## Runs -/

/-- What happens while the guest `guest` is created, with these services, tells of the guest
    alone. -/
def Event.Building (guest : GuestId) (services : VmServices) : Event → Prop
  | .called abi => abi.guest = guest ∧ abi.services = services ∧ abi.currentCallback = none
  | .logged context _ _ => context = ⟨services.vmId, guest, none, none, none⟩
  | .settled service => service = services.shared
  | _ => False

/-- The guest keeps its identity. -/
theorem Session.Step.guest {aim : Aim} (step : s.Step aim t s') :
    s'.abi.guest = s.abi.guest := by
  cases step with
  | host running step => exact (HostKeeps.of_step step).guest
  | @deleted c isRoot => cases isRoot <;> rfl
  | _ => rfl

/-- What follows while a turn runs happens in it, until it is over. -/
theorem Turns.of_running {b : Turn} (hknown : (b.start.contexts.get b.context).isSome)
    (h : Turns (.running b) t) : ∃ inner after, t = inner ++ after ∧
      (∀ e ∈ inner, e.ofHost = true ∧ e.InTurn b) ∧
      (after = [] ∨ ∃ abi u, after = .finished abi :: u ∧ b.Reaches abi ∧
        Turns (.leaving b) u) := by
  induction t with
  | nil => exact ⟨[], [], rfl, by rintro e ⟨⟩, .inl rfl⟩
  | cons e t ih =>
    obtain ⟨⟨hhost | ⟨abi, rfl⟩, hturn⟩, hrest⟩ := h
    · rw [Event.moves_of_ofHost hhost] at hrest
      obtain ⟨inner, after, rfl, hinner, hafter⟩ := ih hrest
      refine ⟨e :: inner, after, rfl, fun e' he' => ?_, hafter⟩
      rcases List.mem_cons.1 he' with rfl | he'
      · exact ⟨hhost, hturn hknown⟩
      · exact hinner e' he'
    · exact ⟨[], _, rfl, by rintro e ⟨⟩, .inr ⟨abi, t, rfl, hturn hknown, hrest⟩⟩

namespace Run

variable (r : Run)

theorem guest_of_snapshot {e : Event} {abi : AbiState} (he : e ∈ r.trace)
    (hshow : e.snapshot = some abi) : abi.guest = r.guest := by
  refine r.path.events (I := fun s => s.abi.guest = r.guest)
    (P := fun e => ∀ abi, e.snapshot = some abi → abi.guest = r.guest) ?_ ?_ rfl e he abi hshow
  · rintro s t s' hguest ⟨aim, -, -, step⟩
    exact step.guest.trans hguest
  · rintro s t s' hguest ⟨aim, -, -, step⟩ e he abi hshow
    rw [step.snapshot he hshow]
    exact hguest

theorem creation_building : ∀ e ∈ r.creation, e.Building r.guest r.services := by
  obtain ⟨h, -, path⟩ := r.creation_host
  refine path.events (I := fun h => h.abi.contexts = .new ∧ h.abi.guest = r.guest ∧
    h.abi.services = r.services ∧ h.abi.currentCallback = none) ?_ ?_ ⟨rfl, rfl, rfl, rfl⟩
  · rintro h t h' ⟨hnew, hguest, hservices, hidle⟩ step
    have hkeeps := HostKeeps.of_step step
    exact ⟨step.contexts_new hnew, hkeeps.guest.trans hguest, hkeeps.services.trans hservices,
      hkeeps.currentCallback.trans hidle⟩
  · rintro h t h' ⟨hnew, hguest, hservices, hidle⟩ step e he
    have hcontext : h.abi.context = none := by
      unfold AbiState.context
      rw [hnew]
      rfl
    cases step with
    | memory | poison | announced => cases he
    | called live =>
      cases List.mem_singleton.1 he
      exact ⟨hguest, hservices, hidle⟩
    | logged level message =>
      cases List.mem_singleton.1 he
      show h.abi.logContext = _
      unfold AbiState.logContext
      rw [hidle, ← hguest, ← hservices]
    | settled =>
      cases List.mem_singleton.1 he
      exact congrArg VmServices.shared hservices
    | done heff | setEffective heff =>
      rw [hnew] at heff
      cases heff
    | stream op live hc | tickPeriod period live hc | shared op answer live hc
    | opened answer live hc | sent message endOfStream answer live hc | cancelled answer live hc
    | closed answer live hc =>
      cases hcontext.symm.trans hc

/-- **A run takes turns** once the guest is created, and ends in none that is over and not told
    of. -/
theorem turns : Turns .idle (r.calls.flatMap Call.trace) ∧
    r.last.At ((r.calls.flatMap Call.trace).foldl Event.moves .idle) := by
  refine r.staged.history (I := fun past s => Turns .idle past ∧
    s.At (past.foldl Event.moves .idle)) (p := []) ?_
    ⟨trivial, fun _ => rfl, by rintro _ ⟨⟩⟩
  rintro past s t s' ⟨hpast, hat⟩ stage
  obtain ⟨hturns, hat'⟩ := hat.stage stage
  rw [List.foldl_append]
  exact ⟨Scanned.append_iff.2 ⟨hpast, hturns⟩, hat'⟩

/-- A turn begins when no callback runs, for a context that the guest knows, and tells of the
    callout that is delivered. -/
theorem began_truly {callback : Callback} {callout : Option CalloutId} {params : List I32}
    {exported : Bool} {start : AbiState}
    (h : .began callback c callout params exported start ∈ r.trace) :
    callout = start.delivery.bind (·.callout) ∧ start.currentCallback = none := by
  refine r.path.events (I := fun _ => True) (P := fun e => ∀ callback c callout params exported abi,
    e = .began callback c callout params exported abi →
    callout = abi.delivery.bind (·.callout) ∧ abi.currentCallback = none)
    (fun _ _ _ _ _ => trivial) ?_ trivial _ h _ _ _ _ _ _ rfl
  rintro s t s' - ⟨aim, -, -, step⟩ e he callback c callout params exported abi rfl
  cases step with
  | began params may =>
    cases List.mem_singleton.1 he
    exact ⟨rfl, may.idle⟩
  | host running step => cases step.ofHost _ he
  | finished | returned | unwound | created | ended | deleted | dropped =>
    cases List.mem_singleton.1 he
  | _ => cases he

/-- **Who is told of.** Whatever reaches the embedder, or its services, from a run is done by the
    guest while it is created, and then tells of the guest alone; or it is done in a turn that
    has begun and is not over, and then tells of this guest, the callback, the callout that is
    delivered, and a context of the tree the callback runs for; a log line names the VM and the
    plugin of that tree as they were when the turn began; and what is asked goes to the services
    that the guest had then. -/
theorem tells_whose_turn {past rest : List Event} {e : Event} (ht : r.trace = past ++ e :: rest)
    (he : e.ofHost = true) :
    (∀ e' ∈ past, e'.ofHost = true) ∧ e.Building r.guest r.services ∨
      ∃ b before params exported inner,
        past = before ++ .began b.callback b.context b.callout params exported b.start :: inner ∧
          (∀ e' ∈ inner, e'.ofHost = true) ∧ b.start.guest = r.guest ∧ e.InTurn b := by
  obtain ⟨h, -, path⟩ := r.creation_host
  have hcreation := HostStep.ofHost_of_steps path
  have hsplit : r.creation ++ r.calls.flatMap Call.trace = past ++ e :: rest := ht
  -- in the calls, it happens in a turn
  have hcalls : ∀ before, r.calls.flatMap Call.trace = before ++ e :: rest →
      ∃ b, before.foldl Event.moves .idle = .running b ∧
        ((b.start.contexts.get b.context).isSome → e.InTurn b) := by
    intro before hbefore
    have hfits := r.turns.1
    rw [hbefore] at hfits
    have hfits := hfits.fits
    generalize before.foldl Event.moves .idle = m at hfits
    cases m with
    | idle => cases he.symm.trans (Event.not_ofHost_of_outside hfits)
    | running b => exact ⟨b, rfl, hfits.2⟩
    | leaving b => cases hfits <;> cases he
    | broken => exact hfits.elim
  obtain ⟨before, rfl, hbefore⟩ | ⟨inner, hpast, hrest⟩ := List.append_eq_append_iff.1 hsplit
  · right
    obtain ⟨b, hrunning, hturn⟩ := hcalls before hbefore
    obtain ⟨before, callout, params, exported, inner, rfl, hinner⟩ := began_of_running hrunning
    have hbegan : .began b.callback b.context callout params exported b.start ∈ r.trace := by
      rw [ht]
      simp
    obtain ⟨rfl, -⟩ := r.began_truly hbegan
    exact ⟨b, r.creation ++ before, params, exported, inner, by simp [Turn.callout], hinner,
      r.guest_of_snapshot hbegan rfl, hturn (r.began_known hbegan)⟩
  · cases inner with
    | nil =>
      obtain ⟨b, hrunning, -⟩ := hcalls [] hrest.symm
      cases hrunning
    | cons e' inner =>
      cases hrest
      refine .inl ⟨fun e' he' => hcreation e' ?_, r.creation_building e ?_⟩
      · exact (show r.creation = _ from hpast) ▸ List.mem_append_left _ he'
      · rw [hpast]
        simp

/-- **Turn after turn.** A callback begins while none runs, and from then on nothing happens but
    what the guest does in it, until it is over. Then how it ended is told, with the same callback
    and the same context, and the next that happens is that another one begins or the tables
    change; and nothing, when the callback unwound. A turn that is never over is the last of the
    run, in a guest that is not live. -/
theorem takes_turns {past rest : List Event} {b : Turn} {callout : Option CalloutId}
    {params : List I32} {exported : Bool} (ht : r.trace =
      past ++ .began b.callback b.context callout params exported b.start :: rest) :
    b.start.currentCallback = none ∧ callout = b.callout ∧
      ∃ inner after, rest = inner ++ after ∧ (∀ e ∈ inner, e.ofHost = true ∧ e.InTurn b) ∧
        (after = [] ∧ ¬ r.last.Live ∨
          ∃ abi how later, after = .finished abi :: how :: later ∧ b.Reaches abi ∧
            (how = .unwound b.callback b.context ∧ later = [] ∨
              (∃ value, how = .returned b.callback b.context value) ∧
                ∀ e ∈ later.head?, e.outside = true)) := by
  have hbegan : .began b.callback b.context callout params exported b.start ∈ r.trace := by
    rw [ht]
    simp
  obtain ⟨hcallout, hidle⟩ := r.began_truly hbegan
  obtain ⟨hturns, hat⟩ := r.turns
  obtain ⟨before, hbefore⟩ : ∃ before, r.calls.flatMap Call.trace =
      before ++ .began b.callback b.context callout params exported b.start :: rest := by
    have hsplit : r.creation ++ r.calls.flatMap Call.trace = past ++ _ :: rest := ht
    obtain ⟨before, -, hcalls⟩ | ⟨inner, hpast, hrest⟩ := List.append_eq_append_iff.1 hsplit
    · exact ⟨before, hcalls⟩
    · cases inner with
      | nil => exact ⟨[], hrest.symm⟩
      | cons e' inner =>
        cases hrest
        obtain ⟨h, -, path⟩ := r.creation_host
        have hmem : .began b.callback b.context callout params exported b.start ∈ r.creation := by
          rw [show r.creation = _ from hpast]
          simp
        cases HostStep.ofHost_of_steps path _ hmem
  rw [hbefore] at hturns hat
  rw [List.foldl_append, List.foldl_cons] at hat
  obtain ⟨inner, after, rfl, hinner, hafter⟩ :=
    Turns.of_running (r.began_known hbegan) (Scanned.append_iff.1 hturns).2.2
  refine ⟨hidle, hcallout, inner, after, rfl, hinner, ?_⟩
  have hstill : inner.foldl Event.moves (.running b) = .running b :=
    Scanned.foldl_of_still fun e he => Event.moves_of_ofHost (hinner e he).1
  have hat : r.last.At ((inner ++ after).foldl Event.moves (.running b)) := hat
  rw [List.foldl_append, hstill] at hat
  rcases hafter with rfl | ⟨abi, u, rfl, hreaches, hleaving⟩
  · exact .inl ⟨rfl, fun hlive => by cases hat.idle hlive⟩
  · cases u with
    | nil => exact absurd rfl (hat.told b)
    | cons how later =>
      obtain ⟨htells, hlater⟩ := hleaving
      refine .inr ⟨abi, how, later, rfl, hreaches, ?_⟩
      cases htells with
      | unwound =>
        cases later with
        | nil => exact .inl ⟨rfl, rfl⟩
        | cons e later => exact hlater.1.elim
      | returned value =>
        refine .inr ⟨⟨value, rfl⟩, ?_⟩
        cases later with
        | nil => rintro e ⟨⟩
        | cons e later =>
          rintro _ ⟨⟩
          exact hlater.1

end Run

namespace Turns

/-- Guest code that logs a line. -/
def logs : Code := .calling (.proxyLog 2 0 4) .refusing 0

/-- A guest that logs a line in a tick of its plugin. -/
def logging : Run :=
  .of 9 .bare ⟨[], .info, [7], [], 1, 2⟩ (.atMost none)
    [.start ⟨[5], [6], []⟩ ⟨.returning 0, .returning 1, .returning 1⟩, .enter .noStream,
      .onTick .min logs]
    rfl (by decide)

/-- The line names the guest, and the plugin whose tick it is written in. -/
theorem logging_signed : ∃ (b : Turn) (context : LogContext) (level : LogLevel) (message : Bytes),
    .logged context level message ∈ logging.trace ∧
      b.start.guest = 9 ∧ b.Signs context := by
  obtain ⟨context, level, message, ht⟩ : ∃ context level message, logging.trace =
      logging.trace.take 12 ++ .logged context level message :: logging.trace.drop 13 :=
    ⟨_, _, _, rfl⟩
  obtain ⟨id, parent, hcreated⟩ : ∃ id parent, .created id parent ∈ logging.trace.take 12 :=
    ⟨_, _, .head _⟩
  obtain ⟨hhost, -⟩ | ⟨b, -, -, -, -, -, -, hguest, hsigns⟩ := logging.tells_whose_turn ht rfl
  · cases hhost _ hcreated
  · exact ⟨b, context, level, message, by rw [ht]; simp, hguest, hsigns⟩

/-- The line is written in the tick, in which nothing else happens until it is over. -/
theorem logging_tick : ∃ (b : Turn) (inner after : List Event), b.callback = .tick ∧
    logging.trace.drop 11 = inner ++ after ∧ (∀ e ∈ inner, e.InTurn b) ∧
    ∃ context level message, .logged context level message ∈ inner := by
  obtain ⟨callout, params, exported, start, ht⟩ : ∃ callout params exported start, logging.trace =
      logging.trace.take 10 ++ .began .tick .min callout params exported start ::
        logging.trace.drop 11 := ⟨_, _, _, _, rfl⟩
  obtain ⟨-, -, inner, after, hrest, hinner, hafter⟩ :=
    logging.takes_turns (b := ⟨.tick, .min, start⟩) ht
  refine ⟨_, inner, after, rfl, hrest, fun e he => (hinner e he).2, ?_⟩
  obtain ⟨abi, context, level, message, later, hdrop⟩ : ∃ abi context level message later,
      logging.trace.drop 11 = .called abi :: .logged context level message :: later :=
    ⟨_, _, _, _, _, rfl⟩
  rw [hdrop] at hrest
  -- What is after the turn is nothing, or begins with its end; so the line is before it.
  have hends : ∀ e later, after = e :: later → ∃ abi, e = .finished abi := by
    rintro e later rfl
    obtain ⟨hnothing, -⟩ | ⟨abi, how, later', hend, -⟩ := hafter
    · cases hnothing
    · exact ⟨abi, (List.cons.inj hend).1⟩
  cases inner with
  | nil => cases (hends _ _ hrest.symm).choose_spec
  | cons e inner =>
    obtain ⟨-, hrest⟩ := List.cons.inj hrest
    cases inner with
    | nil => cases (hends _ _ hrest.symm).choose_spec
    | cons e' inner =>
      obtain ⟨rfl, -⟩ := List.cons.inj hrest
      exact ⟨context, level, message, by simp⟩

end Turns

end ProxyWasmHost
