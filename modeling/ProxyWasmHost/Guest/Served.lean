/-
  What a guest is served: while the callback of a delivery runs, what the embedder
  delivered, and nothing at any other time.
-/
import ProxyWasmHost.Guest.Poisoned
import ProxyWasmHost.HostFunctions.Delivered
import ProxyWasmHost.Lib.Scan

namespace ProxyWasmHost

open Prog Session Prologue

variable {s s' : Session} {h h' : HostState} {t u : List Event} {op : Op}

/-! ## The callback that runs -/

/-- A callback that runs, with what it was told. -/
structure Running where
  callback : Callback
  callout : Option CalloutId
  params : List I32

/-- The callback that runs after an event. -/
def Event.runs (running : Option Running) : Event → Option Running
  | .began callback _ id params _ _ => some ⟨callback, id, params⟩
  | .finished _ => none
  | _ => running

/-- The callback that runs after the events of a call. -/
def runningIn (past : List Event) : Option Running := past.foldl Event.runs none

/-- What a call of the embedder serves in a callback: what it brings, to the callback of that,
    with its numbers. -/
inductive Op.Serves (op : Op) : Running → Option Delivery → Prop
  | delivery {d : Delivery} {params : List I32} (brings : op.Brings d)
      (counted : d.CountedBy params) : Serves op ⟨d.callback, d.callout, params⟩ (some d)
  | nothing {running : Running} (plain : running.callback.delivers = false) :
      Serves op running none

/-- Where the guest calls the host, a callback runs, and finds what `op` serves. -/
def Op.ServesAt (op : Op) (running : Option Running) (e : Event) : Prop :=
  ∀ abi, e = .called abi → ∃ r, running = some r ∧ op.Serves r abi.delivery

/-- Wherever the guest calls the host in `t`, it finds what `op` serves. -/
abbrev Op.ServedIn (op : Op) (running : Option Running) (t : List Event) : Prop :=
  Scanned Event.runs op.ServesAt running t

/-- Events in which the guest calls nothing. -/
theorem Op.servedIn_of_silent {running : Option Running}
    (h : ∀ e ∈ t, ∀ abi, e ≠ .called abi) : op.ServedIn running t :=
  .of_forall fun e he _ abi hcalled => absurd hcalled (h e he abi)

theorem Event.runs_of_ofHost {e : Event} {running : Option Running} (h : e.ofHost = true) :
    e.runs running = running := by
  cases e <;> first | rfl | cases h

/-! ## What host functions leave -/

/-- What the guest does in a callback, it does with what the callback was given. -/
theorem Op.servedIn_of_host {r : Running} (path : Steps HostStep h t h')
    (hserves : op.Serves r h.abi.delivery) : op.ServedIn (some r) t := by
  refine .of_still (fun e he => Event.runs_of_ofHost (HostStep.ofHost_of_steps path e he)) ?_
  refine path.events (I := fun h => op.Serves r h.abi.delivery) ?_ ?_ hserves
  · intro h t h' hserves step
    rw [(HostKeeps.of_step step).delivery]
    exact hserves
  · intro h t h' hserves step e he abi hcalled
    refine ⟨r, rfl, ?_⟩
    have hshow : e.snapshot = some abi := by rw [hcalled]; rfl
    rw [step.snapshot he hshow]
    exact hserves

/-! ## Stages -/

/-- The guest of a live session is given nothing between two stages. -/
def Session.Unlent (s : Session) : Prop := s.Live → s.abi.delivery = none

/-- The trace of a callback, which finds what it was given. -/
theorem Op.servedIn_began {running : Option Running} {callback : Callback} {c : ContextId}
    {params : List I32} {rest : List Event}
    (path : Steps HostStep (s.running c callback).host t h)
    (hserves : op.Serves ⟨callback, s.abi.delivery.bind (·.callout), params⟩ s.abi.delivery)
    (hrest : ∀ e ∈ rest, ∀ abi, e ≠ .called abi) :
    op.ServedIn running (s.beginning callback c params :: (t ++ rest)) := by
  refine ⟨by rintro abi ⟨⟩, ?_⟩
  exact (Op.servedIn_of_host path hserves).append fun _ => Op.servedIn_of_silent hrest

theorem Op.servedIn_performed {running : Option Running} {callback : Callback} {c : ContextId}
    {params : List I32} {how : Event} (hran : s.Performed callback c params how t s')
    (hhow : how.snapshot = none)
    (hserves : op.Serves ⟨callback, s.abi.delivery.bind (·.callout), params⟩ s.abi.delivery) :
    op.ServedIn running t := by
  obtain ⟨inner, h, path, rfl, rfl⟩ := hran
  refine Op.servedIn_began path hserves ?_
  simp only [List.mem_cons, List.not_mem_nil, or_false]
  rintro e (rfl | rfl) abi
  · rintro ⟨⟩
  · rintro rfl
    cases hhow

theorem Op.servedIn_stuck {running : Option Running} {callback : Callback} {c : ContextId}
    {params : List I32} (hran : s.Stuck callback c params t s')
    (hserves : op.Serves ⟨callback, s.abi.delivery.bind (·.callout), params⟩ s.abi.delivery) :
    op.ServedIn running t := by
  obtain ⟨inner, h, path, rfl, rfl⟩ := hran
  have hserved : op.ServedIn running (s.beginning callback c params :: (inner ++ [])) :=
    Op.servedIn_began path hserves (by rintro e ⟨⟩)
  rwa [List.append_nil] at hserved

/-- The delivery that is lent. -/
theorem Session.delivery_lending (s : Session) (call : Delivered) :
    (s.lending call).abi.delivery = some call.delivery := by
  unfold lending
  cases call.takes <;> rfl

theorem Session.delivery_settled (s : Session) (call : Delivered) (s₁ : Session) :
    (s.settled call s₁).abi.delivery = none := by
  unfold settled
  split
  · split <;> rfl
  · rfl

/-- What a faithful delivery serves. -/
theorem Delivered.Faithful.serves {call : Delivered} (h : call.Faithful op.Brings) :
    op.Serves ⟨call.callback, (s.lending call).abi.delivery.bind (·.callout), call.params⟩
      (s.lending call).abi.delivery := by
  rw [s.delivery_lending, h.callback]
  exact .delivery h.brings h.counted

/-- The events around a delivery are no calls of the guest. -/
theorem Session.taking_silent (s : Session) (call : Delivered) :
    ∀ e ∈ s.taking call, ∀ abi, e ≠ .called abi := by
  unfold taking
  cases call.takes with
  | none => rintro e ⟨⟩
  | some id =>
    intro e he abi hcalled
    cases List.mem_singleton.1 he
    cases hcalled

/-- **A stage serves** the guest what the call brings, and leaves it nothing. -/
theorem Session.StageOf.served (h : Session.StageOf (·.Faithful op.Brings) s t s')
    (hunlent : s.Unlent) : (∀ running, op.ServedIn running t) ∧ s'.Unlent := by
  cases h with
  | between between =>
    refine ⟨fun running => Op.servedIn_of_silent fun e he abi hcalled => ?_, fun hlive => ?_⟩
    · rcases (between.events e he).2 with ⟨_, _, rfl⟩ | ⟨_, _, rfl⟩ <;> cases hcalled
    · rw [between.delivery]
      exact hunlent (between.live.1 hlive)
  | performed live ran ends plain =>
    have hnone := hunlent live
    refine ⟨fun running => Op.servedIn_performed ran ?_ ?_, fun _ => ?_⟩
    · cases ends <;> rfl
    · rw [hnone]
      exact .nothing plain
    · obtain ⟨inner, h, path, rfl, rfl⟩ := ran
      exact (HostKeeps.of_steps path).delivery.trans hnone
  | stuck live ran ends plain =>
    refine ⟨fun running => Op.servedIn_stuck ran ?_, fun hlive => absurd hlive ends⟩
    rw [hunlent live]
    exact .nothing plain
  | delivered live ran ends made =>
    obtain ⟨u, s₁, hran, rfl, rfl⟩ := ran
    refine ⟨fun running => ?_, fun _ => s.delivery_settled _ s₁⟩
    exact Scanned.append (Op.servedIn_of_silent (s.taking_silent _)) fun _ =>
      Op.servedIn_performed hran (by cases ends <;> rfl) made.serves
  | stuckIn live ran ends made =>
    obtain ⟨u, hran, rfl⟩ := ran
    refine ⟨fun running => ?_, fun hlive => absurd hlive ends⟩
    exact Scanned.append (Op.servedIn_of_silent (s.taking_silent _)) fun _ =>
      Op.servedIn_stuck hran made.serves
  | dropped live ids =>
    refine ⟨fun running => Op.servedIn_of_silent fun e he abi hcalled => ?_,
      fun _ => hunlent live⟩
    cases List.mem_singleton.1 he
    cases hcalled

theorem Op.served_of_stages (path : Steps (Session.StageOf (·.Faithful op.Brings)) s t s')
    (hunlent : s.Unlent) : (∀ running, op.ServedIn running t) ∧ s'.Unlent :=
  Scanned.of_steps (I := Session.Unlent) (fun _ _ _ hunlent stage => stage.served hunlent) path
    hunlent

/-! ## Runs -/

namespace Run

variable (r : Run)

/-- Whenever the guest calls the host in a run, it is given what the call of the embedder
    brings to the callback that runs. -/
theorem served {call : Call} (hcall : call ∈ r.calls) {past rest : List Event} {abi : AbiState}
    (ht : call.trace = past ++ .called abi :: rest) :
    ∃ running, runningIn past = some running ∧ call.op.Serves running abi.delivery := by
  have hserved : ∀ s calls s', Steps Session.Calls s calls s' → s.Unlent →
      ∀ call ∈ calls, call.op.ServedIn none call.trace := by
    intro s calls s' path
    induction path with
    | nil s => rintro _ call ⟨⟩
    | cons head tail ih =>
      intro hunlent call hcall
      obtain ⟨op, -, rfl, rfl⟩ := head
      obtain ⟨hhead, hunlent'⟩ := Op.served_of_stages (op.stages _) hunlent
      rcases List.mem_append.1 hcall with hcall | hcall
      · rw [List.mem_singleton] at hcall
        subst hcall
        exact hhead none
      · exact ih hunlent' call hcall
  have h := hserved _ _ _ r.called (fun _ => r.fresh_ready.2.undelivered) call hcall
  rw [ht] at h
  exact h.fits abi rfl

/-- While a guest is created, it is given nothing. -/
theorem creation_unlent {abi : AbiState} (hcalled : .called abi ∈ r.creation) :
    abi.delivery = none := by
  obtain ⟨h, -, path⟩ := r.creation_host
  refine path.events (I := fun h => h.abi.delivery = none)
    (P := fun e => ∀ abi, e.snapshot = some abi → abi.delivery = none) ?_ ?_ rfl _ hcalled abi rfl
  · intro h t h' hnone step
    exact (HostKeeps.of_step step).delivery.trans hnone
  · intro h t h' hnone step e he abi hshow
    rw [step.snapshot he hshow]
    exact hnone

/-- No method of the stream state is asked for what the crate serves itself. -/
theorem unasked {call : Invocation} {op : StreamOp} (h : .stream call op ∈ r.trace) :
    op.resource = none := by
  refine r.path.events (I := fun _ => True)
    (P := fun e => ∀ call op, e = .stream call op → op.resource = none)
    (fun _ _ _ _ _ => trivial) ?_ trivial _ h call op rfl
  rintro s t s' - ⟨aim, -, -, step⟩ e he call op rfl
  cases step with
  | host running step =>
    cases step <;> simp only [List.not_mem_nil, List.mem_singleton] at he <;> cases he
    assumption
  | began | finished | returned | unwound | created | ended | deleted | dropped =>
    cases List.mem_singleton.1 he
  | _ => cases he

end Run

/-! ## What the guest reads -/

/-- What a state answers to the guest's reads of maps and buffers that only deliveries carry: what
    its delivery carries is read, and anything else is refused. -/
def AbiState.AnswersReads (abi : AbiState) : Prop :=
  ∀ (env : Env) (h : HostState), h.abi = abi →
    (∀ d, abi.delivery = some d → d.ReadBy env h) ∧
    ∀ (function : HostCall) (resource : Resource), function.reads = some resource →
      resource.ofDelivery = true →
      (∀ d, abi.delivery = some d → d.carries resource = false) →
      ∃ exit, (function.run env).run h = ⟨exit, h, []⟩ ∧ exit ≠ .ok Status.ok.toI32

theorem AbiState.answersReads (abi : AbiState) : abi.AnswersReads := by
  rintro env h rfl
  exact ⟨fun d => Delivery.readBy, fun function resource => HostCall.read_refused⟩

theorem ContextTable.Keeps.plugin {t t' : ContextTable} (h : t.Keeps t') (c : ContextId) :
    t'.plugin c = t.plugin c := by
  have hget := h.map_eq (·.plugin) (fun _ => rfl)
  unfold ContextTable.plugin
  rw [h.rootOf]
  cases t.rootOf c with
  | none => rfl
  | some root =>
    have hroot := hget root
    cases hx : t.get root <;> cases hx' : t'.get root <;> simp_all

/-- Whatever a guest call does, what the crate serves stays as it is. -/
theorem callTyped_serves (code : Code) (h : HostState) :
    ((callTyped code).run h).state.abi.delivery = h.abi.delivery ∧
      ((callTyped code).run h).state.abi.services = h.abi.services ∧
      ∀ c, ((callTyped code).run h).state.abi.contexts.plugin c = h.abi.contexts.plugin c := by
  have hkeeps := HostKeeps.of_steps (callTyped_follows code h).1
  exact ⟨hkeeps.delivery, hkeeps.services, hkeeps.contexts.plugin⟩

/-- **What the crate serves.** No method of the stream state is asked for it; a write of it is
    refused and changes nothing, as nothing does that a guest calls. Whenever the guest calls the
    host, it reads what the call of the embedder brings to the callback that runs, with the
    numbers it was told, and nothing of any other delivery. -/
theorem served_resources (r : Run) :
    (∀ call op, .stream call op ∈ r.trace → op.resource = none) ∧
    (∀ (env : Env) (h : HostState) (function : HostCall) (resource : Resource),
      function.writes h.memory = some resource →
      ∃ exit, (function.run env).run h = ⟨exit, h, []⟩ ∧ exit ≠ .ok Status.ok.toI32) ∧
    (∀ (code : Code) (h : HostState),
      ((callTyped code).run h).state.abi.delivery = h.abi.delivery ∧
      ((callTyped code).run h).state.abi.services = h.abi.services ∧
      ∀ c, ((callTyped code).run h).state.abi.contexts.plugin c = h.abi.contexts.plugin c) ∧
    (∀ call ∈ r.calls, ∀ past rest abi, call.trace = past ++ .called abi :: rest →
      ∃ running, runningIn past = some running ∧ call.op.Serves running abi.delivery ∧
        abi.AnswersReads) ∧
    ∀ abi, .called abi ∈ r.creation → abi.delivery = none ∧ abi.AnswersReads := by
  refine ⟨fun call op => r.unasked, fun env h function resource => HostCall.write_refused,
    callTyped_serves, fun call hcall past rest abi ht => ?_, fun abi hcalled => ?_⟩
  · obtain ⟨running, hrunning, hserves⟩ := r.served hcall ht
    exact ⟨running, hrunning, hserves, abi.answersReads⟩
  · exact ⟨r.creation_unlent hcalled, abi.answersReads⟩

end ProxyWasmHost
