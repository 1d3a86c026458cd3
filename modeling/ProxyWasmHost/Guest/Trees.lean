/-
  The tree a callback stays in: whatever the guest calls in it, and whichever contexts it makes
  effective, the host acts for contexts of one root.
-/
import ProxyWasmHost.Guest.Poisoned
import ProxyWasmHost.Lib.Scan

namespace ProxyWasmHost

open Prog Session Prologue

variable {s s' : Session} {h h' : HostState} {t : List Event} {root c : ContextId}
  {start : AbiState} {callback : Callback} {params : List I32}

/-- What happens in a callback that began in `start` stays in the tree of `root`: the contexts
    the embedder is told about are in it, and so is all that is new of the state. -/
def Event.StaysIn (root : ContextId) (start : AbiState) : Event → Prop
  | .called abi | .finished abi => Confined root start abi
  | .acknowledged c => start.contexts.rootOf c = some root
  | .logged context _ _ =>
    ∀ call, context.call = some call → start.contexts.rootOf call.context = some root
  | .stream call _ | .callout _ call _ _ _ => start.contexts.rootOf call.context = some root
  | .shared _ call _ _ abi =>
    start.contexts.rootOf call.context = some root ∧ Confined root start abi
  | _ => True

/-! ## What host functions do -/

/-- What a host function does for the effective context is done in its tree. -/
theorem Confined.rootOf_effective {abi : AbiState} (hc : Confined root start abi)
    (heff : abi.contexts.effective = some c) : start.contexts.rootOf c = some root := by
  obtain ⟨c', heff', hroot⟩ := hc.effective
  rw [heff] at heff'
  cases heff'
  exact hroot

/-- A log line tells of no other context than the effective one. -/
theorem Confined.rootOf_logContext {abi : AbiState} (hc : Confined root start abi)
    {call : Invocation} (hcall : abi.logContext.call = some call) :
    start.contexts.rootOf call.context = some root := by
  unfold AbiState.logContext at hcall
  split at hcall
  · rename_i heff
    cases hcall
    exact hc.rootOf_effective heff
  · cases hcall

/-- **A step of a host function** stays in the tree. -/
theorem Confined.staysIn (hc : Confined root start h.abi) (step : HostStep h t h') :
    ∀ e ∈ t, e.StaysIn root start := by
  intro e he
  cases step with
  | memory | poison | announced | setEffective | tickPeriod => cases he
  | called live =>
    cases List.mem_singleton.1 he
    exact hc
  | logged level message =>
    cases List.mem_singleton.1 he
    exact fun call => hc.rootOf_logContext
  | stream op live hcontext lent asked =>
    cases List.mem_singleton.1 he
    exact hc.rootOf_context hcontext
  | done heff hdone =>
    cases List.mem_singleton.1 he
    exact hc.rootOf_effective heff
  | settled =>
    cases List.mem_singleton.1 he
    trivial
  | shared op answer live hcontext hgranted hholds hroom =>
    cases List.mem_singleton.1 he
    exact ⟨hc.rootOf_context hcontext, hc⟩
  | opened answer live hcontext hroot hdel hlen hres hop =>
    cases List.mem_singleton.1 he
    exact hc.rootOf_context hcontext
  | sent message endOfStream answer live hcontext hget hkind hopen =>
    cases List.mem_singleton.1 he
    exact hc.rootOf_context hcontext
  | cancelled answer live hcontext hget hkind =>
    cases List.mem_singleton.1 he
    exact hc.rootOf_context hcontext
  | closed answer live hcontext hget hkind hopen =>
    cases List.mem_singleton.1 he
    exact hc.rootOf_context hcontext

theorem Confined.staysIn_steps (hc : Confined root start h.abi) (path : Steps HostStep h t h') :
    ∀ e ∈ t, e.StaysIn root start :=
  path.events (I := fun h => Confined root start h.abi) (fun _ _ _ hc => hc.step)
    (fun _ _ _ hc => hc.staysIn) hc

/-! ## Callbacks -/

/-- The context of the callback that runs after an event, and the state it began in. -/
def Event.runsFor (running : Option (ContextId × AbiState)) :
    Event → Option (ContextId × AbiState)
  | .began _ c _ _ _ abi => some (c, abi)
  | .finished _ => none
  | _ => running

/-- An event stays in the tree of the callback that runs, if any. -/
def Event.StaysWith (running : Option (ContextId × AbiState)) (e : Event) : Prop :=
  ∀ c start root, running = some (c, start) → start.contexts.rootOf c = some root →
    e.StaysIn root start

theorem Event.runsFor_of_ofHost {e : Event} {running : Option (ContextId × AbiState)}
    (h : e.ofHost = true) : e.runsFor running = running := by
  cases e <;> first | rfl | cases h

/-- Events of no callback. -/
theorem Event.staysWith_none (e : Event) : e.StaysWith none := by
  rintro c start root ⟨⟩

theorem Event.staysWith_of_trivial {e : Event} (h : ∀ root start, e.StaysIn root start)
    (running : Option (ContextId × AbiState)) : e.StaysWith running :=
  fun _ start root _ _ => h root start

abbrev StayIn (running : Option (ContextId × AbiState)) (t : List Event) : Prop :=
  Scanned Event.runsFor Event.StaysWith running t

/-- What the guest does in a callback, and what follows it. -/
theorem stayIn_began {rest : List Event} {running : Option (ContextId × AbiState)}
    (path : Steps HostStep (s.running c callback).host t h)
    (hrest : (∀ root, s.abi.contexts.rootOf c = some root → Confined root s.abi h.abi) →
      StayIn (some (c, s.abi)) rest) :
    StayIn running (s.beginning callback c params :: (t ++ rest)) := by
  have hconfined : ∀ root, s.abi.contexts.rootOf c = some root →
      Confined root s.abi (s.running c callback).host.abi := fun root hroot => .setEffective hroot
  refine ⟨fun _ _ _ _ _ => trivial, ?_⟩
  have hstill : ∀ e ∈ t, e.runsFor (some (c, s.abi)) = some (c, s.abi) := fun e he =>
    Event.runsFor_of_ofHost (HostStep.ofHost_of_steps path e he)
  refine Scanned.append_iff.2 ⟨.of_still hstill ?_, ?_⟩
  · rintro e he _ _ root ⟨⟩ hroot
    exact (hconfined root hroot).staysIn_steps path e he
  · show Scanned _ _ (t.foldl _ (some (c, s.abi))) rest
    rw [Scanned.foldl_of_still hstill]
    exact hrest fun root hroot => (hconfined root hroot).steps path

theorem stayIn_performed {how : Event} (ran : s.Performed callback c params how t s')
    (running : Option (ContextId × AbiState)) : StayIn running t := by
  obtain ⟨inner, h, path, -, rfl⟩ := ran
  refine stayIn_began path fun hconfined => ⟨?_, Event.staysWith_none how, trivial⟩
  rintro _ _ root ⟨⟩ hroot
  exact hconfined root hroot

theorem stayIn_stuck (ran : s.Stuck callback c params t s')
    (running : Option (ContextId × AbiState)) : StayIn running t := by
  obtain ⟨inner, h, path, -, rfl⟩ := ran
  have hstay : StayIn running (s.beginning callback c params :: (inner ++ [])) :=
    stayIn_began path fun _ => trivial
  rwa [List.append_nil] at hstay

/-- **A stage** stays in the trees of its callbacks. -/
theorem Session.StageOf.stayIn {makes : Delivered → Prop} (h : Session.StageOf makes s t s')
    (running : Option (ContextId × AbiState)) : StayIn running t := by
  have htaking : ∀ call, StayIn running (s.taking call) := by
    intro call
    refine .of_forall fun e he => Event.staysWith_of_trivial fun root start => ?_
    unfold Session.taking at he
    cases htakes : call.takes with
    | none =>
      rw [htakes] at he
      cases he
    | some id =>
      rw [htakes] at he
      cases List.mem_singleton.1 he
      trivial
  cases h with
  | between between =>
    refine .of_forall fun e he => Event.staysWith_of_trivial fun root start => ?_
    rcases (between.events e he).2 with ⟨_, _, rfl⟩ | ⟨_, _, rfl⟩ <;> trivial
  | performed live ran ends plain => exact stayIn_performed ran running
  | stuck live ran ends plain => exact stayIn_stuck ran running
  | delivered live ran ends made =>
    obtain ⟨u, s₁, ran, rfl, -⟩ := ran
    exact (htaking _).append (stayIn_performed ran)
  | stuckIn live ran ends made =>
    obtain ⟨u, ran, rfl⟩ := ran
    exact (htaking _).append (stayIn_stuck ran)
  | dropped live ids =>
    refine .of_forall fun e he => Event.staysWith_of_trivial fun root start => ?_
    cases List.mem_singleton.1 he
    trivial

/-! ## Runs -/

namespace Run

variable (r : Run)

theorem stayIn : StayIn none r.trace := by
  refine Scanned.append_iff.2 ⟨?_, ?_⟩
  · obtain ⟨h, -, path⟩ := r.creation_host
    exact .of_still (fun e he => Event.runsFor_of_ofHost (HostStep.ofHost_of_steps path e he))
      fun e _ => e.staysWith_none
  · exact (Scanned.of_steps (I := fun _ => True) (fun _ _ _ _ stage => ⟨stage.stayIn, trivial⟩)
      r.staged trivial).1 _

/-- A callback runs for a context the guest knows. -/
theorem began_known {callout : Option CalloutId} {exported : Bool}
    (h : .began callback c callout params exported start ∈ r.trace) :
    (start.contexts.get c).isSome := by
  refine r.path.events (I := fun _ => True) (P := fun e => ∀ b, e.begun = some b →
    (b.2.2.contexts.get b.2.1).isSome) (fun _ _ _ _ _ => trivial) ?_ trivial _ h _ rfl
  rintro s t s' - ⟨aim, -, -, step⟩ e he b hbegun
  cases step with
  | began params may =>
    cases List.mem_singleton.1 he
    cases hbegun
    exact may.known
  | host running step =>
    have hhost := step.ofHost e he
    cases e with
    | began => cases hhost
    | _ => cases hbegun
  | finished | returned | unwound | created | ended | deleted | dropped =>
    cases List.mem_singleton.1 he
    cases hbegun
  | _ => cases he

/-- **Trees**: whatever the guest calls while a callback runs for `c`, whichever contexts it makes
    effective, and when the callback is over, everything stays in the tree of the root of `c`. -/
theorem stays_in_tree {past inner rest : List Event} {callout : Option CalloutId}
    {exported : Bool} {e : Event}
    (ht : r.trace = past ++ .began callback c callout params exported start ::
      (inner ++ e :: rest))
    (hinner : ∀ e ∈ inner, e.ofHost = true) :
    ∃ root, start.contexts.rootOf c = some root ∧ e.StaysIn root start := by
  have hbegan : .began callback c callout params exported start ∈ r.trace := by
    rw [ht]
    simp
  have hknown : (start.contexts.get c).isSome := r.began_known hbegan
  have hroot := ContextTable.rootOf_of_get hknown
  refine ⟨_, hroot, ?_⟩
  have hstay := r.stayIn
  rw [ht] at hstay
  have hstay := Scanned.append_iff.1 hstay
  have he := hstay.2.2.fits
  rw [Scanned.foldl_of_still fun e he => Event.runsFor_of_ofHost (hinner e he)] at he
  exact he c start _ rfl hroot

end Run

namespace Trees

def first : ContextId := .min

/-- Guest code that switches to the stream of its root, and then tries another root. -/
def switch : Code :=
  .call (List.replicate 16 0) (.proxySetEffectiveContext 2) .refusing (fun _ => .unwind (.trap ""))
    fun _ memory => .call memory (.proxySetEffectiveContext 3) .refusing
      (fun _ => .unwind (.trap "")) fun _ memory => .ret memory 0

/-- A guest of two plugins, the first of which tries to act as the second. -/
def switching : Run :=
  .of 8 .bare ⟨[], .info, [], [], 1, 2⟩ (.atMost none)
    [.enter .noStream, .onContextCreate none (.returning 0),
      .onContextCreate (some first) (.returning 0), .onContextCreate none (.returning 0),
      .onTick first switch]
    rfl (by decide)

/-- The callback ends with the stream effective, in the tree of the root it ran for. -/
theorem switching_stays : ∃ start abi : AbiState, .finished abi ∈ switching.trace ∧
    Confined first start abi ∧ abi.contexts.effective.map (·.val) = some 2 := by
  suffices h : ∀ past rest params start abi abi₁ abi₂, switching.trace = past ++
      .began .tick first none params true start ::
        ([.called abi₁, .called abi₂] ++ .finished abi :: rest) →
      start.contexts.rootOf first = some first → abi.contexts.effective.map (·.val) = some 2 →
      ∃ start abi : AbiState, .finished abi ∈ switching.trace ∧ Confined first start abi ∧
        abi.contexts.effective.map (·.val) = some 2 from
    h (switching.trace.take 12) (switching.trace.drop 16) _ _ _ _ _ rfl (by decide) (by decide)
  intro past rest params start abi abi₁ abi₂ ht hfirst heffective
  obtain ⟨root, hroot, hstays⟩ := switching.stays_in_tree ht (by
    intro e he
    rcases List.mem_cons.1 he with rfl | he
    · rfl
    · cases List.mem_singleton.1 he
      rfl)
  cases hfirst.symm.trans hroot
  exact ⟨start, abi, by rw [ht]; simp, hstays, heffective⟩

end Trees

end ProxyWasmHost
