/-
  The stream callbacks of a run: a context has those of one family, and a scope those of
  one context.
-/
import ProxyWasmHost.Guest.Path
import ProxyWasmHost.Lib.Leaves

namespace ProxyWasmHost

open Prog Session Prologue

/-! ## The family of a context -/

/-- The family of `c` is `kind`: its entry says so while it is in the table, its
    identifier is handed out, and the callbacks so far agree. -/
structure FamilyOf (c : ContextId) (kind : StreamKind) (past : List Event) (s : Session) :
    Prop where
  known : c.val < s.abi.contexts.next.val
  entry : ∀ entry, s.abi.contexts.get c = some entry → entry.streamKind = some kind
  agrees : ∀ e ∈ past, ∀ callback abi kind', e.begun = some (callback, c, abi) →
    callback.family = some kind' → kind' = kind

namespace FamilyOf

variable {c : ContextId} {kind : StreamKind} {past t : List Event} {s s' : Session} {aim : Aim}

/-- **A family stays**: no step changes it, and what begins agrees. -/
theorem step (h : FamilyOf c kind past s) (step : s.Step aim t s') :
    FamilyOf c kind (past ++ t) s' where
  known := h.known.trans_le step.evolves.next
  entry entry hget := by
    obtain ⟨entry₀, hget₀, hgrows⟩ := step.evolves.entry_of h.known hget
    exact hgrows.streamKind kind (h.entry entry₀ hget₀)
  agrees e he callback abi kind' hbegun hfamily := by
    rcases List.mem_append.1 he with he | he
    · exact h.agrees e he callback abi kind' hbegun hfamily
    · obtain ⟨rfl, may, -⟩ := step.begun he hbegun
      obtain ⟨entry, hget⟩ := Option.isSome_iff_exists.1 may.known
      have hkind := (may.family kind' hfamily).2
      unfold ContextTable.streamKind at hkind
      rw [hget, Option.bind_some, h.entry entry hget] at hkind
      exact (Option.some.inj hkind).symm

theorem steps (h : FamilyOf c kind past s) (path : Steps (Session.Step aim) s t s') :
    FamilyOf c kind (past ++ t) s' :=
  path.history (I := fun past s => FamilyOf c kind past s) (fun _ _ _ _ h step => h.step step) h

end FamilyOf

/-- The family that a callback of a stream began with is the one of its context. -/
def Familiar (past : List Event) (s : Session) : Prop :=
  ∀ e ∈ past, ∀ callback c abi kind, e.begun = some (callback, c, abi) →
    callback.family = some kind → FamilyOf c kind past s

theorem Familiar.step {past t : List Event} {s s' : Session} {aim : Aim} (h : Familiar past s)
    (hwf : s.abi.contexts.WellFormed) (step : s.Step aim t s') : Familiar (past ++ t) s' := by
  intro e he callback c abi kind hbegun hfamily
  rcases List.mem_append.1 he with he | he
  · exact (h e he callback c abi kind hbegun hfamily).step step
  · obtain ⟨rfl, may, -⟩ := step.begun he hbegun
    refine FamilyOf.step ⟨?_, ?_, ?_⟩ step
    · obtain ⟨entry, hget⟩ := Option.isSome_iff_exists.1 may.known
      exact hwf.below c entry hget
    · intro entry hget
      have hkind := (may.family kind hfamily).2
      unfold ContextTable.streamKind at hkind
      rwa [hget] at hkind
    · intro e' he' callback' abi' kind' hbegun' hfamily'
      have hold := h e' he' callback' c abi' kind' hbegun' hfamily'
      obtain ⟨entry, hget⟩ := Option.isSome_iff_exists.1 may.known
      have hkind := (may.family kind hfamily).2
      unfold ContextTable.streamKind at hkind
      rw [hget, Option.bind_some, hold.entry entry hget] at hkind
      exact Option.some.inj hkind

/-- The family that a call declares. -/
def Op.declares : Op → Option (ContextId × StreamKind)
  | .expectStreamKind context kind | .scopeExpectStreamKind context kind => some (context, kind)
  | _ => none

/-- What a declaration that is accepted leaves. -/
theorem expectStreamKind_leaves (s : Session) (c : ContextId) (kind : StreamKind) :
    Leaves (expectStreamKind c kind) (fun _ t s' => t = [] ∧
        s.abi.contexts.contextType c = some .stream ∧
        (∀ recorded, s.abi.contexts.streamKind c = some recorded → recorded = kind) ∧
        s' = s.mapContexts (·.setStreamKind c kind))
      (fun _ _ _ => True) (fun _ _ => True) s := by
  unfold expectStreamKind
  refine .bind ((requireLive_leaves s).mono (fun _ _ _ h => h) (fun _ _ _ _ => trivial)
    fun _ _ _ => trivial) ?_
  rintro _ _ _ ⟨rfl, rfl, -⟩
  refine .bind_finds requireStream_finds (fun _ hstream => ?_) (fun _ => trivial) trivial
  refine .bind_finds requireStreamKind_finds (fun _ hagrees => ?_) (fun _ => trivial) trivial
  exact ⟨rfl, hstream, hagrees, rfl⟩

/-- An accepted declaration fixes the family. -/
theorem FamilyOf.of_declares {past : List Event} {s s' : Session} {call : Call} {c : ContextId}
    {kind : StreamKind} {reply : Reply} (hcall : s.CallPath call s')
    (hdeclares : call.op.declares = some (c, kind)) (hok : call.exit = .ok reply)
    (hpast : Familiar past s) : FamilyOf c kind (past ++ call.trace) s' := by
  have hleaves : Leaves call.op.perform (fun _ t s' => t = [] ∧
        s.abi.contexts.contextType c = some .stream ∧
        (∀ recorded, s.abi.contexts.streamKind c = some recorded → recorded = kind) ∧
        s' = s.mapContexts (·.setStreamKind c kind))
      (fun _ _ _ => True) (fun _ _ => True) s := by
    have hreply := (replying_leaves (fun _ => Reply.unit)
      (expectStreamKind_leaves s c kind)).mono (fun _ _ _ ⟨_, _, h⟩ => h) (fun _ _ _ h => h)
      fun _ _ h => h
    cases hop : call.op <;> rw [hop] at hdeclares <;> cases hdeclares <;> exact hreply
  unfold Leaves at hleaves
  rw [← hcall.exit, hok, ← hcall.trace, ← hcall.last] at hleaves
  obtain ⟨htrace, hstream, hagrees, hlast⟩ := hleaves
  have hsome := ContextTable.isSome_of_contextType hstream
  rw [htrace, List.append_nil]
  have hentry : ∀ entry, s'.abi.contexts.get c = some entry → entry.streamKind = some kind := by
    intro entry hget
    have hkind := ContextTable.streamKind_setStreamKind_self kind hsome
    rw [hlast] at hget
    unfold ContextTable.streamKind at hkind
    rwa [show (s.abi.contexts.setStreamKind c kind).get c = some entry from hget] at hkind
  refine ⟨?_, hentry, ?_⟩
  · obtain ⟨entry, hget⟩ := Option.isSome_iff_exists.1 hsome
    rw [hlast]
    exact hcall.sound.contexts.below c entry hget
  · intro e he callback abi kind' hbegun hfamily
    obtain ⟨entry, hget⟩ := Option.isSome_iff_exists.1 hsome
    refine hagrees kind' ?_
    unfold ContextTable.streamKind
    rw [hget]
    exact (hpast e he callback c abi kind' hbegun hfamily).entry entry hget

/-- What a call declared with success is the family of its context. -/
def Declared (calls : List Call) (past : List Event) (s : Session) : Prop :=
  ∀ call ∈ calls, ∀ c kind reply, call.op.declares = some (c, kind) → call.exit = .ok reply →
    FamilyOf c kind past s

theorem Familiar.steps {past t : List Event} {s s' : Session} {aim : Aim} (h : Familiar past s)
    (hsound : s.Sound) (path : Steps (Session.Step aim) s t s') : Familiar (past ++ t) s' :=
  (path.history (I := fun past s => Familiar past s ∧ s.Sound)
    (fun _ _ _ _ h step => ⟨h.1.step h.2.contexts step, h.2.step step⟩) ⟨h, hsound⟩).1

/-- A run keeps the families that began, and those that were declared. -/
theorem Run.familiar (r : Run) : Familiar r.trace r.last ∧ Declared r.calls r.trace r.last := by
  refine r.induction (I := fun past s =>
    Familiar (r.creation ++ past.flatMap Call.trace) s ∧
    Declared past (r.creation ++ past.flatMap Call.trace) s) ⟨?_, by rintro call ⟨⟩⟩ ?_
  · rw [List.flatMap_nil, List.append_nil]
    have hfirst : Familiar [] r.first := fun e he => by cases he
    exact hfirst.steps (Session.sound_new _ _ _ _) r.fresh_ready.1
  · rintro past s call s' ⟨hfamiliar, hdeclared⟩ - hcall
    rw [List.flatMap_append, ← List.append_assoc, List.flatMap_singleton]
    refine ⟨hfamiliar.steps hcall.sound hcall.path, ?_⟩
    intro call' hmem c kind reply hdeclares hok
    rcases List.mem_append.1 hmem with hmem | hmem
    · exact (hdeclared call' hmem c kind reply hdeclares hok).steps hcall.path
    · rw [List.mem_singleton] at hmem
      subst hmem
      exact .of_declares hcall hdeclares hok hfamiliar

/-! ## The stream of a scope -/

/-- An event begins a callback that a scope runs for one stream only. -/
def Event.Streams (e : Event) (c : ContextId) : Prop :=
  ∃ callback abi, e.begun = some (callback, c, abi) ∧ callback.ofOneStream = true ∧
    abi.contexts.contextType c = some .stream

/-- The scope is open, and serves the stream whose callbacks began. -/
structure Lends (events : List Event) (s : Session) : Prop where
  entered : s.scope.isSome
  served : ∀ e ∈ events, ∀ c, e.Streams c → s.Serves c

/-- A call that neither enters nor leaves a scope. -/
def Aim.stays : Aim → Bool
  | .enter | .leave | .start _ => false
  | _ => true

theorem Lends.step {events t : List Event} {s s' : Session} {aim : Aim} (h : Lends events s)
    (hstays : aim.stays = true) (step : s.Step aim t s') : Lends (events ++ t) s' := by
  have hnew : ∀ e ∈ t, ∀ c, e.Streams c → s.Serves c := by
    rintro e he c ⟨callback, abi, hbegun, hone, hstream⟩
    obtain ⟨rfl, may, -⟩ := step.begun he hbegun
    exact may.served hone hstream
  have hserved : ∀ e ∈ events ++ t, ∀ c, e.Streams c → s.Serves c := fun e he c hc =>
    (List.mem_append.1 he).elim (fun he => h.served e he c hc) fun he => hnew e he c hc
  cases step with
  | served c other =>
    refine ⟨by rw [← h.entered]; exact Option.isSome_map, fun e he c' hc' scope hscope => ?_⟩
    obtain ⟨scope₀, hscope₀, rfl⟩ := Option.map_eq_some_iff.1 hscope
    exact congrArg some (other scope₀ c' hscope₀ (hserved e he c' hc' scope₀ hscope₀)).symm
  | entered stream aimed | left streamState detached aimed =>
    rcases aimed with rfl | ⟨plugin, rfl⟩ <;> cases hstays
  | _ => exact ⟨h.entered, hserved⟩

theorem Lends.steps {events t : List Event} {s s' : Session} {aim : Aim} (h : Lends events s)
    (hstays : aim.stays = true) (path : Steps (Session.Step aim) s t s') :
    Lends (events ++ t) s' :=
  path.history (I := Lends) (fun _ _ _ _ h step => h.step hstays step) h

/-- Two callbacks in an open scope are for one stream. -/
theorem Lends.agree {events : List Event} {s : Session} (h : Lends events s) {e e' : Event}
    {c c' : ContextId} (he : e ∈ events) (he' : e' ∈ events) (hc : e.Streams c)
    (hc' : e'.Streams c') : c = c' := by
  obtain ⟨scope, hscope⟩ := Option.isSome_iff_exists.1 h.entered
  have h₁ := h.served e he c hc scope hscope
  have h₂ := h.served e' he' c' hc' scope hscope
  rw [h₁] at h₂
  exact Option.some.inj h₂

/-- The end of a scope runs no guest code, and leaves no scope. -/
theorem Op.perform_leave {op : Op} (h : op.aim = .leave) (s : Session) :
    (op.perform.run s).trace = [] ∧ (op.perform.run s).state.scope = none := by
  cases op <;> cases h
  · have hfinish : Leaves ProxyWasmHost.finish (fun _ t s' => t = [] ∧ s'.scope = none)
        (fun _ t s' => t = [] ∧ s'.scope = none) (fun t s' => t = [] ∧ s'.scope = none) s := by
      unfold ProxyWasmHost.finish
      refine .bind_read (.bind_modify ?_)
      have hleft := scope_dropped (takeStreamState
        (if s.abi.currentCallback.isSome then s.mapHost .poison else s))
      exact .finds (.quiet (m := Prog.orPanic _)) (fun _ _ => ⟨rfl, hleft⟩)
        (fun _ => ⟨rfl, hleft⟩) ⟨rfl, hleft⟩
    have hreply := replying_leaves (fun stream => Reply.stream (some stream)) hfinish
    unfold Leaves at hreply
    show ((replying ProxyWasmHost.finish fun stream => Reply.stream (some stream)).run s).trace =
      [] ∧ _
    cases hexit : ((replying ProxyWasmHost.finish
      fun stream => Reply.stream (some stream)).run s).exit <;> rw [hexit] at hreply
    · obtain ⟨_, _, hleft⟩ := hreply
      exact hleft
    · exact hreply
    · exact hreply
  · exact ⟨rfl, scope_dropped s⟩
  · exact ⟨rfl, rfl⟩

/-- Two callbacks for a stream, among these events, are for one stream. -/
def OneStream (events : List Event) : Prop :=
  ∀ e ∈ events, ∀ e' ∈ events, ∀ c c', e.Streams c → e'.Streams c' → c = c'

/-- A call in a scope keeps to its stream. -/
theorem Session.CallPath.oneStream {events : List Event} {s s' : Session} {call : Call}
    (hcall : s.CallPath call s') (hin : call.op.inScope = true)
    (h : OneStream events ∧ (s.scope.isSome → Lends events s)) :
    OneStream (events ++ call.trace) ∧ (s'.scope.isSome → Lends (events ++ call.trace) s') := by
  have hlends := h.2 (hcall.allowed.trans hin)
  by_cases hstays : call.op.aim.stays = true
  · have hlends' := hlends.steps hstays hcall.path
    exact ⟨fun e he e' he' c c' => hlends'.agree he he', fun _ => hlends'⟩
  · have hleave : call.op.aim = .leave := by
      cases hop : call.op <;> rw [hop] at hin hstays <;>
        first | rfl | exact absurd rfl hstays | cases hin
    obtain ⟨htrace, hscope⟩ := call.op.perform_leave hleave s
    rw [← hcall.trace] at htrace
    rw [← hcall.last] at hscope
    rw [htrace, List.append_nil, hscope]
    exact ⟨h.1, fun hsome => by cases hsome⟩

/-- **Streams**: the HTTP and TCP callbacks of a context are of one family, the declared
    one when a declaration was accepted, and all the callbacks that one scope runs for a
    stream are for the same stream. -/
theorem Run.streams (r : Run) :
    (∀ e ∈ r.trace, ∀ e' ∈ r.trace, ∀ c callback callback' abi abi' kind kind',
      e.begun = some (callback, c, abi) → e'.begun = some (callback', c, abi') →
      callback.family = some kind → callback'.family = some kind' → kind = kind') ∧
    (∀ call ∈ r.calls, ∀ c kind reply, call.op.declares = some (c, kind) →
      call.exit = .ok reply → ∀ e ∈ r.trace, ∀ callback abi kind',
        e.begun = some (callback, c, abi) → callback.family = some kind' → kind' = kind) ∧
    ∀ before inside after, r.calls = before ++ (inside ++ after) →
      (∀ call ∈ inside, call.op.inScope = true) → OneStream (inside.flatMap Call.trace) := by
  obtain ⟨hfamiliar, hdeclared⟩ := r.familiar
  refine ⟨?_, ?_, ?_⟩
  · intro e he e' he' c callback callback' abi abi' kind kind' hbegun hbegun' hfamily hfamily'
    exact (hfamiliar e' he' callback' c abi' kind' hbegun' hfamily').agrees e he callback abi
      kind hbegun hfamily
  · intro call hcall c kind reply hdeclares hok e he callback abi kind' hbegun hfamily
    exact (hdeclared call hcall c kind reply hdeclares hok).agrees e he callback abi kind' hbegun
      hfamily
  · intro before inside after hcalls hin
    have hone : ∀ s calls s', Session.Calls s calls s' → ∃ call, calls = [call] :=
      fun s calls s' ⟨_, _, _, hcalls⟩ => ⟨_, hcalls⟩
    obtain ⟨s₁, hbefore, hrest⟩ := r.called.split hone hcalls
    obtain ⟨s₂, hinside, -⟩ := hrest.split hone rfl
    obtain ⟨-, hrested, hsound⟩ := Session.calls_induction (I := fun _ _ => True) []
      (fun _ _ _ _ _ _ _ => trivial) hbefore r.fresh_ready.2.rested r.fresh_sound trivial
    refine ((Session.calls_induction (I := fun past s => OneStream (past.flatMap Call.trace) ∧
      (s.scope.isSome → Lends (past.flatMap Call.trace) s)) [] ?_ hinside hrested hsound ?_).1).1
    · intro past s call s' hI hmem hcall
      rw [List.flatMap_append, List.flatMap_singleton]
      exact hcall.oneStream (hin call hmem) hI
    · exact ⟨by rintro e ⟨⟩, fun h => ⟨h, by rintro e ⟨⟩⟩⟩

end ProxyWasmHost
