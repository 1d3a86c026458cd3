/-
  The trace of a callback: what begins it, what the guest does in it, and what ends it.
-/
import ProxyWasmHost.CallScope.Checks
import ProxyWasmHost.Lib.Leaves

namespace ProxyWasmHost

open Prog Session Prologue

/-- What a host function does happens while guest code runs. -/
theorem HostStep.ofHost {h h' : HostState} {t : List Event} (step : HostStep h t h') :
    ∀ e ∈ t, e.ofHost = true := by
  intro e he
  cases step <;> simp only [List.not_mem_nil, List.mem_singleton] at he <;> subst he <;> rfl

theorem HostStep.ofHost_of_steps {h h' : HostState} {t : List Event}
    (path : Steps HostStep h t h') : ∀ e ∈ t, e.ofHost = true := by
  induction path with
  | nil => exact fun e he => by cases he
  | cons step _ ih =>
    exact fun e he => (List.mem_append.1 he).elim (step.ofHost e) (ih e)

/-- How a callback that is over ended. -/
inductive Event.Tells (callback : Callback) (c : ContextId) : Event → Prop
  | unwound : Tells callback c (.unwound callback c)
  | returned (value : I32) : Tells callback c (.returned callback c value)

theorem Event.Tells.snapshot {callback : Callback} {c : ContextId} {how : Event}
    (h : how.Tells callback c) : how.snapshot = none := by
  cases h <;> rfl

namespace Session

variable {s s' : Session}

/-- The event that begins a callback. -/
def beginning (s : Session) (callback : Callback) (c : ContextId) (params : List I32) : Event :=
  .began callback c (s.abi.delivery.bind (·.callout)) params (s.exports callback) s.abi

/-- The session that a callback left, whose host is `h`. -/
def leftBy (s : Session) (h : HostState) : Session :=
  ({ s with host := h } : Session).mapAbi fun abi => { abi with currentCallback := none }

/-- A callback that is over: what the guest did in it, and how it ended. -/
def Performed (s : Session) (callback : Callback) (c : ContextId) (params : List I32)
    (how : Event) (t : List Event) (s' : Session) : Prop :=
  ∃ inner h, Steps HostStep (s.running c callback).host inner h ∧ s' = s.leftBy h ∧
    t = s.beginning callback c params :: (inner ++ [.finished h.abi, how])

/-- A callback that never returned. -/
def Stuck (s : Session) (callback : Callback) (c : ContextId) (params : List I32)
    (t : List Event) (s' : Session) : Prop :=
  ∃ inner h, Steps HostStep (s.running c callback).host inner h ∧ s' = { s with host := h } ∧
    t = s.beginning callback c params :: inner

end Session

variable {s : Session} {c : ContextId} {callback : Callback} {params : List I32} {code : Code}
  {default : I32}

/-- A guest call takes host steps, and nothing else. -/
theorem callCallback_leaves (s : Session) :
    Leaves (callCallback callback code default)
      (fun _ t s' => ∃ h, s' = { s with host := h } ∧ Steps HostStep s.host t h)
      (fun _ t s' => ∃ h, s' = { s with host := h } ∧ Steps HostStep s.host t h)
      (fun t s' => ∃ h, s' = { s with host := h } ∧ Steps HostStep s.host t h) s := by
  unfold callCallback
  refine .bind_read ?_
  split
  · obtain ⟨hpath, -⟩ := callTyped_follows code s.host
    unfold Leaves
    dsimp only [Prog.zoom]
    cases ((callTyped code).run s.host).exit <;> exact ⟨_, rfl, hpath⟩
  · exact ⟨s.host, rfl, .nil _⟩

/-- **The trace of a callback.** -/
theorem run_leaves (s : Session) :
    Leaves (run c callback params code default)
      (fun value => s.Performed callback c params (.returned callback c value))
      (fun _ => s.Performed callback c params (.unwound callback c))
      (s.Stuck callback c params) s := by
  unfold Prologue.run
  refine .bind_act (.bind (M := fun _ t s' => ∃ h, s' = { s with host := h } ∧
    Steps HostStep (s.running c callback).host t h)
    (.attempt ((callCallback_leaves _).mono ?_ ?_ ?_)) ?_)
  · exact fun _ _ _ h => h
  · exact fun _ _ _ h => h
  · rintro inner _ ⟨h, rfl, path⟩
    exact ⟨inner, h, path, rfl, rfl⟩
  · rintro result inner _ ⟨h, rfl, path⟩
    refine .bind_act ?_
    cases result with
    | ok value => exact .bind_emit (.pure ⟨inner, h, path, rfl, rfl⟩)
    | error e => exact .bind_emit (.throw ⟨inner, h, path, rfl, rfl⟩)

/-- The choice of the stream that a scope serves is no part of the guest. -/
theorem requireServedStream_silent (s : Session) (c : ContextId) :
    Leaves (requireServedStream c) (fun _ t s' => t = [] ∧ s'.abi = s.abi)
      (fun _ t s' => t = [] ∧ s'.abi = s.abi) (fun t s' => t = [] ∧ s'.abi = s.abi) s := by
  unfold requireServedStream
  refine .bind_read ?_
  split
  · unfold requireServed
    refine .bind_read ?_
    split
    · exact .bind_finds .require (fun _ _ => ⟨rfl, rfl⟩) (fun _ => ⟨rfl, rfl⟩) ⟨rfl, rfl⟩
    · exact ⟨rfl, rfl⟩
  · exact ⟨rfl, rfl⟩

end ProxyWasmHost
