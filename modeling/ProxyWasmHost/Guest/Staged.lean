/-
  A run is a sequence of stages: whatever the embedder calls, the guest runs whole
  callbacks and whole deliveries, and none once it is poisoned or stuck.
-/
import ProxyWasmHost.Guest.Built
import ProxyWasmHost.Guest.Path

namespace ProxyWasmHost

open Prog Session Prologue

variable {makes : Delivered → Prop} {s s' : Session} {ε α : Type} {unw : ε → Bool}
  {m : Prog Session Event ε α}

/-! ## What is built takes stages -/

/-- **From `s`, `m` takes stages**: it leaves a live guest when it returns or fails with an
    error that does not unwind, and no live guest otherwise. -/
abbrev Stages (makes : Delivered → Prop) (unw : ε → Bool) (s : Session)
    (m : Prog Session Event ε α) : Prop :=
  Follows (Session.StageOf makes) m (fun _ s' => s'.Live) (fun e s' => s'.Live ↔ unw e = false)
    (fun s' => ¬ s'.Live) s

theorem Session.Between.of_silent {u : Session → Session} (hu : Silent u) (s : Session) :
    s.Between [] (u s) :=
  ⟨hu.callouts s, hu.delivery s, hu.limits s, hu.live s, by rintro e ⟨⟩⟩

theorem Session.StageOf.of_silent {u : Session → Session} (hu : Silent u) (s : Session) :
    Session.StageOf makes s [] (u s) :=
  .between (.of_silent hu s)

/-- A program whose trace and last state are a stage. -/
theorem Stages.of_leaves (h : Leaves m (fun _ t s' => Session.StageOf makes s t s' ∧ s'.Live)
    (fun e t s' => Session.StageOf makes s t s' ∧ (s'.Live ↔ unw e = false))
    (fun t s' => Session.StageOf makes s t s' ∧ ¬ s'.Live) s) : Stages makes unw s m := by
  unfold Leaves at h
  unfold Stages Follows
  cases hexit : (m.run s).exit <;> rw [hexit] at h <;> exact ⟨.single h.1, h.2⟩

theorem requireLive_stages (hlive : s.Live) : Stages makes GuestError.unwinds s requireLive := by
  have hrun := requireLive_of_live hlive
  unfold Stages Follows
  rw [hrun]
  exact ⟨.nil s, hlive⟩

theorem Session.Over.dead {callback : Callback} {c : ContextId}
    (h : s'.Over callback c (.unwound callback c)) : ¬ s'.Live := by
  cases h with
  | unwound poisoned =>
    intro hlive
    rw [hlive.live] at poisoned
    cases poisoned

theorem Session.Over.live {callback : Callback} {c : ContextId} {value : I32}
    (h : s'.Over callback c (.returned callback c value)) : s'.Live := by
  cases h with
  | returned value live => exact live

theorem run_stages {c : ContextId} {callback : Callback} {params : List I32} {code : Code}
    {default : I32} (hlive : s.Live) (hplain : callback.delivers = false) :
    Stages makes GuestError.unwinds s (Prologue.run c callback params code default) := by
  refine .of_leaves ((run_over hlive).mono ?_ ?_ ?_)
  · rintro value t s' ⟨hran, hover⟩
    exact ⟨.performed hlive hran hover hplain, hover.live⟩
  · rintro e t s' ⟨hran, hover, hunwinds⟩
    exact ⟨.performed hlive hran hover hplain, by simp [hover.dead, hunwinds]⟩
  · rintro t s' ⟨hstuck, hdead⟩
    exact ⟨.stuck hlive hstuck hdead hplain, hdead⟩

theorem deliver_stages {call : Delivered} {code : Code} (hlive : s.Live) (hmade : makes call) :
    Stages makes GuestError.unwinds s (deliver call code) := by
  refine .of_leaves ((deliver_leaves hlive).mono ?_ ?_ ?_)
  · rintro _ t s' ⟨value, hran, hover⟩
    exact ⟨.delivered hlive hran hover hmade, hover.live⟩
  · rintro e t s' ⟨hran, hover, hunwinds⟩
    exact ⟨.delivered hlive hran hover hmade, by simp [hover.dead, hunwinds]⟩
  · rintro t s' ⟨hstuck, hdead⟩
    exact ⟨.stuckIn hlive hstuck hdead hmade, hdead⟩

/-- **What is built takes stages.** -/
theorem Built.stages (hm : Built makes unw m) : ∀ {s : Session}, s.Live → Stages makes unw s m := by
  induction hm with
  | @look _ _ unw m quiet mild calm =>
    intro s hlive
    obtain ⟨exit, hrun⟩ := quiet.looks s
    have hmild := mild s
    have hcalm := calm s
    unfold Stages Follows
    rw [hrun] at hmild hcalm ⊢
    refine ⟨.nil s, ?_⟩
    cases exit with
    | ok a => exact hlive
    | err e => exact ⟨fun _ => hmild e rfl, fun _ => hlive⟩
    | panicked => exact absurd rfl hcalm
  | bind first rest ihFirst ihRest =>
    intro s hlive
    exact .bind (ihFirst hlive) fun a s' hlive' => ihRest a hlive'
  | known first finds rest ihFirst ihRest =>
    intro s hlive
    obtain ⟨exit, hrun, hexit⟩ := finds s
    have hfirst := ihFirst hlive
    unfold Stages Follows at hfirst
    rw [hrun] at hfirst
    refine .bind (M := fun a s' => exit = .ok a ∧ s'.Live) ?_ fun a s' ⟨ha, hlive'⟩ =>
      ihRest a (hexit a ha) hlive'
    unfold Follows
    rw [hrun]
    refine ⟨hfirst.1, ?_⟩
    cases exit with
    | ok a => exact ⟨rfl, hfirst.2⟩
    | err e => exact hfirst.2
    | panicked => exact hfirst.2
  | change silent =>
    intro s hlive
    exact .modify (.of_silent silent s) ((silent.live s).2 hlive)
  | tell silent told =>
    intro s hlive
    refine .act (.between ⟨silent.callouts s, silent.delivery s, silent.limits s, silent.live s, ?_⟩)
      ((silent.live s).2 hlive)
    intro e he
    rw [List.mem_singleton] at he
    subst he
    exact ⟨hlive, told s⟩
  | drop ids =>
    intro s hlive
    exact .act (.dropped hlive ids) ⟨hlive.idle, hlive.live⟩
  | requireLive => exact fun hlive => requireLive_stages hlive
  | run c params code default plain => exact fun hlive => run_stages hlive plain
  | deliver code made => exact fun hlive => deliver_stages hlive made
  | closing body silent ih =>
    intro s hlive
    refine .bind_attempt (ih hlive) ?_ ?_
    · intro a s' hlive'
      exact .bind_modify (.of_silent silent s') (.pure ((silent.live s').2 hlive'))
    · intro e s' hends
      exact .bind_modify (.of_silent silent s') (.throw ((silent.live s').trans hends))
  | mapErr agrees body ih =>
    intro s hlive
    refine .mapErr ((ih hlive).mono (fun _ _ h => h) ?_ fun _ h => h)
    intro e s' hends
    rw [agrees]
    exact hends
  | @rescued ε ε' α β unw unw' g m n u v agrees first second silent silent' ihFirst ihSecond =>
    intro s hlive
    refine .bind (M := fun result s' => (∀ a b, result = (a, .ok b) → s'.Live) ∧
      ∀ a e, result = (a, .error e) → (s'.Live ↔ unw' e = false))
      (.cleanedUp (fun s' => .single (.of_silent silent s')) ?_) ?_
    · refine .bind (M := fun _ s' => s'.Live) ((ihFirst hlive).mono (fun _ _ h => h) ?_ ?_) ?_
      · exact fun e s' hends => (silent.live s').trans hends
      · exact fun s' hdead => mt (silent.live s').1 hdead
      · intro a s' hlive'
        refine .bind_attempt ((ihSecond a hlive').mono (fun _ _ h => h) (fun _ _ h => h) ?_) ?_ ?_
        · exact fun s'' hdead => mt (silent.live s'').1 hdead
        · intro b s'' hlive''
          refine .pure ⟨fun _ _ _ => (silent.live s'').2 hlive'', ?_⟩
          rintro _ _ ⟨⟩
        · intro e s'' hends
          refine .pure ⟨by rintro _ _ ⟨⟩, ?_⟩
          rintro _ _ ⟨⟩
          exact (silent.live s'').trans hends
    · rintro ⟨a, b | b⟩ s' ⟨hok, herror⟩
      · refine .bind_modify (.of_silent (silent' a b) s') (.throw ?_)
        rw [agrees]
        exact ((silent' a b).live s').trans (herror a b rfl)
      · exact .pure (hok a b rfl)

end ProxyWasmHost
