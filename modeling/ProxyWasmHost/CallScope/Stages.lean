/-
  The stages of a method: whole callbacks, whole deliveries, and what it does between
  them.

  A path of `Session.Step` forgets which steps one delivery made together. Here a
  delivery is one stage, from the callout it takes out of the table to the callout it
  puts back, and every method is a sequence of stages, whatever state it runs in.
-/
import ProxyWasmHost.CallScope.Finalize
import ProxyWasmHost.CallScope.Traces

namespace ProxyWasmHost

open Prog Session Prologue

/-- Whether a callback runs for a delivery. -/
def Callback.delivers : Callback → Bool
  | .httpCallResponse | .grpcReceiveInitialMetadata | .grpcReceive | .grpcReceiveTrailingMetadata
  | .grpcClose | .foreignFunction => true
  | _ => false

/-! ## Deliveries -/

/-- The callout that a delivery takes out of the table. -/
def Delivered.takes (call : Delivered) : Option CalloutId :=
  if call.ends then call.callout else none

namespace Session

/-- The entry that a delivery takes out, with its identifier. -/
def entryOf (s : Session) (call : Delivered) : Option (CalloutId × Callout) :=
  call.takes.bind fun id => (s.abi.callouts.get id).map fun entry => (id, entry)

/-- The event of the callout that a delivery takes out. -/
def taking (s : Session) (call : Delivered) : List Event :=
  (call.takes.map fun id => Event.ended id (s.abi.callouts.get id)).toList

/-- The session in which the callback of a delivery begins. -/
def lending (s : Session) (call : Delivered) : Session :=
  (match call.takes with
    | some id => s.mapCallouts (·.remove id)
    | none => s).mapAbi fun abi => { abi with delivery := some call.delivery }

/-- The session `s₁` once the delivery is over: the entry it took comes back when the
    guest did not survive. -/
def settled (s : Session) (call : Delivered) (s₁ : Session) : Session :=
  match s.entryOf call with
  | some (id, entry) =>
    if s₁.host.poisoned then
      (s₁.mapAbi fun abi => { abi with delivery := none }).mapCallouts (·.enter id entry)
    else s₁.mapAbi fun abi => { abi with delivery := none }
  | none => s₁.mapAbi fun abi => { abi with delivery := none }

/-- A delivery that is over, and how its callback ended. -/
def Delivers (s : Session) (call : Delivered) (how : Event) (t : List Event) (s' : Session) :
    Prop :=
  ∃ u s₁, (s.lending call).Performed call.callback call.context call.params how u s₁ ∧
    t = s.taking call ++ u ∧ s' = s.settled call s₁

/-- A delivery whose callback never returned. -/
def StuckIn (s : Session) (call : Delivered) (t : List Event) (s' : Session) : Prop :=
  ∃ u, (s.lending call).Stuck call.callback call.context call.params u s' ∧
    t = s.taking call ++ u

end Session

/-- Whether an error of a method says that a guest call unwound. -/
def GuestError.unwinds : GuestError → Bool
  | .runtime error => error.unwinds
  | _ => false

/-- How a callback that is over left the guest. -/
inductive Session.Over (callback : Callback) (c : ContextId) (s' : Session) : Event → Prop
  | returned (value : I32) (live : s'.Live) : Over callback c s' (.returned callback c value)
  | unwound (poisoned : s'.host.poisoned = true) : Over callback c s' (.unwound callback c)

variable {s s' : Session} {call : Delivered} {code : Code} {callback : Callback} {c : ContextId}
  {params : List I32} {default : I32}

theorem Session.Over.of_eq {how : Event} {s₁ : Session} (h : s₁.Over callback c how)
    (hpoisoned : s'.host.poisoned = s₁.host.poisoned)
    (hcurrent : s'.abi.currentCallback = s₁.abi.currentCallback) : s'.Over callback c how := by
  cases h with
  | returned value live =>
    exact .returned value ⟨hcurrent.trans live.idle, hpoisoned.trans live.live⟩
  | unwound poisoned => exact .unwound (hpoisoned.trans poisoned)

/-! ## Callbacks -/

/-- A guest call of a live guest poisons it exactly when it fails. -/
theorem callCallback_lives (hlive : s.host.poisoned = false) :
    Leaves (callCallback callback code default) (fun _ _ s' => s'.host.poisoned = false)
      (fun e _ s' => s'.host.poisoned = true ∧ e.unwinds = true)
      (fun _ s' => s'.abi.currentCallback = s.abi.currentCallback) s := by
  unfold callCallback
  refine .bind_read ?_
  split
  · obtain ⟨hpath, hends⟩ := callTyped_follows code s.host
    have hkeeps := HostKeeps.of_steps hpath
    unfold Leaves
    dsimp only [Prog.zoom]
    cases hexit : ((callTyped code).run s.host).exit <;> rw [hexit] at hends
    · exact hends
    · exact hends
    · exact hkeeps.currentCallback
  · exact hlive

/-- **How a callback ends**: it returns and the guest goes on, or the guest is poisoned. -/
theorem run_over (hlive : s.Live) :
    Leaves (run c callback params code default)
      (fun value t s' => s.Performed callback c params (.returned callback c value) t s' ∧
        s'.Over callback c (.returned callback c value))
      (fun e t s' => s.Performed callback c params (.unwound callback c) t s' ∧
        s'.Over callback c (.unwound callback c) ∧ e.unwinds = true)
      (fun t s' => s.Stuck callback c params t s' ∧ ¬ s'.Live) s := by
  refine (run_leaves s).and ?_
  unfold Prologue.run
  refine .bind_act (.bind (M := fun result _ s' => (∃ value, result = .ok value ∧
      s'.host.poisoned = false) ∨ ∃ e : Error, result = .error e ∧ s'.host.poisoned = true ∧
      e.unwinds = true) (.attempt ((callCallback_lives ?_).mono ?_ ?_ ?_)) ?_)
  · exact hlive.live
  · exact fun value _ _ hpoisoned => .inl ⟨value, rfl, hpoisoned⟩
  · exact fun e _ _ hpoisoned => .inr ⟨e, rfl, hpoisoned⟩
  · intro _ s' hcurrent hlive'
    rw [hlive'.idle] at hcurrent
    cases hcurrent
  · rintro _ _ s' (⟨value, rfl, hpoisoned⟩ | ⟨e, rfl, hpoisoned, hunwinds⟩)
    · exact .bind_act (.bind_emit (.pure (.returned value ⟨rfl, hpoisoned⟩)))
    · exact .bind_act (.bind_emit (.throw ⟨.unwound hpoisoned, hunwinds⟩))

/-! ## The settlement of a delivery -/

theorem Session.poisoned_settled (s : Session) (call : Delivered) (s₁ : Session) :
    (s.settled call s₁).host.poisoned = s₁.host.poisoned := by
  unfold settled
  split
  · split <;> rfl
  · rfl

theorem Session.currentCallback_settled (s : Session) (call : Delivered) (s₁ : Session) :
    (s.settled call s₁).abi.currentCallback = s₁.abi.currentCallback := by
  unfold settled
  split
  · split <;> rfl
  · rfl

/-- The end of a delivery, once its callback is over. -/
theorem settle_leaves (s s₁ : Session) (result : Except GuestError I32)
    {Q : Unit → List Event → Session → Prop} {E : GuestError → List Event → Session → Prop}
    {U : List Event → Session → Prop}
    (hok : ∀ value, result = .ok value → Q () [] (s.settled call s₁))
    (herror : ∀ e, result = .error e → E e [] (s.settled call s₁)) :
    Leaves (do
      let poisoned ← Prog.read (·.host.poisoned)
      setDelivery none
      match s.entryOf call with
      | some (callout, entry) =>
        if poisoned then Prog.modify (·.mapCallouts (·.enter callout entry))
      | none => pure ()
      let _ ← Prog.ofExcept result) Q E U s₁ := by
  refine .bind_read (.bind_modify ?_)
  unfold Session.settled at hok herror
  rcases hentry : s.entryOf call with _ | ⟨id, entry⟩ <;> rw [hentry] at hok herror
  · exact .bind_ofExcept hok herror
  · dsimp only at hok herror ⊢
    split
    · rename_i hpoisoned
      rw [if_pos hpoisoned] at hok herror
      exact .bind_modify (.bind_ofExcept hok herror)
    · rename_i hpoisoned
      rw [if_neg hpoisoned] at hok herror
      exact .bind_ofExcept hok herror

/-- What a delivery takes out, and the session its callback begins in. -/
theorem takeEnded_run (s : Session) (call : Delivered) :
    ∃ s₀, (takeEnded call).run s = ⟨.ok (s.entryOf call), s₀, s.taking call⟩ ∧
      s₀.mapAbi (fun abi => { abi with delivery := some call.delivery }) = s.lending call := by
  unfold takeEnded Session.entryOf Session.taking Session.lending Delivered.takes
  cases call.ends <;> cases call.callout <;> exact ⟨_, rfl, rfl⟩

theorem Session.Live.lending (hlive : s.Live) (call : Delivered) : (s.lending call).Live := by
  unfold Session.lending
  cases call.takes <;> exact ⟨hlive.idle, hlive.live⟩

/-- **The trace of a delivery**, and how it leaves the guest. -/
theorem deliver_leaves (hlive : s.Live) :
    Leaves (deliver call code)
      (fun _ t s' => ∃ value, s.Delivers call (.returned call.callback call.context value) t s' ∧
        s'.Over call.callback call.context (.returned call.callback call.context value))
      (fun e t s' => s.Delivers call (.unwound call.callback call.context) t s' ∧
        s'.Over call.callback call.context (.unwound call.callback call.context) ∧
        e.unwinds = true)
      (fun t s' => s.StuckIn call t s' ∧ ¬ s'.Live) s := by
  have hlending := hlive.lending call
  obtain ⟨s₀, hrun, hlent⟩ := takeEnded_run s call
  unfold deliver
  refine .bind (M := fun entry t s₁ => entry = s.entryOf call ∧ t = s.taking call ∧ s₁ = s₀) ?_ ?_
  · unfold Leaves
    rw [hrun]
    exact ⟨rfl, rfl, rfl⟩
  · rintro entry t _ ⟨rfl, rfl, rfl⟩
    refine .bind_modify ?_
    rw [hlent]
    refine .bind (M := fun result u s₁ => (∃ value, result = .ok value ∧
        (s.lending call).Performed call.callback call.context call.params
          (.returned call.callback call.context value) u s₁ ∧
        s₁.Over call.callback call.context (.returned call.callback call.context value)) ∨
      ∃ e : GuestError, result = .error e ∧
        (s.lending call).Performed call.callback call.context call.params
          (.unwound call.callback call.context) u s₁ ∧
        s₁.Over call.callback call.context (.unwound call.callback call.context) ∧
        e.unwinds = true) (.attempt ((run_over hlending).mono ?_ ?_ ?_)) ?_
    · exact fun value _ _ hran => .inl ⟨value, rfl, hran⟩
    · exact fun e _ _ hran => .inr ⟨e, rfl, hran⟩
    · exact fun u _ hstuck => ⟨⟨u, hstuck.1, rfl⟩, hstuck.2⟩
    · rintro result u s₁ (⟨value, rfl, hran, hover⟩ | ⟨e, rfl, hran, hover, hunwinds⟩)
      · refine settle_leaves s s₁ _ (fun _ _ => ?_) (by rintro _ ⟨⟩)
        exact ⟨value, ⟨u, s₁, hran, by rw [List.append_nil], rfl⟩,
          hover.of_eq (s.poisoned_settled call s₁) (s.currentCallback_settled call s₁)⟩
      · refine settle_leaves s s₁ _ (by rintro _ ⟨⟩) (fun e' he' => ?_)
        cases he'
        exact ⟨⟨u, s₁, hran, by rw [List.append_nil], rfl⟩,
          hover.of_eq (s.poisoned_settled call s₁) (s.currentCallback_settled call s₁), hunwinds⟩

/-! ## Stages -/

/-- What a method does between two callbacks: it leaves the callouts, the delivery and the
    life of the guest alone, and a live guest may change its contexts. -/
structure Session.Between (s : Session) (t : List Event) (s' : Session) : Prop where
  callouts : s'.abi.callouts = s.abi.callouts
  delivery : s'.abi.delivery = s.abi.delivery
  limits : s'.host.limits = s.host.limits
  live : s'.Live ↔ s.Live
  events : ∀ e ∈ t, s.Live ∧ ((∃ id parent, e = .created id parent) ∨ ∃ c abi, e = .deleted c abi)

/-- **One stage of a method**, whose deliveries are as `makes` says. Whatever a guest does, it
    does while it is live, and no other callback runs as those of the deliveries do. -/
inductive Session.StageOf (makes : Delivered → Prop) : Session → List Event → Session → Prop
  | between {s t s'} (between : s.Between t s') : StageOf makes s t s'
  | performed {s callback c params how t s'} (live : s.Live)
      (ran : s.Performed callback c params how t s') (ends : s'.Over callback c how)
      (plain : callback.delivers = false) : StageOf makes s t s'
  | stuck {s callback c params t s'} (live : s.Live) (ran : s.Stuck callback c params t s')
      (ends : ¬ s'.Live) (plain : callback.delivers = false) : StageOf makes s t s'
  | delivered {s call how t s'} (live : s.Live) (ran : s.Delivers call how t s')
      (ends : s'.Over call.callback call.context how) (made : makes call) : StageOf makes s t s'
  | stuckIn {s call t s'} (live : s.Live) (ran : s.StuckIn call t s') (ends : ¬ s'.Live)
      (made : makes call) : StageOf makes s t s'
  | dropped {s : Session} (live : s.Live) (ids : List CalloutId) :
      StageOf makes s [.dropped ids] (s.mapCallouts fun table => ids.foldl .remove table)

/-- A stage with whatever deliveries. -/
abbrev Session.Stage : Session → List Event → Session → Prop := Session.StageOf fun _ => True

theorem Session.StageOf.stage {makes : Delivered → Prop} {t : List Event}
    (h : Session.StageOf makes s t s') : s.Stage t s' := by
  cases h with
  | between between => exact .between between
  | performed live ran ends plain => exact .performed live ran ends plain
  | stuck live ran ends plain => exact .stuck live ran ends plain
  | delivered live ran ends => exact .delivered live ran ends trivial
  | stuckIn live ran ends => exact .stuckIn live ran ends trivial
  | dropped live ids => exact .dropped live ids

end ProxyWasmHost
