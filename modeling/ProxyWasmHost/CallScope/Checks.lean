/-
  The checks and the call that every callback method shares, as steps of a guest.
-/
import ProxyWasmHost.CallScope.Step
import ProxyWasmHost.Lib.Leaves

namespace ProxyWasmHost

open Prog

namespace Session

/-- What a callback and the checks before it leave alone. -/
structure Frame (s s' : Session) : Prop where
  exports : s'.exports = s.exports
  scope : s'.scope = s.scope
  guest : s'.abi.guest = s.abi.guest
  limits : s'.host.limits = s.host.limits
  services : s'.abi.services = s.abi.services
  deleting : s'.abi.deleting = s.abi.deleting
  delivery : s'.abi.delivery = s.abi.delivery
  vmStarted : s'.abi.vmStarted = s.abi.vmStarted
  contexts : s.abi.contexts.Keeps s'.abi.contexts

/-- No callback runs, and the guest is not poisoned. -/
structure Live (s : Session) : Prop where
  idle : s.abi.currentCallback = none
  live : s.host.poisoned = false

/-- A guest that a call of the embedder starts from. -/
structure Ready (s : Session) : Prop extends Live s where
  unmarked : s.abi.deleting = none
  undelivered : s.abi.delivery = none

/-- A guest between two calls of the embedder: poisoned, left by a callback that never
    returned, or ready. -/
def Rested (s : Session) : Prop :=
  s.host.poisoned = true ∨ s.abi.currentCallback.isSome ∨ s.Ready

variable {s s' s'' : Session}

@[simp] theorem abi_mapAbi (s : Session) (f : AbiState → AbiState) :
    (s.mapAbi f).abi = f s.abi := rfl

@[simp] theorem poisoned_mapAbi (s : Session) (f : AbiState → AbiState) :
    (s.mapAbi f).host.poisoned = s.host.poisoned := rfl

@[simp] theorem contexts_mapContexts (s : Session) (f : ContextTable → ContextTable) :
    (s.mapContexts f).abi.contexts = f s.abi.contexts := rfl

@[simp] theorem callouts_mapCallouts (s : Session) (f : CalloutTable → CalloutTable) :
    (s.mapCallouts f).abi.callouts = f s.abi.callouts := rfl

theorem Live.of_mapContexts (h : s.Live) (f : ContextTable → ContextTable) :
    (s.mapContexts f).Live := ⟨h.idle, h.live⟩

theorem Ready.of_mapContexts (h : s.Ready) (f : ContextTable → ContextTable) :
    (s.mapContexts f).Ready := ⟨h.toLive.of_mapContexts f, h.unmarked, h.undelivered⟩

theorem Frame.refl (s : Session) : s.Frame s := ⟨rfl, rfl, rfl, rfl, rfl, rfl, rfl, rfl, .refl _⟩

theorem Frame.trans (h : s.Frame s') (h' : s'.Frame s'') : s.Frame s'' :=
  ⟨h'.exports.trans h.exports, h'.scope.trans h.scope, h'.guest.trans h.guest, h'.limits.trans h.limits,
    h'.services.trans h.services, h'.deleting.trans h.deleting, h'.delivery.trans h.delivery,
    h'.vmStarted.trans h.vmStarted, h.contexts.trans h'.contexts⟩

theorem Ready.of_frame (h : s.Ready) (hframe : s.Frame s') (hlive : s'.Live) : s'.Ready :=
  ⟨hlive, hframe.deleting.trans h.unmarked, hframe.delivery.trans h.undelivered⟩

theorem Rested.of_poisoned (h : s.host.poisoned = true) : s.Rested := .inl h

theorem Rested.of_running (h : s.abi.currentCallback.isSome) : s.Rested := .inr (.inl h)

theorem Ready.rested (h : s.Ready) : s.Rested := .inr (.inr h)

theorem Rested.ready (h : s.Rested) (hlive : s.Live) : s.Ready := by
  rcases h with h | h | h
  · rw [hlive.live] at h
    cases h
  · rw [hlive.idle] at h
    cases h
  · exact h

/-- A guest that differs in none of the four is between two calls too. -/
theorem Rested.of_eq (h : s.Rested) (hpoisoned : s'.host.poisoned = s.host.poisoned)
    (hcurrent : s'.abi.currentCallback = s.abi.currentCallback)
    (hdeleting : s'.abi.deleting = s.abi.deleting)
    (hdelivery : s'.abi.delivery = s.abi.delivery) : s'.Rested := by
  rcases h with h | h | h
  · exact .of_poisoned (hpoisoned.trans h)
  · exact .of_running (by rw [hcurrent]; exact h)
  · exact Ready.rested ⟨⟨hcurrent.trans h.idle, hpoisoned.trans h.live⟩,
      hdeleting.trans h.unmarked, hdelivery.trans h.undelivered⟩

end Session

open Session

namespace Prologue

variable {aim : Aim} {s : Session} {α β : Type}

/-- From `s`, `m` reaches `Q` when it returns, and leaves a guest between two calls
    when it does not. -/
abbrev Reaches (aim : Aim) (s : Session) (m : Method α) (Q : α → Session → Prop) : Prop :=
  Follows (Session.Step aim) m Q (fun _ s' => s'.Rested) (fun s' => s'.Rested) s

/-- What `m` does from `s` leaves a guest between two calls. -/
abbrev Acts (aim : Aim) (s : Session) (m : Method α) : Prop :=
  Reaches aim s m fun _ s' => s'.Rested

/-! ## The call into the guest -/

/-- What a host path leaves of the session whose host took it. -/
theorem frame_of_host {h : HostState} (k : HostKeeps s.host h) :
    s.Frame { s with host := h } :=
  ⟨rfl, rfl, k.guest, k.limits, k.services, k.deleting, k.delivery, k.vmStarted, k.contexts⟩

theorem running_of_host {h : HostState} (k : HostKeeps s.host h)
    (running : s.abi.currentCallback.isSome) :
    Session.abi { s with host := h } |>.currentCallback.isSome := by
  show h.abi.currentCallback.isSome = true
  rw [k.currentCallback]
  exact running

/-- What a host path does from `h` to `h'`. -/
structure HostPath (h h' : HostState) : Prop where
  keeps : HostKeeps h h'
  confined : ∀ root start, Confined root start h.abi → Confined root start h'.abi

/-- What the host does in a callback, or before there is any context, the session does. -/
theorem zoom_host {ε : Type} {I : HostState → Prop} {m : Prog HostState Event ε α}
    {Q : α → HostState → Prop} {E : ε → HostState → Prop} {U : HostState → Prop}
    (hI : ∀ h, I h → h.abi.currentCallback.isSome ∨ h.abi.contexts = .new)
    (h : Follows (fun h t h' => I h ∧ HostStep h t h') m Q E U s.host) :
    Follows (Session.Step aim) (Prog.zoom Session.host (fun s host => { s with host }) m)
      (fun a s' => ∃ h, s' = { s with host := h } ∧ Q a h)
      (fun e s' => ∃ h, s' = { s with host := h } ∧ E e h)
      (fun s' => ∃ h, s' = { s with host := h } ∧ U h) s :=
  .zoom rfl (fun h _ _ hstep => .host (s := { s with host := h }) (hI h hstep.1) hstep.2) h

/-- While a callback runs, the host takes steps of its own. -/
theorem callCallback_follows (aim : Aim) (s : Session) (callback : Callback) (code : Code)
    (default : I32) (running : s.abi.currentCallback.isSome) (live : s.host.poisoned = false) :
    Follows (Session.Step aim) (callCallback callback code default)
      (fun _ s' => s'.host.poisoned = false ∧ ∃ h, s' = { s with host := h } ∧ HostPath s.host h)
      (fun e s' => s'.host.poisoned = true ∧ e.unwinds = true ∧
        ∃ h, s' = { s with host := h } ∧ HostPath s.host h)
      (fun s' => ∃ h, s' = { s with host := h } ∧ HostPath s.host h) s := by
  unfold callCallback
  refine .bind_read ?_
  split
  · have hpath : ∀ t h, Steps HostStep s.host t h → HostPath s.host h := fun _ _ path =>
      ⟨.of_steps path, fun _ _ hc => hc.steps path⟩
    have hcall := ((callTyped_follows code s.host).along hpath).guarded
      (I := fun h => h.abi.currentCallback.isSome)
      (fun h t h' hI hstep => by rw [(HostKeeps.of_step hstep).currentCallback]; exact hI) running
    refine (zoom_host (fun _ => .inl) hcall).mono ?_ ?_ ?_
    · rintro _ _ ⟨h, rfl, hlive, k⟩
      exact ⟨hlive, h, rfl, k⟩
    · rintro _ _ ⟨h, rfl, ⟨hpoisoned, hunwinds⟩, k⟩
      exact ⟨hpoisoned, hunwinds, h, rfl, k⟩
    · rintro _ ⟨h, rfl, -, k⟩
      exact ⟨h, rfl, k⟩
  · exact .pure ⟨live, s.host, rfl, .refl _, fun _ _ hc => hc⟩

/-- What a callback for `c` that returned did. -/
structure Ran (c : ContextId) (s s' : Session) : Prop where
  frame : s.Frame s'
  live : s'.Live
  confined : ∀ root, s.abi.contexts.rootOf c = some root → Confined root s.abi s'.abi

/-- A callback that unwound left the guest poisoned. -/
structure Unwound (s : Session) (e : GuestError) (s' : Session) : Prop where
  frame : s.Frame s'
  idle : s'.abi.currentCallback = none
  poisoned : s'.host.poisoned = true
  error : ∃ error, e = .runtime error ∧ error.unwinds = true

/-- **A callback**: it returns and the guest goes on, or it unwinds and the guest is
    poisoned, or it never returns. -/
theorem run_follows {c : ContextId} {callback : Callback} {params : List I32} {code : Code}
    {default : I32} (may : s.MayBegin aim callback c) :
    Follows (Session.Step aim) (run c callback params code default) (fun _ s' => Ran c s s')
      (Unwound s) (fun s' => s.Frame s' ∧ s'.abi.currentCallback.isSome) s := by
  unfold run
  refine .bind_act (.began params may) ?_
  have hbegin : s.Frame (s.running c callback) :=
    ⟨rfl, rfl, rfl, rfl, rfl, rfl, rfl, rfl, .setEffective _ _⟩
  have hcall := callCallback_follows aim (s.running c callback) callback code default rfl may.live
  have hframe : ∀ {h}, HostPath (s.running c callback).host h →
      s.Frame (({ s.running c callback with host := h } : Session).mapAbi fun abi =>
        { abi with currentCallback := none }) := fun k =>
    (hbegin.trans (frame_of_host k.keeps)).trans ⟨rfl, rfl, rfl, rfl, rfl, rfl, rfl, rfl, .refl _⟩
  refine .bind_attempt (hcall.mono (fun _ _ hq => hq) (fun _ _ he => he) ?_) ?_ ?_
  · rintro _ ⟨h, rfl, k⟩
    exact ⟨hbegin.trans (frame_of_host k.keeps), running_of_host k.keeps rfl⟩
  · rintro value _ ⟨hlive, h, rfl, k⟩
    refine .bind_act (.finished (running_of_host k.keeps rfl)) ?_
    refine .bind_emit (.returned c value fun hcallback => ?_) (.pure ⟨hframe k, ⟨rfl, hlive⟩, ?_⟩)
    · exact (may.vmStart hcallback).imp_right And.left
    · exact fun root hroot => (k.confined _ _ (.setEffective hroot)).congr rfl rfl rfl rfl
  · rintro e _ ⟨hpoisoned, hunwinds, h, rfl, k⟩
    refine .bind_act (.finished (running_of_host k.keeps rfl)) ?_
    exact .bind_emit (.unwound callback c hpoisoned)
      (.throw ⟨hframe k, rfl, hpoisoned, e, rfl, hunwinds⟩)

/-- A callback that a ready guest runs. -/
theorem run_reaches {c : ContextId} {callback : Callback} {params : List I32} {code : Code}
    {default : I32} (hs : s.Ready) (may : s.MayBegin aim callback c) :
    Reaches aim s (run c callback params code default) fun _ s' => s.Frame s' ∧ s'.Ready := by
  refine (run_follows may).mono ?_ ?_ ?_
  · rintro _ s' hran
    exact ⟨hran.frame, hs.of_frame hran.frame hran.live⟩
  · rintro e s' hunwound
    exact .of_poisoned hunwound.poisoned
  · intro s' hrunning
    exact .of_running hrunning.2

/-- A callback that belongs to no stream, for a context that is not refused. -/
theorem mayBegin_of_accepted {c : ContextId} {callback : Callback} (hs : s.Ready)
    (hc : (s.abi.contexts.get c).isSome) (haccepted : s.abi.contexts.rejectionOf c = none)
    (hstream : callback.ofOneStream = false)
    (hvm : callback = .vmStart → aim = .vmStart ∨
      (∃ plugin, aim = .start plugin) ∧ s.abi.vmStarted = false) :
    s.MayBegin aim callback c where
  idle := hs.idle
  live := hs.live
  known := hc
  allowed := .inr haccepted
  belongs id entry hid := by rw [hs.undelivered] at hid; cases hid
  family kind hkind := by
    unfold Callback.ofOneStream at hstream
    rw [hkind] at hstream
    cases hstream
  served hserved := by rw [hstream] at hserved; cases hserved
  vmStart := hvm

/-! ## The checks -/

theorem bind_requireLive {f : Unit → Method β} {Q : β → Session → Prop} (hs : s.Rested)
    (hf : s.Ready → Reaches aim s (f ()) Q) : Reaches aim s (requireLive >>= f) Q := by
  refine .bind (M := fun _ s' => s.Ready ∧ s' = s) ?_ fun _ s' ⟨hready, hs'⟩ => hs' ▸ hf hready
  unfold requireLive
  refine .bind_read ?_
  dsimp only
  split
  · refine .bind_modify (.poison s) (.bind_read (.require (fun h => absurd rfl h) fun _ => ?_))
    exact .of_poisoned rfl
  · rename_i hidle
    refine .bind_read (.require (fun hlive => ?_) fun hpoisoned => ?_)
    · rcases hs with hs | hs | hs
      · exact absurd hs hlive
      · exact absurd hs hidle
      · exact ⟨hs, rfl⟩
    · exact .of_poisoned (by simpa using hpoisoned)

/-- The check of the guest itself lets a live guest through, and poisons one whose last
    callback never returned. -/
theorem requireLive_leaves (s : Session) :
    Leaves requireLive (fun _ t s' => t = [] ∧ s' = s ∧ s.Live)
      (fun e t s' => t = [] ∧ e = .runtime .poisoned ∧ s'.host.poisoned = true ∧ s'.abi = s.abi)
      (fun _ _ => False) s := by
  unfold requireLive
  refine .bind_read ?_
  dsimp only
  split
  · exact .bind_modify (.bind_read ⟨rfl, rfl, rfl, rfl⟩)
  · rename_i hidle
    refine .bind_read ?_
    unfold Prog.require
    split
    · rename_i hlive
      exact ⟨rfl, rfl, by simpa using hidle, by simpa using hlive⟩
    · rename_i hpoisoned
      have hpoisoned : s.host.poisoned = true := by simpa using hpoisoned
      exact ⟨rfl, rfl, hpoisoned, rfl⟩

variable {c : ContextId} {f : α → Method β}

theorem require_finds :
    Finds (require c) (fun type => s.abi.contexts.contextType c = some type) s :=
  .bind_read .orThrow

theorem requireRoot_finds :
    Finds (requireRoot c) (fun _ => s.abi.contexts.contextType c = some .root) s := by
  refine require_finds.bind ?_
  rintro (_ | _) htype
  · exact .pure htype
  · exact .throw

theorem requireStream_finds :
    Finds (requireStream c) (fun _ => s.abi.contexts.contextType c = some .stream) s := by
  refine require_finds.bind ?_
  rintro (_ | _) htype
  · exact .throw
  · exact .pure htype

theorem requireDone_finds :
    Finds (requireDone c) (fun _ => (s.abi.contexts.get c).isSome) s :=
  require_finds.bind fun _ htype => .bind_read <|
    Finds.require.mono fun _ _ => ContextTable.isSome_of_contextType htype

theorem requireDeletable_finds :
    Finds (requireDeletable c) (fun _ => (s.abi.contexts.get c).isSome ∧
      s.abi.contexts.hasChildren c = false) s :=
  requireDone_finds.bind fun _ hget => .bind_read <|
    Finds.require.mono fun _ hchildren => ⟨hget, Bool.eq_false_of_not_eq_true hchildren⟩

theorem requireStreamKind_finds {kind : StreamKind} :
    Finds (requireStreamKind c kind) (fun _ => ∀ recorded,
      s.abi.contexts.streamKind c = some recorded → recorded = kind) s := by
  refine .bind_read ?_
  split
  · rename_i hrecorded
    exact Finds.require.mono fun _ hkind recorded hr => by
      rw [hrecorded] at hr
      cases hr
      exact hkind
  · rename_i hnone
    exact .pure fun recorded hr => by rw [hnone] at hr; cases hr

theorem accepted_finds : Finds (accepted c) (fun _ => s.abi.contexts.rejectionOf c = none) s := by
  refine .bind_read ?_
  split
  · exact .pure ‹_›
  · exact .throw
  · exact .throw

theorem vmAccepted_finds : Finds vmAccepted (fun _ => s.abi.contexts.vmRejected = none) s := by
  refine .bind_read ?_
  split
  · exact .throw
  · exact .pure ‹_›

/-! ### The checks that let a call through -/

theorem requireLive_of_live (h : s.Live) : requireLive.run s = ⟨.ok (), s, []⟩ := by
  have hidle : (Prog.read (·.abi.currentCallback) : Method _).run s = ⟨.ok none, s, []⟩ := by
    show (⟨.ok s.abi.currentCallback, s, []⟩ : Res Session Event GuestError _) = _
    rw [h.idle]
  unfold requireLive
  rw [bind_of_ok_nil hidle]
  show (Prog.require (¬ s.host.poisoned = true) _ : Method Unit).run s = _
  unfold Prog.require
  rw [h.live]
  rfl

theorem require_of_known {type : ContextType} (h : s.abi.contexts.contextType c = some type) :
    (Prologue.require c).run s = ⟨.ok type, s, []⟩ := by
  unfold Prologue.require
  show (Prog.orThrow (s.abi.contexts.contextType c) _ : Method ContextType).run s = _
  rw [h]
  rfl

theorem requireRoot_of_root (h : s.abi.contexts.contextType c = some .root) :
    (requireRoot c).run s = ⟨.ok (), s, []⟩ := by
  unfold requireRoot
  rw [bind_of_ok_nil (require_of_known h)]
  rfl

theorem accepted_of_accepted (h : s.abi.contexts.rejectionOf c = none) :
    (accepted c).run s = ⟨.ok (), s, []⟩ := by
  have hread : contexts.run s = ⟨.ok s.abi.contexts, s, []⟩ := rfl
  unfold accepted
  rw [bind_of_ok_nil hread, h]
  rfl

theorem wireSize_of_lt {len : ℕ} (h : len < 2 ^ 31) :
    (wireSize len).run s = ⟨.ok (UInt32.ofNat len), s, []⟩ := by
  unfold wireSize Prog.require
  rw [if_pos h]
  rfl

theorem wireSize_of_le {len : ℕ} (h : 2 ^ 31 ≤ len) :
    (wireSize len).run s = ⟨.err (.runtime (.valueTooLarge len)), s, []⟩ := by
  unfold wireSize Prog.require
  rw [if_neg (not_lt.2 h)]
  rfl

instance {value : UInt32} : Quiet (wireU32 value) := by unfold wireU32; infer_instance

instance {len : ℕ} : Quiet (wireSize len) := by unfold wireSize; infer_instance

instance {callback : Callback} {value : I32} : Quiet (boolean callback value) := by
  unfold boolean; infer_instance

/-- What comes after a check. -/
theorem bind_check {m : Method α} {P : α → Prop} {Q : β → Session → Prop} (hs : s.Rested)
    (hm : Finds m P s) (hf : ∀ a, P a → Reaches aim s (f a) Q) : Reaches aim s (m >>= f) Q :=
  .bind_finds hm hf (fun _ => hs) hs

end Prologue

end ProxyWasmHost
