/-
  The open callouts of a guest between two calls: each belongs to a live context and to
  its live root, so that no delivery under its own caller meets an unknown root.
-/
import ProxyWasmHost.Guest.Path

namespace ProxyWasmHost

open Prog Session Prologue

variable {s s' : Session} {α β : Type}

/-! ## What an error of a delivery is not -/

/-- From `s`, no error of `m` says that a context is unknown. -/
abbrev KnowsRoot (s : Session) (m : Method α) : Prop :=
  Leaves m (fun _ _ _ => True) (fun e _ _ => ∀ x, e ≠ .context x .unknown) (fun _ _ => True) s

namespace KnowsRoot

variable {m : Method α} {f : α → Method β}

theorem bind (hm : KnowsRoot s m) (hf : ∀ a s', KnowsRoot s' (f a)) : KnowsRoot s (m >>= f) :=
  Leaves.bind (M := fun _ _ _ => True) hm fun a _ s' _ => hf a s'

theorem pure {a : α} : KnowsRoot s (Pure.pure a : Method α) := trivial

theorem require {c : Prop} [Decidable c] {e : GuestError} (he : ∀ x, e ≠ .context x .unknown) :
    KnowsRoot s (Prog.require c e) := by
  unfold Prog.require
  split
  · exact pure
  · exact he

theorem wireSize {len : ℕ} : KnowsRoot s (wireSize len) :=
  bind (require (by rintro _ ⟨⟩)) fun _ _ => pure

/-- A callback fails as the runtime does. -/
theorem run {c : ContextId} {callback : Callback} {params : List I32} {code : Code}
    {default : I32} : KnowsRoot s (Prologue.run c callback params code default) := by
  unfold Prologue.run
  refine Leaves.bind_act (Leaves.bind (M := fun _ _ _ => True) ?_ fun result _ s' _ => ?_)
  · exact .attempt (.mono (M := fun _ _ _ => True) (F := fun _ _ _ => True)
      (V := fun _ _ => True) (by unfold Leaves; cases ((callCallback _ _ _).run _).exit <;> trivial)
      (fun _ _ _ _ => trivial) (fun _ _ _ _ => trivial) fun _ _ _ => trivial)
  · refine Leaves.bind_act ?_
    cases result with
    | ok value => exact Leaves.bind_emit (Leaves.pure trivial)
    | error e => exact Leaves.bind_emit (Leaves.throw (by rintro _ ⟨⟩))

/-- The check of the root, in a state that has it. -/
theorem requireRoot {root : ContextId} {f : Unit → Method β}
    (hroot : s.abi.contexts.contextType root = some .root) (hf : KnowsRoot s (f ())) :
    KnowsRoot s (Prologue.requireRoot root >>= f) :=
  Leaves.bind_ok (requireRoot_of_root hroot) hf

theorem accepted {c : ContextId} : KnowsRoot s (accepted c) := by
  unfold Prologue.accepted
  refine Leaves.bind_read ?_
  split
  · exact pure
  · exact Leaves.throw (by rintro _ ⟨⟩)
  · exact Leaves.throw (by rintro _ ⟨⟩)

theorem deliver {call : Delivered} {code : Code} : KnowsRoot s (deliver call code) := by
  unfold ProxyWasmHost.deliver
  refine bind ?_ fun entry s1 => Leaves.bind_modify ?_
  · unfold takeEnded
    split
    · exact pure
    · exact Leaves.bind_read (Leaves.bind_act (Leaves.pure trivial))
  · refine Leaves.bind (M := fun result _ _ => ∀ e : GuestError, result = .error e →
      ∀ x, e ≠ .context x .unknown) (.attempt (run.mono ?_ ?_ fun _ _ _ => trivial)) ?_
    · rintro _ _ _ - _ ⟨⟩
    · rintro e _ _ he _ ⟨⟩
      exact he
    · intro result _ s2 hresult
      have hend : ∀ s3, KnowsRoot s3 (do let _ ← Prog.ofExcept result) := fun s3 =>
        Leaves.bind_ofExcept (fun _ _ => trivial) hresult
      refine Leaves.bind_read (Leaves.bind_modify ?_)
      rcases entry with _ | ⟨callout, entry⟩
      · exact hend _
      · dsimp only
        split
        · exact Leaves.bind_modify (hend _)
        · exact hend _

/-- What comes after the checks of an open callout, which know the root of its entry. -/
theorem requireOpen {c : ContextId} {callout : CalloutId} {kinds : List CalloutKind}
    {entry : Callout} {f : Callout → Method β} (hget : s.abi.callouts.get callout = some entry)
    (hcaller : entry.caller = c) (hf : KnowsRoot s (f entry)) :
    KnowsRoot s (requireOpen c callout kinds >>= f) := by
  have hopen : Finds (ProxyWasmHost.requireOpen c callout kinds) (fun e => e = entry) s := by
    refine requireOpen_finds.mono fun e ⟨he, _, _⟩ => ?_
    rw [hget, Option.some.injEq] at he
    exact he.symm
  obtain ⟨exit, hrun, hexit⟩ := hopen
  have hknown : KnowsRoot s (ProxyWasmHost.requireOpen c callout kinds) := by
    unfold ProxyWasmHost.requireOpen
    refine Leaves.bind_read (bind ?_ fun e s1 => ?_)
    · rw [hget]
      exact trivial
    · refine bind (require (by rintro _ ⟨⟩)) fun _ s2 => ?_
      exact bind (require (by rintro _ ⟨⟩)) fun _ _ => pure
  refine Leaves.bind (M := fun a t s' => a = entry ∧ t = [] ∧ s' = s) ?_ ?_
  · unfold KnowsRoot Leaves at hknown
    unfold Leaves
    rw [hrun] at hknown ⊢
    cases exit with
    | ok a => exact ⟨hexit a rfl, rfl, rfl⟩
    | err e => exact hknown
    | panicked => trivial
  · rintro _ _ _ ⟨rfl, rfl, rfl⟩
    exact hf

end KnowsRoot

/-! ## Deliveries of open callouts -/

/-- The caller and the callout that a delivery names. -/
def Op.delivers : Op → Option (ContextId × CalloutId)
  | .onHttpCallResponse context callout _ _ | .onGrpcReceiveInitialMetadata context callout _ _
  | .onGrpcReceive context callout _ _ | .onGrpcReceiveTrailingMetadata context callout _ _
  | .onGrpcClose context callout _ _ => some (context, callout)
  | _ => none

section Deliveries

variable {callout : CalloutId} {entry : Callout} {c : ContextId} {code : Code}

/-- The checks that every delivery of a gRPC callout makes. -/
theorem KnowsRoot.grpcAccepted {f : Callout → Method β}
    (hget : s.abi.callouts.get callout = some entry) (hcaller : entry.caller = c)
    (hroot : s.abi.contexts.contextType entry.root = some .root)
    (hf : ∀ e s', KnowsRoot s' (f e)) : KnowsRoot s (grpcAccepted c callout >>= f) := by
  refine .bind ?_ hf
  unfold ProxyWasmHost.grpcAccepted
  exact .requireOpen hget hcaller (.requireRoot hroot (.bind .accepted fun _ _ => .pure))

/-- A delivery of an open callout whose root is live. -/
theorem Op.delivers_knowsRoot {op : Op} (hop : op.delivers = some (c, callout))
    (hopen : s.Live → s.abi.callouts.get callout = some entry ∧
      s.abi.contexts.contextType entry.root = some .root) (hcaller : entry.caller = c) :
    KnowsRoot s op.perform := by
  have hlive : ∀ {f : Unit → Method Unit}, (s.Live → KnowsRoot s (f ())) →
      KnowsRoot s (requireLive >>= f) := by
    intro f hf
    refine Leaves.bind (M := fun _ t s' => t = [] ∧ s' = s ∧ s.Live)
      ((requireLive_leaves s).mono (fun _ _ _ hq => hq) ?_ fun _ _ _ => trivial) ?_
    · rintro _ _ _ ⟨-, rfl, -⟩ _ ⟨⟩
    · rintro _ _ _ ⟨rfl, rfl, hs⟩
      exact hf hs
  have hreply : ∀ {m : Method Unit}, KnowsRoot s m → KnowsRoot s (replying m fun _ => .unit) :=
    fun hm => .bind hm fun _ _ => .pure
  cases op <;> cases hop
  case onHttpCallResponse response code =>
    refine hreply (hlive fun hs => ?_)
    obtain ⟨hget, hroot⟩ := hopen hs
    refine .requireOpen hget hcaller (Leaves.bind (M := fun _ t s' => t = [] ∧ s' = s) ?_ ?_)
    · unfold Prog.require
      split
      · exact ⟨rfl, rfl⟩
      · exact Leaves.throw (by rintro _ ⟨⟩)
    · rintro _ _ _ ⟨rfl, rfl⟩
      refine KnowsRoot.requireRoot hroot (.bind .accepted fun _ _ => ?_)
      exact .bind .wireSize fun _ _ => .bind .wireSize fun _ _ => .bind .wireSize fun _ _ =>
        .deliver
  all_goals
    refine hreply (hlive fun hs => ?_)
    obtain ⟨hget, hroot⟩ := hopen hs
    refine .grpcAccepted hget hcaller hroot fun _ _ => ?_
    exact .bind .wireSize fun _ _ => .deliver

end Deliveries

/-! ## Whole runs -/

/-- An open callout of a ready guest belongs to a live context, and to its live root. -/
theorem Session.Ready.callout_live (hs : s.Ready) (hsound : s.Sound) {id : CalloutId}
    {entry : Callout} (hget : s.abi.callouts.get id = some entry) :
    (s.abi.contexts.get entry.caller).isSome ∧
      s.abi.contexts.rootOf entry.caller = some entry.root ∧
      s.abi.contexts.contextType entry.root = some .root := by
  rcases hsound.callouts with hpoisoned | hanchors
  · rw [hs.live] at hpoisoned
    cases hpoisoned
  · rcases hanchors id entry hget with hroot | hdeleting
    · refine ⟨?_, hroot, hsound.contexts.contextType_of_rootOf hroot⟩
      unfold ContextTable.rootOf at hroot
      obtain ⟨e, he, -⟩ := Option.map_eq_some_iff.1 hroot
      rw [he, Option.isSome_some]
    · rw [hs.unmarked] at hdeleting
      cases hdeleting

/-- **The open callouts of every run**: between two calls of a guest that is not poisoned,
    each belongs to a live context and to the live root of that context; where a callback
    begins in the middle of a deletion, this holds but for the callouts of the context that
    is being deleted; and no delivery of an open callout under its own caller fails because
    a root is unknown. -/
theorem Run.callouts_anchored (r : Run) :
    (r.last.host.poisoned = false → r.last.abi.currentCallback = none →
      ∀ id entry, r.last.abi.callouts.get id = some entry →
        (r.last.abi.contexts.get entry.caller).isSome ∧
        r.last.abi.contexts.rootOf entry.caller = some entry.root ∧
        r.last.abi.contexts.contextType entry.root = some .root) ∧
    (∀ e ∈ r.trace, ∀ callback c abi, e.begun = some (callback, c, abi) →
      ∀ id entry, abi.callouts.get id = some entry → abi.Anchors entry) ∧
    ∀ (op : Op) id entry, op.delivers = some (entry.caller, id) →
      r.last.abi.callouts.get id = some entry →
      ∀ root, (op.perform.run r.last).exit ≠ .err (.context root .unknown) := by
  have hready : r.last.Live → r.last.Ready := r.last_rested.ready
  refine ⟨fun hlive hidle id entry hget => ?_, ?_, ?_⟩
  · exact (hready ⟨hidle, hlive⟩).callout_live r.last_sound hget
  · refine r.history (I := fun past _ => ∀ e ∈ past, ∀ callback c abi,
      e.begun = some (callback, c, abi) → ∀ id entry, abi.callouts.get id = some entry →
      abi.Anchors entry) (by rintro _ ⟨⟩) ?_
    intro aim past s t s' _ hpast hsound step e he callback c abi hbegun
    rcases List.mem_append.1 he with he | he
    · exact hpast e he callback c abi hbegun
    · obtain ⟨rfl, may, -⟩ := step.begun he hbegun
      rcases hsound.callouts with hpoisoned | hanchors
      · rw [may.live] at hpoisoned
        cases hpoisoned
      · exact hanchors
  · intro op id entry hop hget root hexit
    have hknows : KnowsRoot r.last op.perform := by
      refine Op.delivers_knowsRoot hop (fun hlive => ⟨hget, ?_⟩) rfl
      exact ((hready hlive).callout_live r.last_sound hget).2.2
    unfold KnowsRoot Leaves at hknows
    rw [hexit] at hknows
    exact hknows root rfl

end ProxyWasmHost
