/-
  A guest that refused a root, or its VM: what still runs for the contexts of the root, and
  what still reaches the embedder for them.
-/
import ProxyWasmHost.Guest.Contexts
import ProxyWasmHost.Guest.Start

namespace ProxyWasmHost

open Prog Session Prologue

variable {aim : Aim} {s s' : Session} {t past : List Event} {root : ContextId}

/-- The contexts of the tree of `root`: the root, and the streams that were created under
    it. -/
def InTree (past : List Event) (root x : ContextId) : Prop :=
  x = root ∨ .created x (some root) ∈ past

/-- What an event may be once `root` is refused: a callback for a context of its tree is one
    of the three that end a context, no context is created under it, no callout of it ends
    with a delivery, and nothing reaches the embedder for a context of its tree. -/
def Event.Bars (root : ContextId) (past : List Event) : Event → Prop
  | .began callback c _ _ _ _ => InTree past root c → callback.afterRefusal = true
  | .created _ parent => parent ≠ some root
  | .ended _ entry => ∀ callout, entry = some callout → callout.root ≠ root
  | .stream call _ | .shared _ call _ _ _ | .callout _ call _ _ _ =>
    ¬ InTree past root call.context
  | _ => True

/-! ## A table that refuses a root -/

/-- `root` is refused, and every context under it. -/
structure ContextTable.Bars (table : ContextTable) (root : ContextId) : Prop where
  self : table.rejectionOf root ≠ none
  tree : ∀ x, table.rootOf x = some root → table.rejectionOf x ≠ none

namespace ContextTable.Bars

variable {table : ContextTable} {x : ContextId}

theorem of_vm (h : table.vmRejected.isSome) : table.Bars root := by
  have hall : ∀ x, table.rejectionOf x ≠ none := by
    intro x hx
    simp [(rejectionOf_eq_none.1 hx).1] at h
  exact ⟨hall root, fun x _ => hall x⟩

/-- A root that is refused refuses its tree. -/
theorem of_rejected (hwf : table.WellFormed) (h : table.isRejected root = true) :
    table.Bars root := by
  have hnot : ∀ x, table.isRejected x = true → table.rejectionOf x ≠ none := by
    intro x hx hnone
    simp [(rejectionOf_eq_none.1 hnone).2] at hx
  refine ⟨hnot root h, fun x hx => hnot x ?_⟩
  have hself := hwf.rootOf_of_root (hwf.contextType_of_rootOf hx)
  unfold ContextTable.isRejected at h ⊢
  rwa [hx, ← hself]

/-- A live context of the tree is refused. -/
theorem rejectionOf (h : table.Bars root) (hrec : table.Recorded past)
    (hx : (table.get x).isSome) (htree : InTree past root x) : table.rejectionOf x ≠ none := by
  rcases htree with rfl | hmade
  · exact h.self
  · obtain ⟨entry, hget⟩ := Option.isSome_iff_exists.1 hx
    obtain ⟨-, hgone⟩ := (hrec.live x entry.parent).1 (by rw [hget, Option.map_some])
    exact h.tree x (hrec.rootOf_iff.2 ⟨_, hmade, rfl, hgone⟩)

end ContextTable.Bars

/-- A context that is refused with its root was created. -/
theorem ContextTable.Recorded.made_of_rejected {table : ContextTable} {x : ContextId}
    (hrec : table.Recorded past) (h : table.isRejected x = true) :
    ∃ parent, .created x parent ∈ past := by
  unfold ContextTable.isRejected at h
  cases hroot : table.rootOf x with
  | none => simp [hroot] at h
  | some y =>
    obtain ⟨parent, hmade, -⟩ := hrec.rootOf_iff.1 hroot
    exact ⟨parent, hmade⟩

/-! ## One step -/

/-- Nothing reaches the embedder for a refused context. -/
theorem HostStep.bars {h h' : HostState} (step : HostStep h t h')
    (hfree : ∀ c, h.abi.context = some c → ¬ InTree past root c) : ∀ e ∈ t, e.Bars root past := by
  intro e he
  cases step <;> simp only [List.not_mem_nil, List.mem_singleton] at he <;> subst he <;>
    first | exact hfree _ ‹_› | exact trivial

/-- **A step from a table that refuses `root`.** -/
theorem Session.Step.bars (step : s.Step aim t s') (hwf : s.abi.contexts.WellFormed)
    (hrec : s.abi.contexts.Recorded past) (h : s.abi.contexts.Bars root) :
    ∀ e ∈ t, e.Bars root past := by
  cases step with
  | host running step =>
    refine step.bars fun c hc htree => ?_
    obtain ⟨heff, haccepted⟩ := AbiState.effective_of_context hc
    exact h.rejectionOf hrec (hwf.effective c heff) htree haccepted
  | began params may =>
    intro e he
    rw [List.mem_singleton.1 he]
    intro htree
    exact may.allowed.resolve_right (h.rejectionOf hrec may.known htree)
  | created aimed idle live vm accepted create =>
    intro e he
    rw [List.mem_singleton.1 he]
    rintro rfl
    exact h.self (accepted root rfl)
  | ended idle live aimed accepted =>
    intro e he
    rw [List.mem_singleton.1 he]
    rintro callout hget rfl
    exact h.self (accepted callout hget)
  | finished | returned | unwound | deleted | dropped =>
    intro e he
    rw [List.mem_singleton.1 he]
    trivial
  | _ => exact fun e he => by cases he

/-! ## Refusals -/

/-- `on_configure` answered false for `root`. -/
def Call.RefusesRoot (call : Call) (root : ContextId) : Prop :=
  (∃ plugin code, call.op = .onConfigure root plugin code ∧ call.exit = .ok (.bool false)) ∨
    ∃ plugin codes, call.op = .start plugin codes ∧
      call.exit = .ok (.started (.refused root .configure))

/-- `on_vm_start` answered false. -/
def Call.RefusesVm (call : Call) : Prop :=
  (∃ root code, call.op = .onVmStart root code ∧ call.exit = .ok (.bool false)) ∨
    ∃ plugin codes root, call.op = .start plugin codes ∧
      call.exit = .ok (.started (.refused root .vmStart))

/-- What a start answers about a root it refused. -/
theorem start_refused {plugin : PluginConfig} {codes : StartCodes} {callback : Callback}
    (hs : s.Rested) (hwf : s.abi.contexts.WellFormed)
    (hexit : ((Op.start plugin codes).perform.run s).exit =
      .ok (.started (.refused root callback))) :
    ((Op.start plugin codes).perform.run s).state.abi.RefusedAt root callback := by
  have h := replying_leaves Reply.started (start_leaves plugin codes hs hwf)
  unfold Leaves at h
  change Ends _ _ _ ((Op.start plugin codes).perform.run s).exit _ at h
  rw [hexit] at h
  obtain ⟨started, hreply, -, hsettled⟩ := h
  cases hreply
  exact hsettled.2

/-- A root that answered false is refused. -/
theorem Session.CallPath.refusesRoot {call : Call} (hcall : s.CallPath call s')
    (h : call.RefusesRoot root) : s'.abi.contexts.isRejected root = true := by
  obtain ⟨op, exit, trace⟩ := call
  have hexit := hcall.exit
  have hlast := hcall.last
  rcases h with ⟨plugin, code, rfl, rfl⟩ | ⟨plugin, codes, rfl, rfl⟩
  · have hreaches : Reaches .configure s (onConfigure root plugin code) _ :=
      onConfigure_reaches hcall.rested (.inl rfl)
    have h := replying_leaves Reply.bool (.of_follows hreaches)
    unfold Leaves at h
    change Ends _ _ _ ((Op.onConfigure root plugin code).perform.run s).exit _ at h
    rw [← hexit] at h
    obtain ⟨accepted, hreply, -, hroot, -, s₁, hframe, hstate⟩ := h
    cases hreply
    change ((Op.onConfigure root plugin code).perform.run s).state = _ at hstate
    rw [hlast, hstate]
    have hself := hcall.sound.contexts.rootOf_of_root hroot
    exact ((Session.Hosts.mk hroot hself).setPlugin plugin |>.keeps hframe.contexts).isRejected
  · have h := start_refused hcall.rested hcall.sound.contexts hexit.symm
    rw [hlast]
    exact h.2

/-- A VM that answered false is refused. -/
theorem Session.CallPath.refusesVm {call : Call} (hcall : s.CallPath call s')
    (h : call.RefusesVm) : s'.abi.contexts.vmRejected.isSome := by
  obtain ⟨op, exit, trace⟩ := call
  have hexit := hcall.exit
  have hlast := hcall.last
  rcases h with ⟨root, code, rfl, rfl⟩ | ⟨plugin, codes, root, rfl, rfl⟩
  · have hreaches : Reaches .vmStart s (onVmStart root code) _ :=
      onVmStart_reaches hcall.rested (.inl rfl)
    have h := replying_leaves Reply.bool (.of_follows hreaches)
    unfold Leaves at h
    change Ends _ _ _ ((Op.onVmStart root code).perform.run s).exit _ at h
    rw [← hexit] at h
    obtain ⟨accepted, hreply, -, -, s₁, -, hstate⟩ := h
    cases hreply
    change ((Op.onVmStart root code).perform.run s).state = _ at hstate
    rw [hlast, hstate]
    rfl
  · have h := start_refused hcall.rested hcall.sound.contexts hexit.symm
    rw [hlast]
    exact h.2

/-! ## Whole runs -/

/-- Calls after which `root` stays refused while `alive` holds of the events. -/
theorem Session.bars_of_calls {calls : List Call} (alive : List Event → Prop)
    (refused : ContextTable → Prop)
    (halive : ∀ past t, alive (past ++ t) → alive past)
    (hbars : ∀ table, table.WellFormed → refused table → table.Bars root)
    (hstays : ∀ aim past (s : Session) t s', s.Step aim t s' → s.Sound → s'.Sound →
      s.abi.contexts.Recorded past → s'.abi.contexts.Recorded (past ++ t) → alive (past ++ t) →
      refused s.abi.contexts → refused s'.abi.contexts)
    (hpath : Steps Session.Calls s calls s') (hrested : s.Rested) (hsound : s.Sound)
    (hrec : s.abi.contexts.Recorded past) (hrefused : refused s.abi.contexts)
    {t₁ t₂ : List Event} {e : Event} (ht : calls.flatMap Call.trace = t₁ ++ e :: t₂)
    (hlive : alive (past ++ t₁)) : e.Bars root (past ++ t₁) := by
  refine (Session.path_of_calls (fun _ => True) (fun _ _ => trivial) hpath hrested
    hsound).in_past (I := fun past s => s.abi.contexts.Recorded past ∧
      (alive past → refused s.abi.contexts))
    (P := fun past e => alive past → e.Bars root past) ?_ ?_ ⟨hrec, fun _ => hrefused⟩ ht hlive
  · rintro s t s' ⟨aim, -, -, step⟩
    exact step.one
  · rintro past s t s' ⟨hrec, hrefused⟩ ⟨aim, -, hsound, step⟩
    have hrec' := hrec.moves step.moves
    refine ⟨⟨hrec', fun hlive => ?_⟩, fun e he hlive => ?_⟩
    · exact hstays aim past s t s' step hsound (hsound.step step) hrec hrec' hlive
        (hrefused (halive past t hlive))
    · exact step.bars hsound.contexts hrec (hbars _ hsound.contexts (hrefused hlive)) e he

/-- **A refused root**: from the call in which `on_configure` answered false for a root,
    until the root leaves the table, its contexts run the callbacks that end a context and no
    other, no context is created under it, no delivery ends a callout of it, and nothing
    reaches the embedder for its contexts. Once `on_vm_start` answered false, this holds of
    every root for the rest of the run. -/
theorem Run.refused_barred (r : Run) {before after : List Call} {call : Call}
    (hcalls : r.calls = before ++ call :: after) :
    (∀ root, call.RefusesRoot root → ∀ past e rest, r.trace = past ++ e :: rest →
      r.creation ++ (before ++ [call]).flatMap Call.trace <+: past →
      (∀ abi, .deleted root abi ∉ past) → e.Bars root past) ∧
    (call.RefusesVm → ∀ root past e rest, r.trace = past ++ e :: rest →
      r.creation ++ (before ++ [call]).flatMap Call.trace <+: past → e.Bars root past) := by
  obtain ⟨r₀, r₁, -, -, -, htrace, hcall, hafter⟩ := r.cut_at hcalls
  have hrec := r₁.charted.recorded
  rw [htrace] at hrec
  have hsplit : ∀ t₁ e rest, r.trace =
      (r.creation ++ (before ++ [call]).flatMap Call.trace ++ t₁) ++ e :: rest →
      after.flatMap Call.trace = t₁ ++ e :: rest := by
    intro t₁ e rest ht
    change r.creation ++ r.calls.flatMap Call.trace = _ at ht
    rw [hcalls, ← List.singleton_append (l := after), ← List.append_assoc, List.flatMap_append,
      ← List.append_assoc, List.append_assoc _ t₁] at ht
    exact List.append_cancel_left ht
  constructor
  · rintro root hrefuses _ e rest hpast ⟨t₁, rfl⟩ hlive
    refine Session.bars_of_calls (fun past => ∀ abi, .deleted root abi ∉ past)
      (fun table => table.isRejected root = true) ?_ ?_ ?_ hafter r₁.last_rested
      r₁.last_sound hrec (hcall.refusesRoot hrefuses) (hsplit _ _ _ hpast) hlive
    · exact fun past t hlive abi hmem => hlive abi (List.mem_append_left t hmem)
    · exact fun table hwf h => .of_rejected hwf h
    · intro aim past s t s' step hsound hsound' hrec hrec' hlive h
      refine (step.evolves.isRejected hsound.contexts hsound'.contexts h).resolve_left ?_
      intro hnone
      obtain ⟨parent, hmade⟩ := hrec.made_of_rejected h
      have hlive' := (hrec'.live root parent).2 ⟨List.mem_append_left t hmade, hlive⟩
      rw [hnone] at hlive'
      exact absurd hlive' (by simp)
  · rintro hrefuses root _ e rest hpast ⟨t₁, rfl⟩
    refine Session.bars_of_calls (fun _ => True) (fun table => table.vmRejected.isSome)
      (fun _ _ h => h) (fun table _ h => .of_vm h) ?_ hafter r₁.last_rested r₁.last_sound hrec
      (hcall.refusesVm hrefuses) (hsplit _ _ _ hpast) trivial
    exact fun aim past s t s' step _ _ _ _ _ h => step.evolves.vmRejected h

/-! ## A guest that refuses its configuration -/

namespace Barred

/-- A root refuses its configuration, is ticked, and is asked whether it is done. -/
def refusing : Run :=
  .of 2 .bare ⟨[], .info, [], [], 1, 2⟩ (.atMost none)
    [.enter .noStream, .onContextCreate none (.returning 0),
      .onConfigure .min ⟨[], [], []⟩ (.returning 0), .onTick .min (.returning 0),
      .onDone .min (.returning 1)]
    rfl (by decide)

/-- The context that an event deletes. -/
def deletes : Event → Option ContextId
  | .deleted c _ => some c
  | _ => none

/-- The callback after the refusal is one of those that end a context. -/
theorem refusing_barred : ∃ e rest, refusing.trace = refusing.trace.take 7 ++ e :: rest ∧
    e.begun.isSome ∧ e.Bars .min (refusing.trace.take 7) := by
  refine ⟨_, _, rfl, rfl, (refusing.refused_barred (show refusing.calls =
    refusing.calls.take 2 ++ _ :: refusing.calls.drop 3 from rfl)).1 .min (.inl ⟨_, _, rfl, rfl⟩)
    _ _ _ rfl ⟨[], rfl⟩ ?_⟩
  intro abi hmem
  have hdeletes : .min ∈ (refusing.trace.take 7).filterMap deletes :=
    List.mem_filterMap.2 ⟨_, hmem, rfl⟩
  exact absurd hdeletes (by decide)

end Barred

end ProxyWasmHost
