/-
  The root ids of a guest: a root id names one root, which holds it until it is deleted,
  unless the embedder configures a root by hand.
-/
import ProxyWasmHost.Guest.Path

namespace ProxyWasmHost

open Prog Session

variable {aim : Aim} {s s' : Session} {t : List Event}

/-! ## The root that a root id names -/

namespace ContextTable

variable {t t' : ContextTable} {x y id root : ContextId} {rootId : Bytes}

/-- `x` holds a plugin with this root id. -/
def Named (t : ContextTable) (x : ContextId) (rootId : Bytes) : Prop :=
  ∃ entry plugin, t.get x = some entry ∧ entry.plugin = some plugin ∧ plugin.rootId = rootId

/-- A root id names at most one context. -/
def Distinct (t : ContextTable) : Prop :=
  ∀ x y rootId, t.Named x rootId → t.Named y rootId → x = y

theorem Distinct.new : ContextTable.new.Distinct := by
  rintro x y rootId ⟨entry, plugin, hget, -⟩
  cases hget

/-- A table without new names. -/
theorem Distinct.of_named (h : t.Distinct) (hnamed : ∀ x rootId, t'.Named x rootId →
    t.Named x rootId) : t'.Distinct :=
  fun x y rootId hx hy => h x y rootId (hnamed x rootId hx) (hnamed y rootId hy)

theorem Named.of_keeps (k : t.Keeps t') (h : t'.Named x rootId) : t.Named x rootId := by
  obtain ⟨entry', plugin, hget, hplugin, hid⟩ := h
  obtain ⟨entry, hget₀, hentry⟩ := k.entry_of hget
  rw [hentry] at hplugin
  exact ⟨entry, plugin, hget₀, hplugin, hid⟩

theorem Named.of_creates {parent : Option ContextId} (c : t.Creates parent id t')
    (h : t'.Named x rootId) : t.Named x rootId := by
  obtain ⟨entry, plugin, hget, hplugin, hid⟩ := h
  rw [c.get_eq] at hget
  split at hget
  · cases hget
    cases hplugin
  · exact ⟨entry, plugin, hget, hplugin, hid⟩

theorem Named.of_modify {f : ContextEntry → ContextEntry}
    (hf : ∀ entry, (f entry).plugin = entry.plugin) (h : (t.modify id f).Named x rootId) :
    t.Named x rootId := by
  obtain ⟨entry, plugin, hget, hplugin, hid⟩ := h
  rw [get_modify] at hget
  split at hget
  · obtain ⟨entry₀, hget₀, rfl⟩ := Option.map_eq_some_iff.1 hget
    exact ⟨entry₀, plugin, hget₀, (hf entry₀).symm.trans hplugin, hid⟩
  · exact ⟨entry, plugin, hget, hplugin, hid⟩

theorem Named.of_remove (h : (t.remove id).Named x rootId) : t.Named x rootId := by
  obtain ⟨entry, plugin, hget, hplugin, hid⟩ := h
  rw [get_remove] at hget
  split at hget
  · cases hget
  · exact ⟨entry, plugin, hget, hplugin, hid⟩

/-- A plugin whose root id no context has keeps the names apart. -/
theorem Distinct.setPlugin (h : t.Distinct) {plugin : PluginConfig}
    (hunused : t.Unused plugin.rootId) : (t.setPlugin root plugin).Distinct := by
  have hnamed : ∀ x rootId, (t.setPlugin root plugin).Named x rootId →
      t.Named x rootId ∨ x = root ∧ rootId = plugin.rootId := by
    rintro x rootId ⟨entry, plugin', hget, hplugin, hid⟩
    unfold ContextTable.setPlugin at hget
    split at hget
    · rw [get_modify] at hget
      split at hget
      · rename_i hx
        obtain ⟨entry₀, -, rfl⟩ := Option.map_eq_some_iff.1 hget
        cases hplugin
        exact .inr ⟨hx, hid.symm⟩
      · exact .inl ⟨entry, plugin', hget, hplugin, hid⟩
    · exact .inl ⟨entry, plugin', hget, hplugin, hid⟩
  have hfree : ∀ x, ¬ t.Named x plugin.rootId :=
    fun x ⟨entry, plugin', hget, hplugin, hid⟩ => hunused x entry plugin' hget hplugin hid
  intro x y rootId hx hy
  rcases hnamed x rootId hx with hold | ⟨rfl, rfl⟩
  · rcases hnamed y rootId hy with hold' | ⟨rfl, rfl⟩
    · exact h x y rootId hold hold'
    · exact absurd hold (hfree x)
  · rcases hnamed y _ hy with hold' | ⟨rfl, -⟩
    · exact absurd hold' (hfree y)
    · rfl

/-- A root id that names a context names the one the table finds. -/
theorem Distinct.rootWithId (h : t.Distinct) (hx : t.Named x rootId) :
    t.rootWithId rootId = some x := by
  cases hfind : t.rootWithId rootId with
  | none =>
    obtain ⟨entry, plugin, hget, hplugin, hid⟩ := hx
    exact absurd hid (Unused.of_rootWithId hfind x entry plugin hget hplugin)
  | some y =>
    suffices hy : t.Named y rootId by rw [h x y rootId hx hy]
    unfold ContextTable.rootWithId at hfind
    obtain ⟨⟨y', entry⟩, hmem, hentry⟩ := List.exists_of_findSome?_eq_some hfind
    dsimp only at hentry
    split at hentry
    · rename_i plugin hplugin
      split at hentry
      · rename_i hid
        cases hentry
        exact ⟨entry, plugin, Std.ExtTreeMap.mem_toList_iff_getElem?_eq_some.1 hmem, hplugin, hid⟩
      · cases hentry
    · cases hentry

end ContextTable

/-! ## What a root holds -/

namespace ContextTable

variable {t t' : ContextTable} {x root : ContextId} {rootId : Bytes} {plugin : PluginConfig}

/-- `x` holds this plugin. -/
def Holds (t : ContextTable) (x : ContextId) (plugin : PluginConfig) : Prop :=
  ∃ entry, t.get x = some entry ∧ entry.plugin = some plugin

theorem Holds.named (h : t.Holds x plugin) : t.Named x plugin.rootId := by
  obtain ⟨entry, hget, hplugin⟩ := h
  exact ⟨entry, plugin, hget, hplugin, rfl⟩

theorem holds_of_named (h : t.Named x rootId) : ∃ plugin, t.Holds x plugin ∧
    plugin.rootId = rootId := by
  obtain ⟨entry, plugin, hget, hplugin, hid⟩ := h
  exact ⟨plugin, ⟨entry, hget, hplugin⟩, hid⟩

theorem Holds.keeps (h : t.Holds x plugin) (k : t.Keeps t') : t'.Holds x plugin := by
  obtain ⟨entry, hget, hplugin⟩ := h
  obtain ⟨entry', hget'⟩ := Option.isSome_iff_exists.1 ((k.isSome x).trans (by rw [hget]; rfl))
  obtain ⟨_, hsame, hentry⟩ := k.entry_of hget'
  rw [hget, Option.some.injEq] at hsame
  subst hsame
  exact ⟨entry', hget', by rw [hentry]; exact hplugin⟩

theorem Holds.modify {f : ContextEntry → ContextEntry} (h : t.Holds x plugin)
    (hf : ∀ entry, (f entry).plugin = entry.plugin) : (t.modify root f).Holds x plugin := by
  obtain ⟨entry, hget, hplugin⟩ := h
  unfold Holds
  rw [get_modify, hget]
  split
  · exact ⟨f entry, rfl, (hf entry).trans hplugin⟩
  · exact ⟨entry, rfl, hplugin⟩

theorem holds_setPlugin (h : t.contextType root = some .root) :
    (t.setPlugin root plugin).Holds root plugin := by
  obtain ⟨entry, hget⟩ := Option.isSome_iff_exists.1 (isSome_of_contextType h)
  unfold Holds ContextTable.setPlugin
  rw [if_pos h, get_modify, if_pos rfl, hget]
  exact ⟨_, rfl, rfl⟩

/-- A root that awaits its plugin is not one that holds a plugin. -/
theorem Holds.setPlugin {plugin' : PluginConfig} (h : t.Holds x plugin)
    (hawaits : t.Awaits root plugin'.rootId) : (t.setPlugin root plugin').Holds x plugin := by
  obtain ⟨entry, hget, hplugin⟩ := h
  have hx : x ≠ root := by
    rintro rfl
    rw [hawaits.bare entry hget] at hplugin
    cases hplugin
  unfold Holds ContextTable.setPlugin
  split
  · rw [get_modify, if_neg hx]
    exact ⟨entry, hget, hplugin⟩
  · exact ⟨entry, hget, hplugin⟩

end ContextTable

/-! ## What a step does to the names -/

/-- **A step keeps the names apart**, unless the embedder configures a root by hand. -/
theorem Session.Step.distinct (step : s.Step aim t s') (haim : aim ≠ .configure)
    (h : s.abi.contexts.Distinct) : s'.abi.contexts.Distinct := by
  cases step with
  | host running step =>
    exact h.of_named fun _ _ => .of_keeps (HostKeeps.of_step step).contexts
  | began params may => exact h.of_named fun _ _ => .of_keeps (.setEffective _ _)
  | created aimed idle live vm accepted create =>
    exact h.of_named fun _ _ => .of_creates (ContextTable.creates_of_create create)
  | streamKind stream agrees => exact h.of_named fun _ _ => .of_modify fun _ => rfl
  | state state aimed => exact h.of_named fun _ _ => .of_modify fun _ => rfl
  | rejected root aimed => exact h.of_named fun _ _ => .of_modify fun _ => rfl
  | plugin root plugin aimed => exact h.setPlugin (aimed.resolve_left haim).2.unused
  | deleted aimed idle live mark known root children =>
    rename_i c isRoot
    have hremoved : (s.abi.removeContext c isRoot).contexts = s.abi.contexts.remove c := by
      cases isRoot <;> rfl
    refine h.of_named fun x rootId (hx : (s.abi.removeContext c isRoot).contexts.Named x rootId) => ?_
    rw [hremoved] at hx
    exact hx.of_remove
  | _ => exact h

/-- **A step leaves a context its plugin**, or deletes it, unless the embedder configures a
    root by hand. -/
theorem Session.Step.holds {x : ContextId} {plugin : PluginConfig} (step : s.Step aim t s')
    (haim : aim ≠ .configure) (hwf : s.abi.contexts.WellFormed)
    (h : s.abi.contexts.Holds x plugin) :
    s'.abi.contexts.get x = none ∨ s'.abi.contexts.Holds x plugin := by
  cases step with
  | host running step => exact .inr (h.keeps (HostKeeps.of_step step).contexts)
  | began params may => exact .inr (h.keeps (.setEffective _ _))
  | created aimed idle live vm accepted create =>
    obtain ⟨entry, hget, hplugin⟩ := h
    have hcreates := ContextTable.creates_of_create create
    refine .inr ⟨entry, ?_, hplugin⟩
    refine (hcreates.get_eq x).trans ?_
    rw [if_neg, hget]
    rintro rfl
    have hbelow := hwf.below _ entry hget
    rw [hcreates.id_eq] at hbelow
    exact Nat.lt_irrefl _ hbelow
  | streamKind stream agrees => exact .inr (h.modify fun _ => rfl)
  | state state aimed => exact .inr (h.modify fun _ => rfl)
  | rejected root aimed => exact .inr (h.modify fun _ => rfl)
  | plugin root plugin aimed => exact .inr (h.setPlugin (aimed.resolve_left haim).2)
  | deleted aimed idle live mark known root children =>
    rename_i c isRoot
    have hremoved : (s.abi.removeContext c isRoot).contexts = s.abi.contexts.remove c := by
      cases isRoot <;> rfl
    show (s.abi.removeContext c isRoot).contexts.get x = none ∨
      (s.abi.removeContext c isRoot).contexts.Holds x plugin
    unfold ContextTable.Holds
    rw [hremoved, ContextTable.get_remove]
    split
    · exact .inl rfl
    · exact .inr h
  | _ => exact .inr h

/-- A call of the hand-driven start of a root. -/
def Op.byHand : Op → Bool
  | .onContextCreate none _ | .onVmStart _ _ | .onConfigure _ _ _ => true
  | _ => false

theorem Op.aim_ne_configure {op : Op} (h : op.byHand = false) : op.aim ≠ .configure := by
  intro haim
  cases op <;> first | (cases haim; done) | cases h

theorem Session.distinct_of_steps (path : Steps (Session.Step aim) s t s')
    (haim : aim ≠ .configure) (h : s.abi.contexts.Distinct) : s'.abi.contexts.Distinct :=
  path.invariant (I := fun s => s.abi.contexts.Distinct) (fun _ _ _ h step => step.distinct haim h) h

theorem Session.distinct_of_calls {calls : List Call} (path : Steps Session.Calls s calls s')
    (hrested : s.Rested) (hsound : s.Sound) (hhand : ∀ call ∈ calls, call.op.byHand = false)
    (h : s.abi.contexts.Distinct) : s'.abi.contexts.Distinct := by
  refine (Session.calls_induction (I := fun _ s' => s'.abi.contexts.Distinct) [] ?_ path hrested
    hsound h).1
  rintro past s₁ call s₂ hdistinct hmem hcall
  exact Session.distinct_of_steps hcall.path (Op.aim_ne_configure (hhand call hmem)) hdistinct

/-- **A context holds its plugin until it is deleted**, in calls of which none starts a root
    by hand. -/
theorem Session.holds_of_calls {x : ContextId} {plugin : PluginConfig} {calls : List Call}
    (path : Steps Session.Calls s calls s') (hrested : s.Rested) (hsound : s.Sound)
    (hhand : ∀ call ∈ calls, call.op.byHand = false) (h : s.abi.contexts.Holds x plugin) :
    s'.abi.contexts.get x = none ∨ s'.abi.contexts.Holds x plugin := by
  have hbelow : x.val < s.abi.contexts.next.val := by
    obtain ⟨entry, hget, -⟩ := h
    exact hsound.contexts.below x entry hget
  refine (Session.calls_induction (I := fun _ s' => x.val < s'.abi.contexts.next.val ∧
    (s'.abi.contexts.get x = none ∨ s'.abi.contexts.Holds x plugin)) [] ?_ path hrested hsound
    ⟨hbelow, .inr h⟩).1.2
  rintro past s₁ call s₂ hI hmem hcall
  have haim := Op.aim_ne_configure (hhand call hmem)
  refine (hcall.path.invariant (I := fun s' => s'.Sound ∧ x.val < s'.abi.contexts.next.val ∧
    (s'.abi.contexts.get x = none ∨ s'.abi.contexts.Holds x plugin)) ?_ ⟨hcall.sound, hI⟩).2
  rintro s₃ t s₄ ⟨hsound₃, hbelow₃, hkept⟩ step
  have hevolves := step.evolves
  refine ⟨hsound₃.step step, Nat.lt_of_lt_of_le hbelow₃ hevolves.next, ?_⟩
  rcases hkept with hgone | hholds
  · left
    cases hget : s₄.abi.contexts.get x with
    | none => rfl
    | some entry =>
      -- An identifier that was handed out is not handed out again.
      obtain ⟨entry₀, hget₀, -⟩ := hevolves.entry_of hbelow₃ hget
      rw [hgone] at hget₀
      cases hget₀
  · exact step.holds haim hsound₃.contexts hholds

theorem Run.aims_ne_configure (r : Run) (hhand : ∀ call ∈ r.calls, call.op.byHand = false)
    (haim : r.Aims aim) : aim ≠ .configure := by
  rintro rfl
  rcases haim with haim | ⟨call, hmem, haim⟩
  · cases haim
  · exact Op.aim_ne_configure (hhand call hmem) haim.symm

/-- The names of a run whose roots come from starts. -/
theorem Run.distinct (r : Run) (hhand : ∀ call ∈ r.calls, call.op.byHand = false) :
    r.last.abi.contexts.Distinct ∧
      ∀ e ∈ r.trace, ∀ abi, e.snapshot = some abi → abi.contexts.Distinct := by
  refine r.history (I := fun past s => s.abi.contexts.Distinct ∧
    ∀ e ∈ past, ∀ abi, e.snapshot = some abi → abi.contexts.Distinct) ?_ ?_
  · exact ⟨.new, by rintro e ⟨⟩⟩
  · rintro aim past s t s' haim ⟨hdistinct, hpast⟩ - step
    refine ⟨step.distinct (r.aims_ne_configure hhand haim) hdistinct, fun e he abi hshow => ?_⟩
    rcases List.mem_append.1 he with he | he
    · exact hpast e he abi hshow
    · rw [step.snapshot he hshow]
      exact hdistinct

end ProxyWasmHost
