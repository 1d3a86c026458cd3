/-
  The contexts of a run: the table is well formed in every state, identifiers are handed
  out in increasing order, and the table holds what was created and not deleted.
-/
import ProxyWasmHost.Guest.Path

namespace ProxyWasmHost

open Prog Session Prologue

variable {aim : Aim} {s s' : Session} {t past : List Event}

/-- The identifier that an event hands out. -/
def Event.handsOut : Event → Option ContextId
  | .created id _ => some id
  | _ => none

/-! ## One step -/

/-- A host function hands out no context and deletes none. -/
theorem HostStep.not_made {h h' : HostState} (step : HostStep h t h') {e : Event} (he : e ∈ t) :
    (∀ id parent, e ≠ .created id parent) ∧ ∀ id abi, e ≠ .deleted id abi := by
  cases step <;> simp only [List.not_mem_nil, List.mem_singleton] at he <;> subst he <;>
    exact ⟨by rintro _ _ ⟨⟩, by rintro _ _ ⟨⟩⟩

/-- What a step does to the contexts that are live. -/
inductive ContextTable.Moves (table : ContextTable) : List Event → ContextTable → Prop
  | created {parent : Option ContextId} {id : ContextId} {table' : ContextTable}
      (creates : table.Creates parent id table') : Moves table [.created id parent] table'
  | deleted {c : ContextId} {abi : AbiState} (shown : abi.contexts = table)
      (known : (table.get c).isSome) (children : table.hasChildren c = false) :
      Moves table [.deleted c abi] (table.remove c)
  | kept {t : List Event} {table' : ContextTable} (next : table'.next = table.next)
      (parents : ∀ x, (table'.get x).map (·.parent) = (table.get x).map (·.parent))
      (none_made : ∀ id parent, .created id parent ∉ t)
      (none_gone : ∀ id abi, .deleted id abi ∉ t) : Moves table t table'

namespace ContextTable

variable {table table' : ContextTable} {x id : ContextId}

theorem parents_modify {f : ContextEntry → ContextEntry}
    (hf : ∀ entry, (f entry).parent = entry.parent) :
    ((table.modify id f).get x).map (·.parent) = (table.get x).map (·.parent) := by
  rw [get_modify]
  split
  · rw [Option.map_map]
    exact congrArg (fun g => (table.get x).map g) (funext hf)
  · rfl

theorem Moves.quiet (next : table'.next = table.next)
    (parents : ∀ x, (table'.get x).map (·.parent) = (table.get x).map (·.parent)) :
    table.Moves [] table' :=
  .kept next parents (fun _ _ h => by cases h) fun _ _ h => by cases h

theorem Moves.modify {f : ContextEntry → ContextEntry}
    (hf : ∀ entry, (f entry).parent = entry.parent) : table.Moves [] (table.modify id f) :=
  .quiet rfl fun _ => parents_modify hf

end ContextTable

/-- **Every step moves the contexts**: it creates one, deletes one without children, or
    keeps them. -/
theorem Session.Step.moves (step : s.Step aim t s') : s.abi.contexts.Moves t s'.abi.contexts := by
  cases step with
  | host running step =>
    have k := (HostKeeps.of_step step).contexts
    exact .kept k.next (fun x => k.map_eq (·.parent) (fun _ => rfl) x)
      (fun id parent hmem => (step.not_made hmem).1 id parent rfl)
      fun id abi hmem => (step.not_made hmem).2 id abi rfl
  | began =>
    have k := ContextTable.Keeps.setEffective s.abi.contexts
    refine .kept (k _).next (fun x => (k _).map_eq (·.parent) (fun _ => rfl) x) ?_ ?_
    · rintro _ _ (_ | ⟨_, ⟨⟩⟩)
    · rintro _ _ (_ | ⟨_, ⟨⟩⟩)
  | created aimed idle live vm accepted create =>
    exact .created (ContextTable.creates_of_create create)
  | deleted aimed idle live mark known root children =>
    rename_i c isRoot
    have hcontexts : (s.abi.removeContext c isRoot).contexts = s.abi.contexts.remove c := by
      cases isRoot <;> rfl
    rw [abi_mapAbi, hcontexts]
    exact .deleted rfl known children
  | streamKind stream agrees => exact .modify fun _ => rfl
  | state => exact .modify fun _ => rfl
  | rejected => exact .modify fun _ => rfl
  | plugin root plugin aimed =>
    show s.abi.contexts.Moves [] (s.abi.contexts.setPlugin root plugin)
    unfold ContextTable.setPlugin
    split
    · exact .modify fun _ => rfl
    · exact .quiet rfl fun _ => rfl
  | finished | returned | unwound | ended | dropped =>
    refine .kept rfl (fun _ => rfl) ?_ ?_
    · rintro _ _ (_ | ⟨_, ⟨⟩⟩)
    · rintro _ _ (_ | ⟨_, ⟨⟩⟩)
  | _ => exact .quiet rfl fun _ => rfl

/-! ## The history of the table -/

/-- What the events of a run say about the table it reached. -/
structure ContextTable.Recorded (table : ContextTable) (past : List Event) : Prop where
  handed : (past.filterMap Event.handsOut).Pairwise fun a b => a.val < b.val
  below : ∀ id parent, .created id parent ∈ past → id.val < table.next.val
  gone : ∀ id abi, .deleted id abi ∈ past → id.val < table.next.val
  live : ∀ id parent, (table.get id).map (·.parent) = some parent ↔
    .created id parent ∈ past ∧ ∀ abi, .deleted id abi ∉ past

namespace ContextTable.Recorded

variable {table table' : ContextTable} {id : ContextId} {parent : Option ContextId}

theorem new : ContextTable.new.Recorded [] where
  handed := .nil
  below _ _ h := by cases h
  gone _ _ h := by cases h
  live id parent := by
    constructor
    · intro h
      cases h
    · rintro ⟨h, -⟩
      cases h

theorem mem_handsOut : id ∈ past.filterMap Event.handsOut ↔
    ∃ parent, .created id parent ∈ past := by
  rw [List.mem_filterMap]
  constructor
  · rintro ⟨e, hmem, he⟩
    cases e with
    | created id' parent =>
      cases he
      exact ⟨parent, hmem⟩
    | _ => cases he
  · rintro ⟨parent, hmem⟩
    exact ⟨_, hmem, rfl⟩

/-- A context that is created gets the next identifier, which no event names yet. -/
theorem creates (h : table.Recorded past) (c : table.Creates parent id table') :
    table'.Recorded (past ++ [.created id parent]) := by
  have hnext : table.next.val ≤ table'.next.val := by rw [c.next_eq, c.id_eq]; omega
  have hid : id.val < table'.next.val := by rw [c.next_eq]; omega
  refine ⟨?_, ?_, ?_, ?_⟩
  · rw [List.filterMap_append, List.pairwise_append]
    refine ⟨h.handed, List.pairwise_singleton _ _, ?_⟩
    intro a ha b hb
    obtain ⟨p, hmem⟩ := mem_handsOut.1 ha
    rw [List.mem_singleton.1 (show b ∈ [id] from hb), c.id_eq]
    exact h.below a p hmem
  · intro x p hmem
    rcases List.mem_append.1 hmem with hmem | hmem
    · exact lt_of_lt_of_le (h.below x p hmem) hnext
    · cases List.mem_singleton.1 hmem
      exact hid
  · intro x abi hmem
    rcases List.mem_append.1 hmem with hmem | hmem
    · exact lt_of_lt_of_le (h.gone x abi hmem) hnext
    · cases List.mem_singleton.1 hmem
  · intro x p
    rw [c.get_eq]
    by_cases hx : x = id
    · subst hx
      rw [if_pos rfl, Option.map_some, Option.some.injEq]
      constructor
      · rintro rfl
        refine ⟨List.mem_append_right _ (.head _), fun abi hmem => ?_⟩
        rcases List.mem_append.1 hmem with hmem | hmem
        · exact absurd (h.gone x abi hmem) (by rw [c.id_eq]; omega)
        · cases List.mem_singleton.1 hmem
      · rintro ⟨hmem, -⟩
        rcases List.mem_append.1 hmem with hmem | hmem
        · exact absurd (h.below x p hmem) (by rw [c.id_eq]; omega)
        · cases List.mem_singleton.1 hmem
          rfl
    · rw [if_neg hx, h.live]
      simp only [List.mem_append, List.mem_singleton, Event.created.injEq, hx, false_and,
        or_false, reduceCtorEq]

/-- A context that leaves the table has an event that says so. -/
theorem remove {c : ContextId} {abi : AbiState} (h : table.Recorded past)
    (hknown : (table.get c).isSome) : (table.remove c).Recorded (past ++ [.deleted c abi]) := by
  have hnext : (table.remove c).next = table.next := by
    unfold ContextTable.remove
    split <;> rfl
  obtain ⟨entry, hget⟩ := Option.isSome_iff_exists.1 hknown
  obtain ⟨hmade, -⟩ := (h.live c entry.parent).1 (by rw [hget, Option.map_some])
  refine ⟨?_, ?_, ?_, ?_⟩
  · rw [List.filterMap_append, show [Event.deleted c abi].filterMap Event.handsOut = [] from rfl,
      List.append_nil]
    exact h.handed
  · intro x p hmem
    rw [hnext]
    rcases List.mem_append.1 hmem with hmem | hmem
    · exact h.below x p hmem
    · cases List.mem_singleton.1 hmem
  · intro x abi' hmem
    rw [hnext]
    rcases List.mem_append.1 hmem with hmem | hmem
    · exact h.gone x abi' hmem
    · cases List.mem_singleton.1 hmem
      exact h.below c _ hmade
  · intro x p
    rw [get_remove]
    by_cases hx : x = c
    · subst hx
      rw [if_pos rfl]
      constructor
      · intro hnone
        cases hnone
      · rintro ⟨-, hgone⟩
        exact absurd (List.mem_append_right _ (.head _)) (hgone abi)
    · rw [if_neg hx, h.live]
      simp only [List.mem_append, List.mem_singleton, Event.deleted.injEq, hx, false_and,
        or_false, reduceCtorEq]

/-- **Every move of the contexts is recorded.** -/
theorem moves (h : table.Recorded past) (hmoves : table.Moves t table') :
    table'.Recorded (past ++ t) := by
  cases hmoves with
  | created creates => exact h.creates creates
  | deleted shown known children => exact h.remove known
  | kept next parents none_made none_gone =>
    refine ⟨?_, ?_, ?_, ?_⟩
    · have hnone : t.filterMap Event.handsOut = [] := by
        refine List.eq_nil_iff_forall_not_mem.2 fun id hid => ?_
        obtain ⟨p, hmem⟩ := mem_handsOut.1 hid
        exact none_made id p hmem
      rw [List.filterMap_append, hnone, List.append_nil]
      exact h.handed
    · intro x p hmem
      rw [next]
      exact h.below x p ((List.mem_append.1 hmem).resolve_right (none_made x p))
    · intro x abi hmem
      rw [next]
      exact h.gone x abi ((List.mem_append.1 hmem).resolve_right (none_gone x abi))
    · intro x p
      rw [parents, h.live]
      simp only [List.mem_append, none_made, none_gone, or_false]

/-- The contexts of the tree of a root, as the events of a run name them. -/
theorem rootOf_iff (h : table.Recorded past) {x root : ContextId} :
    table.rootOf x = some root ↔ ∃ parent, .created x parent ∈ past ∧ parent.getD x = root ∧
      ∀ abi, .deleted x abi ∉ past := by
  unfold ContextTable.rootOf
  rw [Option.map_eq_some_iff]
  constructor
  · rintro ⟨entry, hget, hroot⟩
    obtain ⟨hmade, hgone⟩ := (h.live x entry.parent).1 (by rw [hget, Option.map_some])
    exact ⟨entry.parent, hmade, hroot, hgone⟩
  · rintro ⟨parent, hmade, hroot, hgone⟩
    obtain ⟨entry, hget, hparent⟩ := Option.map_eq_some_iff.1 ((h.live x parent).2 ⟨hmade, hgone⟩)
    exact ⟨entry, hget, hparent ▸ hroot⟩

end ContextTable.Recorded

/-! ## Whole runs -/

/-- What a run says of its contexts: the table that every event shows is well formed, a
    root that is deleted has no stream left, and the events record the table. -/
structure Charted (past : List Event) (s : Session) : Prop where
  shown : ∀ e ∈ past, ∀ abi, e.snapshot = some abi → abi.contexts.WellFormed
  childless : ∀ c abi, .deleted c abi ∈ past → abi.contexts.hasChildren c = false
  recorded : s.abi.contexts.Recorded past

theorem Charted.step (h : Charted past s) (hsound : s.Sound) (step : s.Step aim t s') :
    Charted (past ++ t) s' := by
  refine ⟨?_, ?_, h.recorded.moves step.moves⟩
  · intro e he abi hshow
    rcases List.mem_append.1 he with he | he
    · exact h.shown e he abi hshow
    · rw [step.snapshot he hshow]
      exact hsound.contexts
  · intro c abi hmem
    rcases List.mem_append.1 hmem with hmem | hmem
    · exact h.childless c abi hmem
    · have hmoves := step.moves
      generalize s'.abi.contexts = table at hmoves
      cases hmoves with
      | created => cases List.mem_singleton.1 hmem
      | deleted shown known children =>
        cases List.mem_singleton.1 hmem
        rw [shown]
        exact children
      | kept next parents none_made none_gone => exact absurd hmem (none_gone c abi)

theorem Run.charted (r : Run) : Charted r.trace r.last :=
  r.history (I := Charted) ⟨(by rintro _ ⟨⟩), (by rintro _ _ ⟨⟩), .new⟩
    fun _ _ _ _ _ _ h hsound step => h.step hsound step

/-- **The contexts of every run**: the table is well formed in every state the run shows;
    identifiers are handed out in strictly increasing order, and the last one of their type
    never; the table holds the contexts that were created and not deleted; and a root is
    deleted only when no context names it as its parent. -/
theorem Run.contexts_kept (r : Run) :
    (r.last.abi.contexts.WellFormed ∧
      ∀ e ∈ r.trace, ∀ abi, e.snapshot = some abi → abi.contexts.WellFormed) ∧
    (r.trace.filterMap Event.handsOut).Pairwise (fun a b => a.val < b.val) ∧
    (∀ id ∈ r.trace.filterMap Event.handsOut, id.val < 2 ^ 32 - 1) ∧
    (∀ id, (r.last.abi.contexts.get id).isSome ↔
      id ∈ r.trace.filterMap Event.handsOut ∧ ∀ abi, .deleted id abi ∉ r.trace) ∧
    ∀ root abi, .deleted root abi ∈ r.trace → abi.contexts.contextType root = some .root →
      ∀ x entry, abi.contexts.get x = some entry → entry.parent ≠ some root := by
  have h := r.charted
  refine ⟨⟨r.last_sound.contexts, h.shown⟩, h.recorded.handed, ?_, ?_, ?_⟩
  · intro id hid
    obtain ⟨parent, hmem⟩ := ContextTable.Recorded.mem_handsOut.1 hid
    have hbelow := h.recorded.below id parent hmem
    have hlast := r.last.abi.contexts.next.lt
    omega
  · intro id
    constructor
    · intro hlive
      obtain ⟨entry, hget⟩ := Option.isSome_iff_exists.1 hlive
      obtain ⟨hmade, hgone⟩ := (h.recorded.live id entry.parent).1 (by rw [hget, Option.map_some])
      exact ⟨ContextTable.Recorded.mem_handsOut.2 ⟨_, hmade⟩, hgone⟩
    · rintro ⟨hmade, hgone⟩
      obtain ⟨parent, hmem⟩ := ContextTable.Recorded.mem_handsOut.1 hmade
      obtain ⟨entry, hget, -⟩ :=
        Option.map_eq_some_iff.1 ((h.recorded.live id parent).2 ⟨hmem, hgone⟩)
      rw [hget, Option.isSome_some]
  · intro root abi hmem hroot
    exact ContextTable.hasChildren_eq_false.1 (h.childless root abi hmem) hroot

end ProxyWasmHost
