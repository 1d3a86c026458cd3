/-
  The invariant of the context table, and that each operation keeps it.
-/
import ProxyWasmHost.Context.Table

namespace ProxyWasmHost

/-- What an entry of a type may hold: only a root holds a plugin and a tick period, and
    only a stream a parent and a family. -/
def ContextEntry.Fits (entry : ContextEntry) : Prop :=
  match entry.contextType with
  | .root => entry.parent = none ∧ entry.streamKind = none
  | .stream => entry.parent.isSome ∧ entry.plugin = none ∧ entry.tickPeriod = none

namespace ContextTable

/-- **The invariant of the context table.** -/
structure WellFormed (t : ContextTable) : Prop where
  below : ∀ id entry, t.get id = some entry → id.val < t.next.val
  fits : ∀ id entry, t.get id = some entry → entry.Fits
  parents : ∀ id entry p, t.get id = some entry → entry.parent = some p →
    t.contextType p = some .root
  effective : ∀ id, t.effective = some id → (t.get id).isSome

namespace WellFormed

variable {t t' : ContextTable} {id root x : ContextId} {parent : Option ContextId}
  {entry : ContextEntry}

theorem new : ContextTable.new.WellFormed where
  below id entry h := by cases h
  fits id entry h := by cases h
  parents id entry p h := by cases h
  effective id h := by cases h

/-! ## What the invariant gives -/

theorem parent_of_root (h : t.WellFormed) (hget : t.get id = some entry)
    (hroot : entry.contextType = .root) : entry.parent = none := by
  have hfits := h.fits id entry hget
  rw [ContextEntry.Fits, hroot] at hfits
  exact hfits.1

theorem parent_eq_none (h : t.WellFormed) (hroot : t.contextType id = some .root) :
    t.parent id = none := by
  unfold contextType at hroot
  unfold ContextTable.parent
  cases hget : t.get id with
  | none => rfl
  | some entry =>
    rw [hget, Option.map_some, Option.some.injEq] at hroot
    exact h.parent_of_root hget hroot

theorem rootOf_of_root (h : t.WellFormed) (hroot : t.contextType id = some .root) :
    t.rootOf id = some id := by
  unfold contextType at hroot
  unfold rootOf
  cases hget : t.get id with
  | none => rw [hget] at hroot; cases hroot
  | some entry =>
    rw [hget, Option.map_some, Option.some.injEq] at hroot
    rw [Option.map_some, h.parent_of_root hget hroot]
    rfl

/-- A table that is not empty has a context without children: a stream, or any context when
    there is none. -/
theorem exists_childless (h : t.WellFormed) (hget : (t.get id).isSome) :
    ∃ x, (t.get x).isSome ∧ t.hasChildren x = false := by
  by_cases hstream : ∃ x, t.contextType x = some .stream
  · obtain ⟨x, hx⟩ := hstream
    refine ⟨x, isSome_of_contextType hx, hasChildren_eq_false.2 fun hroot => ?_⟩
    rw [hx] at hroot
    cases hroot
  · refine ⟨id, hget, hasChildren_eq_false.2 fun _ x entry hx hparent => ?_⟩
    cases htype : entry.contextType with
    | root =>
      rw [h.parent_of_root hx htype] at hparent
      cases hparent
    | stream =>
      refine hstream ⟨x, ?_⟩
      unfold contextType
      rw [hx, Option.map_some, htype]

/-- The root of a live context is a live root. -/
theorem contextType_of_rootOf (h : t.WellFormed) (hroot : t.rootOf id = some root) :
    t.contextType root = some .root := by
  unfold rootOf at hroot
  cases hget : t.get id with
  | none => rw [hget] at hroot; cases hroot
  | some entry =>
    rw [hget, Option.map_some, Option.some.injEq] at hroot
    cases hparent : entry.parent with
    | some p =>
      rw [hparent, Option.getD_some] at hroot
      exact hroot ▸ h.parents id entry p hget hparent
    | none =>
      rw [hparent, Option.getD_none] at hroot
      subst hroot
      unfold contextType
      have hfits := h.fits id entry hget
      cases htype : entry.contextType with
      | root => rw [hget, Option.map_some, htype]
      | stream =>
        rw [ContextEntry.Fits, htype, hparent] at hfits
        cases hfits.1

theorem get_next (h : t.WellFormed) : t.get t.next = none := by
  cases hget : t.get t.next with
  | none => rfl
  | some entry => exact absurd (h.below _ _ hget) (Nat.lt_irrefl _)

/-! ## The operations -/

/-- A change of one entry that keeps its type, its parent and its form. -/
theorem modify (h : t.WellFormed) {f : ContextEntry → ContextEntry}
    (hf : ∀ entry, t.get id = some entry → entry.Fits → (f entry).Fits)
    (htype : ∀ entry, (f entry).contextType = entry.contextType)
    (hparent : ∀ entry, (f entry).parent = entry.parent) : (t.modify id f).WellFormed where
  below x entry hget := by
    rw [get_modify] at hget
    split at hget
    · obtain ⟨entry₀, hget₀, -⟩ := Option.map_eq_some_iff.1 hget
      exact h.below x entry₀ hget₀
    · exact h.below x entry hget
  fits x entry hget := by
    rw [get_modify] at hget
    split at hget
    · rename_i hx
      obtain ⟨entry₀, hget₀, rfl⟩ := Option.map_eq_some_iff.1 hget
      exact hf entry₀ (hx ▸ hget₀) (h.fits x entry₀ hget₀)
    · exact h.fits x entry hget
  parents x entry p hget hp := by
    rw [contextType_modify htype]
    rw [get_modify] at hget
    split at hget
    · obtain ⟨entry₀, hget₀, rfl⟩ := Option.map_eq_some_iff.1 hget
      exact h.parents x entry₀ p hget₀ ((hparent entry₀).symm.trans hp)
    · exact h.parents x entry p hget hp
  effective x hx := by
    rw [isSome_modify]
    exact h.effective x hx

theorem setState (h : t.WellFormed) (state : ContextState) : (t.setState id state).WellFormed :=
  h.modify (fun _ _ hfits => hfits) (fun _ => rfl) fun _ => rfl

theorem setStreamKind (h : t.WellFormed) (kind : StreamKind)
    (hstream : t.contextType id = some .stream) : (t.setStreamKind id kind).WellFormed := by
  refine h.modify (fun entry hget hfits => ?_) (fun _ => rfl) fun _ => rfl
  have htype : entry.contextType = .stream := by
    unfold ContextTable.contextType at hstream
    rw [hget, Option.map_some, Option.some.injEq] at hstream
    exact hstream
  unfold ContextEntry.Fits at hfits ⊢
  rw [htype] at hfits
  simp only [htype]
  exact hfits

theorem reject (h : t.WellFormed) (root : ContextId) : (t.reject root).WellFormed :=
  h.modify (fun _ _ hfits => hfits) (fun _ => rfl) fun _ => rfl

theorem rejectVm (h : t.WellFormed) (root : ContextId) : (t.rejectVm root).WellFormed :=
  ⟨h.below, h.fits, h.parents, h.effective⟩

theorem setPlugin (h : t.WellFormed) (root : ContextId) (plugin : PluginConfig) :
    (t.setPlugin root plugin).WellFormed := by
  unfold ContextTable.setPlugin
  split
  · rename_i hroot
    refine h.modify (fun entry hget hfits => ?_) (fun _ => rfl) fun _ => rfl
    have htype : entry.contextType = .root := by
      unfold ContextTable.contextType at hroot
      rw [hget, Option.map_some, Option.some.injEq] at hroot
      exact hroot
    unfold ContextEntry.Fits at hfits ⊢
    rw [htype] at hfits
    simp only [htype]
    exact hfits
  · exact h

theorem done (h : t.WellFormed) : t.done.2.WellFormed := by
  rcases t.done_cases with heq | ⟨id, -, -, heq⟩ <;> rw [heq]
  · exact h
  · exact h.setState _

theorem setEffective (h : t.WellFormed) (id : ContextId) : (t.setEffective id).2.WellFormed := by
  unfold ContextTable.setEffective
  split
  · rename_i hget
    exact ⟨h.below, h.fits, h.parents, by rintro _ ⟨⟩; exact hget ▸ rfl⟩
  · exact h

/-- A tick period is set on the root of a context. -/
theorem setTickPeriod (h : t.WellFormed) (id : ContextId) (period : Option ℕ) :
    (t.setTickPeriod id period).2.WellFormed := by
  rcases t.setTickPeriod_cases id period with heq | ⟨root, held, hroot, -, heq⟩ <;> rw [heq]
  · exact h
  · refine h.modify (fun entry hget hfits => ?_) (fun _ => rfl) fun _ => rfl
    have htype := h.contextType_of_rootOf hroot
    unfold ContextTable.contextType at htype
    rw [hget, Option.map_some, Option.some.injEq] at htype
    unfold ContextEntry.Fits at hfits ⊢
    rw [htype] at hfits
    simp only [htype]
    exact hfits

/-- A context created under roots that are not refused is not refused. -/
theorem rejectionOf_of_create (h : t.WellFormed) (c : t.Creates parent id t')
    (hvm : t.vmRejected = none) (haccepted : ∀ p, parent = some p → t.rejectionOf p = none) :
    t'.rejectionOf id = none := by
  refine rejectionOf_eq_none.2 ⟨c.vmRejected_eq.trans hvm, ?_⟩
  unfold isRejected rootOf
  rw [c.get_eq, if_pos rfl, Option.map_some, Option.bind_some]
  cases parent with
  | none =>
    have hroot : (fresh (typeUnder none) none).parent.getD id = id := rfl
    rw [hroot, c.get_eq, if_pos rfl]
    rfl
  | some p =>
    have hroot : (fresh (typeUnder (some p)) (some p)).parent.getD id = p := rfl
    have hp := (rejectionOf_eq_none.1 (haccepted p rfl)).2
    unfold isRejected at hp
    rw [h.rootOf_of_root (c.parent_root p rfl), Option.bind_some] at hp
    rw [hroot, c.get_eq]
    split
    · rename_i entry hget
      split at hget
      · cases hget; rfl
      · rw [hget] at hp; exact hp
    · rfl

theorem create (h : t.WellFormed) (c : t.Creates parent id t') : t'.WellFormed := by
  have hnew : t.get id = none := by rw [c.id_eq]; exact h.get_next
  have htype : ∀ x, t.contextType x = some .root → t'.contextType x = some .root := by
    intro x hx
    have hne : x ≠ id := by
      rintro rfl
      unfold ContextTable.contextType at hx
      rw [hnew] at hx
      cases hx
    unfold ContextTable.contextType at hx ⊢
    rw [c.get_eq, if_neg hne]
    exact hx
  refine ⟨?_, ?_, ?_, ?_⟩
  · intro x entry hget
    rw [c.get_eq] at hget
    rw [c.next_eq]
    split at hget
    · rename_i hx
      rw [hx]
      exact Nat.lt_succ_self _
    · have := h.below x entry hget
      rw [c.id_eq]
      exact Nat.lt_succ_of_lt this
  · intro x entry hget
    rw [c.get_eq] at hget
    split at hget
    · cases hget
      cases parent with
      | none => exact ⟨rfl, rfl⟩
      | some p => exact ⟨rfl, rfl, rfl⟩
    · exact h.fits x entry hget
  · intro x entry p hget hparent
    rw [c.get_eq] at hget
    split at hget
    · cases hget
      exact htype p (c.parent_root p hparent)
    · exact htype p (h.parents x entry p hget hparent)
  · intro x hx
    rw [c.effective_eq] at hx
    rw [c.get_eq]
    split
    · rfl
    · exact h.effective x hx

/-- A context that no other names as its parent leaves the table. -/
theorem remove (h : t.WellFormed) (hchildren : t.hasChildren id = false) :
    (t.remove id).WellFormed := by
  have hget : ∀ {x entry}, (t.remove id).get x = some entry → x ≠ id ∧ t.get x = some entry := by
    intro x entry hx
    rw [get_remove] at hx
    split at hx
    · cases hx
    · exact ⟨‹_›, hx⟩
  have hnext : (t.remove id).next = t.next := by
    unfold ContextTable.remove
    split <;> rfl
  refine ⟨?_, ?_, ?_, ?_⟩
  · intro x entry hx
    rw [hnext]
    exact h.below x entry (hget hx).2
  · intro x entry hx
    exact h.fits x entry (hget hx).2
  · intro x entry p hx hparent
    have hroot := h.parents x entry p (hget hx).2 hparent
    have hne : p ≠ id := by
      rintro rfl
      exact parent_ne_of_hasChildren hroot hchildren (hget hx).2 hparent
    unfold ContextTable.contextType at hroot ⊢
    rw [get_remove, if_neg hne]
    exact hroot
  · intro x hx
    unfold ContextTable.remove at hx
    rw [get_remove]
    split at hx
    · rename_i hnone
      have hsome := h.effective x hx
      rw [if_neg]
      · exact hsome
      · rintro rfl
        rw [hnone] at hsome
        cases hsome
    · split at hx
      · cases hx
      · rename_i hne
        rw [if_neg]
        · exact h.effective x hx
        · rintro rfl
          exact hne hx

end WellFormed

end ContextTable

end ProxyWasmHost
