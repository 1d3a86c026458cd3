/-
  How a table of contexts changes over a run: contexts come with new identifiers, and
  what an entry has of type, parent, refusal and family stays.
-/
import ProxyWasmHost.Context.WellFormed

namespace ProxyWasmHost

/-- `entry'` has what `entry` has of type, parent, refusal and family. -/
structure ContextEntry.Grows (entry entry' : ContextEntry) : Prop where
  contextType : entry'.contextType = entry.contextType
  parent : entry'.parent = entry.parent
  rejected : entry.rejected = true → entry'.rejected = true
  streamKind : ∀ kind, entry.streamKind = some kind → entry'.streamKind = some kind

namespace ContextEntry.Grows

variable {entry entry' entry'' : ContextEntry}

theorem refl (entry : ContextEntry) : entry.Grows entry := ⟨rfl, rfl, id, fun _ => id⟩

theorem trans (h : entry.Grows entry') (h' : entry'.Grows entry'') : entry.Grows entry'' :=
  ⟨h'.contextType.trans h.contextType, h'.parent.trans h.parent,
    fun hr => h'.rejected (h.rejected hr), fun kind hk => h'.streamKind kind (h.streamKind kind hk)⟩

end ContextEntry.Grows

namespace ContextTable

variable {t t' t'' : ContextTable} {x id root : ContextId} {entry' : ContextEntry}

/-- **The entries of `t'` are those of `t`, grown, and new ones.** -/
structure Evolves (t t' : ContextTable) : Prop where
  next : t.next.val ≤ t'.next.val
  vmRejected : t.vmRejected.isSome → t'.vmRejected.isSome
  entries : ∀ x entry', t'.get x = some entry' →
    (∃ entry, t.get x = some entry ∧ entry.Grows entry') ∨ t.next.val ≤ x.val

namespace Evolves

theorem refl (t : ContextTable) : t.Evolves t :=
  ⟨Nat.le_refl _, id, fun _ entry hget => .inl ⟨entry, hget, .refl entry⟩⟩

theorem trans (h : t.Evolves t') (h' : t'.Evolves t'') : t.Evolves t'' := by
  refine ⟨h.next.trans h'.next, fun hr => h'.vmRejected (h.vmRejected hr),
    fun x entry'' hget => ?_⟩
  rcases h'.entries x entry'' hget with ⟨entry', hget', hgrows'⟩ | hnew
  · refine (h.entries x entry' hget').imp_left fun ⟨entry, hget₀, hgrows⟩ => ?_
    exact ⟨entry, hget₀, hgrows.trans hgrows'⟩
  · exact .inr (h.next.trans hnew)

/-- A context with an identifier that was handed out before is the context it was. -/
theorem entry_of (h : t.Evolves t') (hx : x.val < t.next.val) (hget : t'.get x = some entry') :
    ∃ entry, t.get x = some entry ∧ entry.Grows entry' :=
  (h.entries x entry' hget).resolve_right (by omega)

/-- A context that is refused with its root stays so until it leaves the table. -/
theorem isRejected (h : t.Evolves t') (hwf : t.WellFormed) (hwf' : t'.WellFormed)
    (hrejected : t.isRejected x = true) : t'.get x = none ∨ t'.isRejected x = true := by
  cases hget' : t'.get x with
  | none => exact .inl rfl
  | some entry' =>
    refine .inr ?_
    unfold ContextTable.isRejected at hrejected ⊢
    cases hget : t.get x with
    | none =>
      unfold ContextTable.rootOf at hrejected
      rw [hget] at hrejected
      cases hrejected
    | some entry =>
      obtain ⟨_, hsame, hgrows⟩ := h.entry_of (hwf.below x entry hget) hget'
      rw [hget, Option.some.injEq] at hsame
      subst hsame
      have hroot : t.rootOf x = some (entry.parent.getD x) := by
        unfold ContextTable.rootOf
        rw [hget]
        rfl
      have hroot' : t'.rootOf x = some (entry.parent.getD x) := by
        unfold ContextTable.rootOf
        rw [hget', Option.map_some, hgrows.parent]
      obtain ⟨rootEntry', hlive⟩ := Option.isSome_iff_exists.1
        (isSome_of_contextType (hwf'.contextType_of_rootOf hroot'))
      obtain ⟨rootEntry, hlive₀⟩ := Option.isSome_iff_exists.1
        (isSome_of_contextType (hwf.contextType_of_rootOf hroot))
      obtain ⟨_, hsame, hgrows'⟩ := h.entry_of (hwf.below _ rootEntry hlive₀) hlive
      rw [hlive₀, Option.some.injEq] at hsame
      subst hsame
      rw [hroot, Option.bind_some, hlive₀] at hrejected
      rw [hroot', Option.bind_some, hlive]
      exact hgrows'.rejected hrejected

/-! ## What the operations are -/

theorem modify {f : ContextEntry → ContextEntry}
    (hf : ∀ entry, t.get id = some entry → entry.Grows (f entry)) : t.Evolves (t.modify id f) := by
  refine ⟨Nat.le_refl _, fun hr => hr, fun x entry' hget => .inl ?_⟩
  rw [get_modify] at hget
  split at hget
  · rename_i hx
    obtain ⟨entry, hget₀, rfl⟩ := Option.map_eq_some_iff.1 hget
    exact ⟨entry, hget₀, hf entry (hx ▸ hget₀)⟩
  · exact ⟨entry', hget, .refl entry'⟩

theorem setState (t : ContextTable) (id : ContextId) (state : ContextState) :
    t.Evolves (t.setState id state) :=
  modify fun _ _ => ⟨rfl, rfl, fun hr => hr, fun _ hk => hk⟩

theorem reject (t : ContextTable) (root : ContextId) : t.Evolves (t.reject root) :=
  modify fun _ _ => ⟨rfl, rfl, fun _ => rfl, fun _ => id⟩

theorem rejectVm (t : ContextTable) (root : ContextId) : t.Evolves (t.rejectVm root) :=
  ⟨Nat.le_refl _, fun _ => rfl, fun _ entry hget => .inl ⟨entry, hget, .refl entry⟩⟩

theorem setStreamKind {kind : StreamKind}
    (hagrees : ∀ recorded, t.streamKind id = some recorded → recorded = kind) :
    t.Evolves (t.setStreamKind id kind) := by
  refine modify fun entry hget => ⟨rfl, rfl, fun hr => hr, fun recorded hrecorded => ?_⟩
  refine congrArg some (hagrees recorded ?_).symm
  unfold ContextTable.streamKind
  rw [hget]
  exact hrecorded

theorem setPlugin (t : ContextTable) (root : ContextId) (plugin : PluginConfig) :
    t.Evolves (t.setPlugin root plugin) := by
  unfold ContextTable.setPlugin
  split
  · exact modify fun _ _ => ⟨rfl, rfl, id, fun _ => id⟩
  · exact refl t

theorem of_keeps (h : t.Keeps t') : t.Evolves t' := by
  refine ⟨Nat.le_of_eq (congrArg Id.val h.next).symm, fun hr => by rw [h.vmRejected]; exact hr,
    fun x entry' hget => .inl ?_⟩
  obtain ⟨entry, hget₀, hentry⟩ := h.entry_of hget
  refine ⟨entry, hget₀, ?_⟩
  rw [hentry]
  exact ⟨rfl, rfl, id, fun _ => id⟩

theorem create {parent : Option ContextId} (h : t.Creates parent id t') : t.Evolves t' := by
  refine ⟨?_, fun hr => by rw [h.vmRejected_eq]; exact hr, fun x entry' hget => ?_⟩
  · rw [h.next_eq, h.id_eq]
    exact Nat.le_succ _
  · rw [h.get_eq] at hget
    split at hget
    · rename_i hx
      rw [hx, h.id_eq]
      exact .inr (Nat.le_refl _)
    · exact .inl ⟨entry', hget, .refl entry'⟩

theorem remove (t : ContextTable) (id : ContextId) : t.Evolves (t.remove id) := by
  refine ⟨?_, ?_, fun x entry' hget => .inl ?_⟩
  · unfold ContextTable.remove
    split <;> exact Nat.le_refl _
  · unfold ContextTable.remove
    split <;> exact fun hr => hr
  · rw [get_remove] at hget
    split at hget
    · cases hget
    · exact ⟨entry', hget, .refl entry'⟩

end Evolves

end ContextTable

end ProxyWasmHost
