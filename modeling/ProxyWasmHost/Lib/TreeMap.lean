/-
  Lookups in a tree map after an update, as a case split on the key, and the sizes of maps.
-/
import Std.Data.ExtTreeMap.Lemmas
import Mathlib.Algebra.Order.BigOperators.Group.List
import Mathlib.Algebra.Order.Group.Nat
import Mathlib.Algebra.Group.Action.Defs
import Mathlib.Algebra.GroupWithZero.Nat

namespace Std.ExtTreeMap

variable {κ β : Type} [Ord κ] [TransOrd κ]

/-- A key that is not there adds one entry. -/
theorem size_insert_of_none {m : ExtTreeMap κ β} {k : κ} {v : β} (h : m[k]? = none) :
    (m.insert k v).size = m.size + 1 := by
  rw [size_insert, if_neg]
  rw [contains_eq_isSome_getElem?, h]
  exact Bool.false_ne_true

/-- A key that is there is replaced. -/
theorem size_insert_of_some {m : ExtTreeMap κ β} {k : κ} {v w : β} (h : m[k]? = some w) :
    (m.insert k v).size = m.size := by
  rw [size_insert, if_pos]
  rw [contains_eq_isSome_getElem?, h]
  rfl

/-- A key that is there leaves fewer entries behind. -/
theorem size_erase_lt {m : ExtTreeMap κ β} {k : κ} (h : k ∈ m) : (m.erase k).size < m.size := by
  have hsize : m.size ≠ 0 := fun hzero => ne_empty_of_mem h (eq_empty_iff_size_eq_zero.2 hzero)
  rw [size_erase, if_pos (mem_iff_contains.1 h)]
  omega

variable [LawfulEqOrd κ]

/-- What the entries come to, when none is over a bound. -/
theorem sum_le {m : ExtTreeMap κ β} {f : β → ℕ} {bound : ℕ}
    (h : ∀ (k : κ) (v : β), m[k]? = some v → f v ≤ bound) :
    (m.toList.map fun entry => f entry.2).sum ≤ m.size * bound := by
  have hsum := List.sum_le_card_nsmul (m.toList.map fun entry => f entry.2) bound fun n hn => by
    obtain ⟨⟨k, v⟩, hmem, rfl⟩ := List.mem_map.1 hn
    exact h k v (mem_toList_iff_getElem?_eq_some.1 hmem)
  rwa [List.length_map, length_toList, smul_eq_mul] at hsum

/-- A map whose keys are all values of another is no larger. -/
theorem size_le_of_values {κ' : Type} [Ord κ'] [TransOrd κ'] [LawfulEqOrd κ'] {m : ExtTreeMap κ β}
    {names : ExtTreeMap κ' κ} (h : ∀ (k : κ) (v : β), m[k]? = some v → ∃ k' : κ', names[k']? = some k) :
    m.size ≤ names.size := by
  have hsub : m.keys ⊆ names.toList.map (·.2) := by
    intro k hk
    rw [mem_keys, mem_iff_isSome_getElem?] at hk
    obtain ⟨v, hv⟩ := Option.isSome_iff_exists.1 hk
    obtain ⟨k', hk'⟩ := h k v hv
    exact List.mem_map.2 ⟨(k', k), mem_toList_iff_getElem?_eq_some.2 hk', rfl⟩
  have hle := (List.subperm_of_subset nodup_keys hsub).length_le
  rwa [length_keys, List.length_map, length_toList] at hle

variable [DecidableEq κ]

theorem get?_insert (m : ExtTreeMap κ β) (k x : κ) (v : β) :
    (m.insert k v)[x]? = if x = k then some v else m[x]? := by
  rw [getElem?_insert]
  by_cases hx : x = k
  · rw [if_pos (by rw [hx]; exact compare_self), if_pos hx]
  · rw [if_neg (by rw [LawfulEqOrd.compare_eq_iff_eq]; exact Ne.symm hx), if_neg hx]

end Std.ExtTreeMap
