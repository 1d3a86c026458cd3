/-
  Multimaps: a key has a list of values. A list of pairs holds one, in the order of the
  pairs.
-/
import Mathlib.Data.List.Basic
import Mathlib.Logic.Function.Basic

/-- The values of each key, in order. -/
abbrev Multimap (κ ν : Type) := κ → List ν

namespace Multimap

variable {κ ν : Type} [DecidableEq κ]

/-- A change of a multimap. -/
inductive Write (κ ν : Type) where
  | set (key : κ) (value : ν)
  | add (key : κ) (value : ν)
  | remove (key : κ)
  | replaceAll (pairs : List (κ × ν))
  deriving DecidableEq

/-! ## The pairs of a key, and the others -/

/-- The pairs of `key`. -/
def pairsOf (key : κ) (pairs : List (κ × ν)) : List (κ × ν) :=
  pairs.filter fun pair => pair.1 = key

/-- The pairs of every other key. -/
def others (key : κ) (pairs : List (κ × ν)) : List (κ × ν) :=
  pairs.filter fun pair => pair.1 ≠ key

/-- The multimap that a list of pairs holds. -/
def ofPairs (pairs : List (κ × ν)) : Multimap κ ν := fun key => (pairsOf key pairs).map (·.2)

section Pairs

variable {key other : κ} {value : ν} {pairs pairs' : List (κ × ν)}

theorem pairsOf_append : pairsOf key (pairs ++ pairs') = pairsOf key pairs ++ pairsOf key pairs' :=
  List.filter_append ..

theorem others_append : others key (pairs ++ pairs') = others key pairs ++ others key pairs' :=
  List.filter_append ..

theorem mem_others {pair : κ × ν} : pair ∈ others key pairs ↔ pair ∈ pairs ∧ pair.1 ≠ key := by
  simp [others]

theorem pairsOf_others_self : pairsOf key (others key pairs) = [] := by
  rw [pairsOf, List.filter_eq_nil_iff]
  intro pair hpair
  simpa using (mem_others.1 hpair).2

theorem pairsOf_others (h : other ≠ key) : pairsOf other (others key pairs) = pairsOf other pairs := by
  rw [pairsOf, others, List.filter_filter]
  refine List.filter_congr fun pair _ => ?_
  by_cases hpair : pair.1 = other
  · simp [hpair, h]
  · simp [hpair]

theorem others_others : others key (others key pairs) = others key pairs := by
  rw [others, others, List.filter_filter]
  exact List.filter_congr fun pair _ => by simp

theorem others_of_forall_ne (h : ∀ pair ∈ pairs, pair.1 ≠ key) : others key pairs = pairs :=
  List.filter_eq_self.2 fun pair hpair => by simpa using h pair hpair

theorem pairsOf_of_forall_ne (h : ∀ pair ∈ pairs, pair.1 ≠ key) : pairsOf key pairs = [] :=
  List.filter_eq_nil_iff.2 fun pair hpair => by simpa using h pair hpair

theorem pairsOf_cons_self : pairsOf key ((key, value) :: pairs) = (key, value) :: pairsOf key pairs := by
  simp [pairsOf]

theorem others_cons_self : others key ((key, value) :: pairs) = others key pairs := by
  simp [others]

end Pairs

/-- A key has no pair, or a first one. -/
theorem eq_or_first (key : κ) (pairs : List (κ × ν)) :
    (∀ pair ∈ pairs, pair.1 ≠ key) ∨ ∃ before value after,
      pairs = before ++ (key, value) :: after ∧ ∀ pair ∈ before, pair.1 ≠ key := by
  induction pairs with
  | nil => exact .inl fun pair hpair => absurd hpair List.not_mem_nil
  | cons pair rest ih =>
    by_cases hpair : pair.1 = key
    · subst hpair
      exact .inr ⟨[], pair.2, rest, rfl, fun pair hmem => absurd hmem List.not_mem_nil⟩
    · rcases ih with hnone | ⟨before, value, after, rfl, hbefore⟩
      · exact .inl (List.forall_mem_cons.2 ⟨hpair, hnone⟩)
      · exact .inr ⟨pair :: before, value, after, rfl, List.forall_mem_cons.2 ⟨hpair, hbefore⟩⟩

/-! ## Writes -/

/-- What a write leaves. -/
def apply (values : Multimap κ ν) : Write κ ν → Multimap κ ν
  | .set key value => Function.update values key [value]
  | .add key value => Function.update values key (values key ++ [value])
  | .remove key => Function.update values key []
  | .replaceAll pairs => ofPairs pairs

/-- What a sequence of writes leaves. -/
def run (values : Multimap κ ν) (writes : List (Write κ ν)) : Multimap κ ν :=
  writes.foldl apply values

/-- Where `key` has `left` and every other key what it had, `key` was updated to `left`. -/
theorem ofPairs_eq_update {key : κ} {pairs pairs' : List (κ × ν)} {left : List ν}
    (hkey : (pairsOf key pairs').map (·.2) = left)
    (hothers : others key pairs' = others key pairs) :
    ofPairs pairs' = Function.update (ofPairs pairs) key left := by
  funext other
  by_cases heq : other = key
  · subst heq
    rw [Function.update_self]
    exact hkey
  · rw [Function.update_of_ne heq, ofPairs, ofPairs, ← pairsOf_others heq, hothers,
      pairsOf_others heq]

end Multimap
