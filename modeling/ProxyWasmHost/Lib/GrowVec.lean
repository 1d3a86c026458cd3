/-
  Growable vectors: what they hold, and how many elements they have room for.

  A vector without room for what is appended takes at least twice the room it
  had. There is never room for more than `limit` elements: an operation that
  would need more answers no vector.
-/
import Mathlib

/-- A vector with room for `capacity` elements. -/
structure GrowVec (α : Type) where
  items : List α
  capacity : ℕ
  room : items.length ≤ capacity

namespace GrowVec

variable {α : Type} {limit n : ℕ} {v w : GrowVec α} {x : α} {xs : List α} {xss : List (List α)}

def empty : GrowVec α := ⟨[], 0, Nat.le_refl 0⟩

/-- A vector of no elements with room for `capacity`. -/
def withCapacity (limit capacity : ℕ) : Option (GrowVec α) :=
  if capacity ≤ limit then some ⟨[], capacity, Nat.zero_le capacity⟩ else none

/-- Appends `xs`. -/
def extend (limit : ℕ) (v : GrowVec α) (xs : List α) : Option (GrowVec α) :=
  if h : v.items.length + xs.length ≤ v.capacity then
    some ⟨v.items ++ xs, v.capacity, by rwa [List.length_append]⟩
  else
    let grown := max (2 * v.capacity) (v.items.length + xs.length)
    if grown ≤ limit then
      some ⟨v.items ++ xs, grown, by rw [List.length_append]; exact Nat.le_max_right _ _⟩
    else none

def push (limit : ℕ) (v : GrowVec α) (x : α) : Option (GrowVec α) := v.extend limit [x]

/-- Appends each of `xss` in turn. -/
def extendAll (limit : ℕ) (v : GrowVec α) (xss : List (List α)) : Option (GrowVec α) :=
  xss.foldlM (extend limit) v

/-! ## What appending does -/

theorem items_of_extend (h : v.extend limit xs = some w) : w.items = v.items ++ xs := by
  unfold extend at h
  split at h
  · cases h; rfl
  · dsimp only at h
    split at h
    · cases h; rfl
    · cases h

/-- Where there is room, nothing grows. -/
theorem extend_of_room (h : v.items.length + xs.length ≤ v.capacity) :
    v.extend limit xs = some ⟨v.items ++ xs, v.capacity, by rwa [List.length_append]⟩ := by
  rw [extend, dif_pos h]

theorem extendAll_cons :
    v.extendAll limit (xs :: xss) = (v.extend limit xs).bind (·.extendAll limit xss) := by
  rw [extendAll, List.foldlM_cons]
  rfl

theorem extendAll_append {yss : List (List α)} :
    v.extendAll limit (xss ++ yss) =
      (v.extendAll limit xss).bind (·.extendAll limit yss) := by
  rw [extendAll, List.foldlM_append]
  rfl

theorem items_of_extendAll (h : v.extendAll limit xss = some w) :
    w.items = v.items ++ xss.flatten := by
  induction xss generalizing v with
  | nil => cases h; simp
  | cons xs xss ih =>
    rw [extendAll_cons] at h
    obtain ⟨u, hu, hw⟩ := Option.bind_eq_some_iff.1 h
    rw [ih hw, items_of_extend hu, List.flatten_cons, List.append_assoc]

theorem extendAll_of_room (limit : ℕ) (h : v.items.length + xss.flatten.length ≤ v.capacity) :
    ∃ w, v.extendAll limit xss = some w ∧ w.items = v.items ++ xss.flatten := by
  induction xss generalizing v with
  | nil => exact ⟨v, rfl, by simp⟩
  | cons xs xss ih =>
    rw [List.flatten_cons, List.length_append] at h
    have hxs : v.items.length + xs.length ≤ v.capacity := by omega
    obtain ⟨w, hw, hitems⟩ := ih
      (v := ⟨v.items ++ xs, v.capacity, by rwa [List.length_append]⟩)
      (by simp only [List.length_append]; omega)
    refine ⟨w, by rw [extendAll_cons, extend_of_room hxs]; exact hw, ?_⟩
    rw [hitems, List.flatten_cons, List.append_assoc]

/-! ## A vector that is filled one element at a time -/

/-- The room of a vector that only pushes have grown. -/
def Pushed (limit : ℕ) (v : GrowVec α) : Prop :=
  v.capacity ≤ limit ∧ (v.capacity = 0 ∨ ∃ k, v.capacity = 2 ^ k)

theorem pushed_empty : Pushed limit (empty : GrowVec α) := ⟨Nat.zero_le limit, .inl rfl⟩

/-- Below the greatest power of two within the limit there is always room for one more. -/
theorem push_of_lt (hlimit : 2 ^ n ≤ limit) (hv : Pushed limit v) (h : v.items.length < 2 ^ n) :
    ∃ w, v.push limit x = some w ∧ w.items = v.items ++ [x] ∧ Pushed limit w := by
  by_cases hroom : v.items.length + [x].length ≤ v.capacity
  · exact ⟨_, extend_of_room hroom, rfl, hv⟩
  have hfull : v.items.length = v.capacity := by
    have := v.room
    simp only [List.length_singleton] at hroom
    omega
  obtain ⟨m, hgrown, hm⟩ : ∃ m, max (2 * v.capacity) (v.items.length + [x].length) = 2 ^ m ∧
      2 ^ m ≤ limit := by
    rcases hv.2 with hzero | ⟨k, hk⟩
    · exact ⟨0, by simp [hfull, hzero], Nat.le_trans Nat.one_le_two_pow hlimit⟩
    · have hpos : 0 < 2 ^ k := Nat.two_pow_pos k
      have hkn : k + 1 ≤ n := (Nat.pow_lt_pow_iff_right (by decide)).1 (by omega : 2 ^ k < 2 ^ n)
      refine ⟨k + 1, ?_, Nat.le_trans (Nat.pow_le_pow_right Nat.two_pos hkn) hlimit⟩
      rw [hfull, hk, List.length_singleton, Nat.pow_succ]
      omega
  refine ⟨⟨v.items ++ [x], 2 ^ m, ?_⟩, ?_, rfl, hm, .inr ⟨m, rfl⟩⟩
  · rw [List.length_append, ← hgrown]; exact Nat.le_max_right _ _
  · simp only [push, extend, dif_neg hroom, hgrown, if_pos hm]

/-- At that power of two there is none. -/
theorem push_full (hlimit : limit < 2 ^ (n + 1)) (hv : Pushed limit v)
    (h : v.items.length = 2 ^ n) : v.push limit x = none := by
  have hpos : 0 < 2 ^ n := Nat.two_pow_pos n
  have hroom := v.room
  obtain ⟨k, hk⟩ := hv.2.resolve_left (by omega)
  have hkn : k < n + 1 := (Nat.pow_lt_pow_iff_right (by decide)).1
    (by have := hv.1; omega : 2 ^ k < 2 ^ (n + 1))
  have hcap : v.capacity ≤ 2 ^ n := by
    rw [hk]; exact Nat.pow_le_pow_right Nat.two_pos (Nat.le_of_lt_succ hkn)
  rw [Nat.pow_succ] at hlimit
  rw [push, extend, dif_neg (by simp only [List.length_singleton]; omega)]
  exact if_neg (by simp only [List.length_singleton]; omega)

end GrowVec
