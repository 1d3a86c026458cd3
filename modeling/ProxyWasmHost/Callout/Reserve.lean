/-
  The search for an identifier that is not open.

  The counter goes round a ring of `2 ^ 32 - 1` identifiers, so what shrinks is not
  the counter but the number of candidates left before the nearest free one. The
  candidates of one round are distinct, and there are more of them than open entries.
-/
import ProxyWasmHost.Callout.Table
import Mathlib.Data.Finset.Card

namespace ProxyWasmHost.CalloutTable

open Std

variable {t : CalloutTable}

/-- The number of identifiers there are. -/
def ring : ℕ := 2 ^ 32 - 1

/-- The candidate that the search examines after `k` others. -/
def candidate (t : CalloutTable) (k : ℕ) : CalloutId := (advance^[k] t).next

theorem advance_iterate_succ (t : CalloutTable) (k : ℕ) :
    advance^[k + 1] t = advance^[k] t.advance := Function.iterate_succ_apply _ _ _

theorem candidate_succ (t : CalloutTable) (k : ℕ) : t.candidate (k + 1) = t.advance.candidate k :=
  congrArg next (t.advance_iterate_succ k)

theorem get_advance (t : CalloutTable) (id : CalloutId) : t.advance.get id = t.get id := rfl

theorem get_advance_iterate (t : CalloutTable) (k : ℕ) (id : CalloutId) :
    (advance^[k] t).get id = t.get id := by
  induction k generalizing t with
  | zero => rfl
  | succ k ih => rw [advance_iterate_succ, ih, get_advance]

/-- One candidate further on the ring, which has no zero. -/
theorem next_advance_val (t : CalloutTable) :
    t.advance.next.val = (t.next.val - 1 + 1) % ring + 1 := by
  have hpos := t.next.pos
  have hlt := t.next.lt
  unfold advance Id.checkedSucc ring
  by_cases hlast : t.next.val + 1 < 2 ^ 32
  · rw [dif_pos hlast]
    show t.next.val + 1 = _
    rw [Nat.mod_eq_of_lt (by omega)]
    omega
  · rw [dif_neg hlast]
    have hval : t.next.val - 1 + 1 = 2 ^ 32 - 1 := by omega
    rw [hval, Nat.mod_self]
    rfl

theorem candidate_val (t : CalloutTable) (k : ℕ) :
    (t.candidate k).val = (t.next.val - 1 + k) % ring + 1 := by
  induction k generalizing t with
  | zero =>
    have hpos := t.next.pos
    have hlt := t.next.lt
    rw [Nat.add_zero, Nat.mod_eq_of_lt (by unfold ring; omega)]
    show t.next.val = _
    omega
  | succ k ih =>
    rw [candidate_succ, ih, next_advance_val, Nat.add_sub_cancel, Nat.mod_add_mod]
    congr 2
    omega

/-- The candidates of one round are distinct. -/
theorem candidate_injOn (t : CalloutTable) : Set.InjOn t.candidate {k | k < ring} := by
  intro i hi j hj heq
  have hmod : (t.next.val - 1 + i) % ring = (t.next.val - 1 + j) % ring := by
    have := congrArg Id.val heq
    rw [candidate_val, candidate_val] at this
    omega
  have hcong : i ≡ j [MOD ring] := Nat.ModEq.add_left_cancel' _ hmod
  exact hcong.eq_of_lt_of_lt hi hj

/-- **Pigeonhole**: one candidate more than there are open entries is enough. -/
theorem exists_get_candidate (h : t.len < ring) : ∃ k ≤ t.len, t.get (t.candidate k) = none := by
  by_contra hall
  push Not at hall
  let opened := t.entries.keys.toFinset
  have hmaps : ∀ k ∈ Finset.range (t.len + 1), t.candidate k ∈ opened := by
    intro k hk
    have hsome := hall k (Nat.lt_succ_iff.1 (Finset.mem_range.1 hk))
    rw [List.mem_toFinset, ExtTreeMap.mem_keys, ExtTreeMap.mem_iff_isSome_getElem?]
    exact Option.isSome_iff_ne_none.2 hsome
  have hinj : Set.InjOn t.candidate (Finset.range (t.len + 1)) := by
    refine t.candidate_injOn.mono fun k hk => ?_
    have hk := Finset.mem_range.1 hk
    show k < ring
    omega
  have hcard := Finset.card_le_card_of_injOn t.candidate hmaps hinj
  have hkeys : opened.card ≤ t.len :=
    le_of_le_of_eq (List.toFinset_card_le _) ExtTreeMap.length_keys
  rw [Finset.card_range] at hcard
  omega

/-- The search ends at the first candidate that is not open. -/
theorem reserveWith_eq {k : ℕ} (hopen : ∀ i < k, t.get (t.candidate i) ≠ none)
    (hfree : t.get (t.candidate k) = none) (fuel : ℕ) :
    reserveWith fuel t =
      if k < fuel then some (t.candidate k, advance^[k + 1] t) else none := by
  induction k generalizing t fuel with
  | zero =>
    cases fuel with
    | zero => rfl
    | succ fuel =>
      have hnext : t.get t.next = none := hfree
      rw [if_pos (Nat.succ_pos _), reserveWith, hnext]
      rfl
  | succ k ih =>
    cases fuel with
    | zero => rfl
    | succ fuel =>
      obtain ⟨entry, hentry⟩ := Option.ne_none_iff_exists'.1 (hopen 0 (Nat.succ_pos k))
      have hnext : t.get t.next = some entry := hentry
      have hrest := ih (t := t.advance)
        (fun i hi => by rw [get_advance, ← candidate_succ]; exact hopen (i + 1) (by omega))
        (by rw [get_advance, ← candidate_succ]; exact hfree) fuel
      rw [reserveWith, hnext, hrest, candidate_succ, advance_iterate_succ t (k + 1)]
      simp only [Nat.add_lt_add_iff_right]

/-- **The search ends**: after `n` candidates, which are one more than the table holds at
    most, whatever the counter is. What it finds is not open, and no entry changes. -/
theorem reserve_ends (h : t.len < ring) : ∃ n id t', n ≤ t.len + 1 ∧
    (∀ fuel, reserveWith fuel t = if n ≤ fuel then some (id, t') else none) ∧
      t.reserve = some (id, t') ∧ id.val ≠ 0 ∧ t.get id = none ∧ ∀ x, t'.get x = t.get x := by
  have hfind : ∃ k, t.get (t.candidate k) = none :=
    (exists_get_candidate h).imp fun _ hk => hk.2
  obtain ⟨bound, hbound, hfree⟩ := exists_get_candidate h
  have hle : Nat.find hfind ≤ t.len := (Nat.find_min' hfind hfree).trans hbound
  have hsearch := reserveWith_eq (fun i hi => Nat.find_min hfind hi) (Nat.find_spec hfind)
  refine ⟨Nat.find hfind + 1, t.candidate (Nat.find hfind), advance^[Nat.find hfind + 1] t,
    by omega, hsearch, ?_, (t.candidate _).pos.ne', Nat.find_spec hfind, ?_⟩
  · unfold reserve
    rw [hsearch, if_pos (by omega)]
  · exact t.get_advance_iterate _

end ProxyWasmHost.CalloutTable
