/-
  Compare and swap: what the number of a value says about the writes of others.

  The number of a key moves on by one with every write of that key, and comes
  back to itself after `casCycle` writes.
-/
import ProxyWasmHost.Store.Change
import Mathlib.Logic.Function.Iterate

namespace ProxyWasmHost

open Std

attribute [local instance] lexOrd

/-- How many numbers there are: every `u32` but zero. -/
def casCycle : ℕ := 2 ^ 32 - 1

theorem toNat_pos (n : NonZeroU32) : 0 < n.val.toNat :=
  Nat.pos_of_ne_zero fun h => n.property (UInt32.toNat_inj.1 h)

theorem toNat_nextCas (n : NonZeroU32) :
    (nextCas n).val.toNat = if n.val.toNat = casCycle then 1 else n.val.toNat + 1 := by
  have hlt := n.val.toNat_lt
  have hadd : (n.val + 1).toNat = (n.val.toNat + 1) % 2 ^ 32 := UInt32.toNat_add n.val 1
  unfold nextCas casCycle
  split
  · rename_i h
    have hne : (n.val + 1).toNat ≠ 0 := fun h0 => h (UInt32.toNat_inj.1 h0)
    show (n.val + 1).toNat = _
    split <;> omega
  · rename_i h
    have hzero : (n.val + 1).toNat = 0 := by rw [not_not.1 h]; rfl
    show (1 : UInt32).toNat = _
    rw [if_pos (by omega)]
    rfl

/-- After `k` writes, the number has moved on by `k`, around the cycle. -/
theorem toNat_iterate_nextCas (k : ℕ) (n : NonZeroU32) :
    (nextCas^[k] n).val.toNat = (n.val.toNat - 1 + k) % casCycle + 1 := by
  induction k with
  | zero =>
    have hlt := n.val.toNat_lt
    have hpos := toNat_pos n
    rw [Function.iterate_zero_apply, Nat.add_zero, Nat.mod_eq_of_lt (by unfold casCycle; omega)]
    omega
  | succ k ih =>
    rw [Function.iterate_succ_apply', toNat_nextCas, ih]
    unfold casCycle
    split <;> omega

/-- A number comes back after whole cycles only. -/
theorem iterate_nextCas_eq_iff (k : ℕ) (n : NonZeroU32) :
    nextCas^[k] n = n ↔ casCycle ∣ k := by
  have hlt := n.val.toNat_lt
  have hpos := toNat_pos n
  have hval : nextCas^[k] n = n ↔ (nextCas^[k] n).val.toNat = n.val.toNat :=
    ⟨fun h => by rw [h], fun h => Subtype.ext (UInt32.toNat_inj.1 h)⟩
  rw [hval, toNat_iterate_nextCas]
  unfold casCycle
  omega

/-- How many writes bring the number `n` to `c`. -/
def casGap (n : NonZeroU32) (c : UInt32) : ℕ := (c.toNat + casCycle - n.val.toNat) % casCycle

theorem casGap_lt (n : NonZeroU32) (c : UInt32) : casGap n c < casCycle :=
  Nat.mod_lt _ (by decide)

theorem casGap_self (n : NonZeroU32) : casGap n n.val = 0 := by
  unfold casGap
  rw [Nat.add_sub_cancel_left]
  exact Nat.mod_self _

/-- A write of a key moves its number one closer to every other number. -/
theorem casGap_nextCas (n c : NonZeroU32) :
    casGap (nextCas n) c.val = if n = c then casCycle - 1 else casGap n c.val - 1 := by
  have hn := n.val.toNat_lt
  have hn' := toNat_pos n
  have hc := c.val.toNat_lt
  have hc' := toNat_pos c
  have hval : n = c ↔ n.val.toNat = c.val.toNat :=
    ⟨fun h => by rw [h], fun h => Subtype.ext (UInt32.toNat_inj.1 h)⟩
  unfold casGap
  rw [toNat_nextCas]
  simp only [hval]
  unfold casCycle
  split <;> split <;> omega

theorem casGap_pos {n c : NonZeroU32} (h : n ≠ c) : 0 < casGap n c.val := by
  have hn := n.val.toNat_lt
  have hn' := toNat_pos n
  have hc := c.val.toNat_lt
  have hc' := toNat_pos c
  have hval : n.val.toNat ≠ c.val.toNat := fun h' => h (Subtype.ext (UInt32.toNat_inj.1 h'))
  unfold casGap casCycle
  omega

namespace InMemoryStore

variable {s s' : InMemoryStore} {op : SharedOp} {reply : Except Status SharedReply}
  {vmId key : Bytes}

/-- How many calls that satisfy `p` are accepted, when the calls run from `s`. -/
def accepted (p : SharedOp → Bool) : InMemoryStore → List SharedOp → ℕ
  | _, [] => 0
  | s, op :: ops =>
    (if p op && (s.answer op).1.isOk then 1 else 0) + accepted p (s.answer op).2 ops

/-- The call writes this key. -/
def setsKey (vmId key : Bytes) : SharedOp → Bool
  | .setSharedData vmId' key' _ _ => (vmId', key') = (vmId, key)
  | _ => false

/-- The call writes this key if its number is `cas`. -/
def setsKeyAt (vmId key : Bytes) (cas : UInt32) : SharedOp → Bool
  | .setSharedData vmId' key' _ given => (vmId', key') = (vmId, key) ∧ given = some cas
  | _ => false

/-- The number of a key that is held. -/
def number (s : InMemoryStore) (vmId key : Bytes) : Option NonZeroU32 :=
  (s.data[(vmId, key)]?).map (·.2)

theorem number_of_getSharedData {value : SharedValue}
    (h : s.getSharedData vmId key = .ok value) :
    s.number vmId key = some ⟨value.cas, value.cas_ne_zero⟩ := by
  unfold getSharedData at h
  unfold number
  split at h
  · rename_i hget
    cases h
    rw [hget]
    rfl
  · cases h

/-- **One call**: an accepted write moves the number on, every other call keeps it. -/
theorem number_answer {n : NonZeroU32} (h : s.number vmId key = some n) (op : SharedOp) :
    (s.answer op).2.number vmId key =
      some (if setsKey vmId key op && (s.answer op).1.isOk then nextCas n else n) := by
  have hchange := s.change_of_answer op
  generalize (s.answer op).1 = reply at hchange
  generalize (s.answer op).2 = s' at hchange
  cases hchange with
  | @written vmId' key' value cas hsize hkeys hcas =>
    show ((s.data.insert (vmId', key') _)[(vmId, key)]?).map (·.2) = _
    rw [ExtTreeMap.get?_insert]
    unfold number at h
    by_cases hsame : (vmId', key') = (vmId, key)
    · rw [if_pos hsame.symm, Option.map_some, hsame]
      simp only [setsKey, hsame, decide_true, Bool.true_and]
      unfold casAfter
      cases hheld : s.data[(vmId, key)]? with
      | none => rw [hheld] at h; cases h
      | some held =>
        rw [hheld] at h
        cases h
        rfl
    · rw [if_neg (Ne.symm hsame), h]
      simp only [setsKey, hsame, decide_false, Bool.false_and]
      rfl
  | refused op e =>
    rw [h]
    simp only [Except.isOk, Except.toBool, Bool.and_false, Bool.false_eq_true, if_false]
  | read | found | registered | resolved | pushed | popped | known | defined | observed | recorded
  | incremented | measured =>
    exact h.trans (by simp only [setsKey, Bool.false_and, Bool.false_eq_true, if_false])

/-- **A run**: the number of a key moves on with the accepted writes of the key. -/
theorem number_after {n : NonZeroU32} (h : s.number vmId key = some n) (ops : List SharedOp) :
    (s.after ops).number vmId key = some (nextCas^[accepted (setsKey vmId key) s ops] n) := by
  induction ops generalizing s n with
  | nil => exact h
  | cons op ops ih =>
    have hop := number_answer h op
    show ((s.answer op).2.after ops).number vmId key = _
    rw [ih hop, accepted]
    split
    · rw [Nat.add_comm, Function.iterate_succ_apply]
    · rw [Nat.zero_add]

/-- A conditional write of a key that is held succeeds at its number only. -/
theorem setSharedData_eq_ok_iff {n : NonZeroU32} {value : Bytes} {cas : UInt32}
    (h : s.number vmId key = some n) (hsize : value.length ≤ s.limits.valueBytes) :
    (s.setSharedData vmId key value (some cas)).1 = .ok () ↔ cas = n.val := by
  unfold number at h
  unfold setSharedData
  cases hheld : s.data[(vmId, key)]? with
  | none => rw [hheld] at h; cases h
  | some held =>
    rw [hheld] at h
    cases h
    rw [if_neg (Nat.not_lt.2 hsize), if_neg (by simp)]
    simp only [Option.any_some, ne_eq, decide_not, Bool.not_eq_true', decide_eq_false_iff_not]
    split
    · rename_i hne
      simp only [reduceCtorEq, false_iff]
      exact hne
    · rename_i heq
      simp only [true_iff]
      exact not_not.1 heq

/-- An accepted conditional write of a key found its number. -/
theorem eq_number_of_accepted {n : NonZeroU32} {cas : UInt32} (h : s.number vmId key = some n)
    (hop : setsKeyAt vmId key cas op) (hok : (s.answer op).1.isOk) : cas = n.val := by
  have hchange := s.change_of_answer op
  generalize (s.answer op).1 = reply at hchange hok
  generalize (s.answer op).2 = s' at hchange
  cases hchange with
  | @written vmId' key' value given hsize hkeys hcas =>
    simp only [setsKeyAt, Bool.decide_and, Bool.and_eq_true, decide_eq_true_eq] at hop
    obtain ⟨hsame, rfl⟩ := hop
    unfold number at h
    cases hheld : s.data[(vmId, key)]? with
    | none => rw [hheld] at h; cases h
    | some held =>
      rw [hheld] at h
      cases h
      rcases hcas held.1 held.2 (by rw [hsame, hheld]) with hnone | hsome
      · cases hnone
      · exact Option.some.inj hsome
  | refused => cases hok
  | read | found | registered | resolved | pushed | popped | known | defined | observed | recorded
  | incremented | measured => cases hop

theorem setsKey_of_setsKeyAt {cas : UInt32} (h : setsKeyAt vmId key cas op) :
    setsKey vmId key op := by
  cases op <;> simp_all [setsKey, setsKeyAt]

/-- Accepted writes at one number are a cycle of writes apart. -/
theorem accepted_at_le (c : NonZeroU32) {n : NonZeroU32} (h : s.number vmId key = some n)
    (ops : List SharedOp) :
    casCycle * accepted (setsKeyAt vmId key c.val) s ops + casGap n c.val <
      accepted (setsKey vmId key) s ops + casCycle := by
  induction ops generalizing s n with
  | nil =>
    have := casGap_lt n c.val
    simp only [accepted]
    omega
  | cons op ops ih =>
    have hnext := ih (number_answer h op)
    simp only [accepted]
    by_cases hset : setsKey vmId key op && (s.answer op).1.isOk
    · rw [if_pos hset] at hnext ⊢
      have hok := (Bool.and_eq_true_iff.1 hset).2
      rw [casGap_nextCas] at hnext
      by_cases hat : setsKeyAt vmId key c.val op && (s.answer op).1.isOk
      · -- the write finds the number, so a whole cycle comes before the next that does
        have hnumber : n = c :=
          (Subtype.ext (eq_number_of_accepted h (Bool.and_eq_true_iff.1 hat).1 hok)).symm
        subst hnumber
        rw [if_pos hat, casGap_self]
        rw [if_pos rfl] at hnext
        have : 0 < casCycle := by decide
        rw [Nat.mul_add]
        omega
      · rw [if_neg hat, Nat.zero_add]
        by_cases hnumber : n = c
        · subst hnumber
          rw [casGap_self]
          rw [if_pos rfl] at hnext
          omega
        · have := casGap_pos hnumber
          rw [if_neg hnumber] at hnext
          omega
    · have hat : ¬ (setsKeyAt vmId key c.val op && (s.answer op).1.isOk) = true := by
        intro hat
        rw [Bool.and_eq_true_iff] at hat
        exact hset (Bool.and_eq_true_iff.2 ⟨setsKey_of_setsKeyAt hat.1, hat.2⟩)
      rw [if_neg hset] at hnext ⊢
      rw [if_neg hat, Nat.zero_add, Nat.zero_add]
      exact hnext

/-- **Compare and swap**: what a number that was read is worth later, whoever calls
    the store in between. -/
theorem compare_and_swap (s : InMemoryStore) (vmId key : Bytes) :
    (∀ value cas e, (s.setSharedData vmId key value cas).1 = .error e →
      (s.setSharedData vmId key value cas).2 = s) ∧
    ∀ read, s.getSharedData vmId key = .ok read → read.cas ≠ 0 ∧ ∀ ops,
      (∀ value, value.length ≤ s.limits.valueBytes →
        (((s.after ops).setSharedData vmId key value (some read.cas)).1 = .ok () ↔
          casCycle ∣ accepted (setsKey vmId key) s ops)) ∧
      (∀ value, value.length ≤ s.limits.valueBytes →
        accepted (setsKey vmId key) s ops < casCycle →
        (((s.after ops).setSharedData vmId key value (some read.cas)).1 = .ok () ↔
          accepted (setsKey vmId key) s ops = 0)) ∧
      ∀ more, accepted (setsKey vmId key) (s.after ops) more ≤ casCycle →
        accepted (setsKeyAt vmId key read.cas) (s.after ops) more ≤ 1 := by
  refine ⟨?_, fun read hread => ⟨read.cas_ne_zero, fun ops => ?_⟩⟩
  · intro value cas e he
    have hchange := s.change_of_answer (.setSharedData vmId key value cas)
    simp only [answer, he] at hchange
    generalize (s.setSharedData vmId key value cas).2 = s' at hchange
    cases hchange
    rfl
  · have hnumber := number_of_getSharedData hread
    have hafter := number_after hnumber ops
    have hlimits : (s.after ops).limits = s.limits :=
      after_invariant (P := fun s' => s'.limits = s.limits)
        (fun _ _ _ _ h hchange => by cases hchange <;> exact h) rfl ops
    have hcycle : ∀ value : Bytes, value.length ≤ s.limits.valueBytes →
        (((s.after ops).setSharedData vmId key value (some read.cas)).1 = .ok () ↔
          casCycle ∣ accepted (setsKey vmId key) s ops) := by
      intro value hvalue
      rw [setSharedData_eq_ok_iff hafter (by rw [hlimits]; exact hvalue),
        ← iterate_nextCas_eq_iff _ ⟨read.cas, read.cas_ne_zero⟩]
      exact ⟨fun h => Subtype.ext h.symm, fun h => (congrArg Subtype.val h).symm⟩
    refine ⟨hcycle, fun value hvalue hfew => ?_, fun more hmore => ?_⟩
    · rw [hcycle value hvalue]
      exact ⟨fun h => Nat.eq_zero_of_dvd_of_lt h hfew, fun h => by rw [h]; exact Nat.dvd_zero _⟩
    · have hgap : casCycle * accepted (setsKeyAt vmId key read.cas) (s.after ops) more + _ < _ :=
        accepted_at_le ⟨read.cas, read.cas_ne_zero⟩ hafter more
      have hlt : casCycle * accepted (setsKeyAt vmId key read.cas) (s.after ops) more <
          casCycle * 2 := by omega
      exact Nat.le_of_lt_succ (Nat.lt_of_mul_lt_mul_left hlt)

end InMemoryStore

end ProxyWasmHost
