/-
  What the value of a metric counts: the last record of it, and the deltas accepted
  since, as an integer that never leaves its range.
-/
import ProxyWasmHost.Store.Consistent

namespace ProxyWasmHost

open Std

attribute [local instance] lexOrd

/-- What a metric was told: the last value recorded for it, or zero, and the sum of the
    deltas since, which no range bounds. -/
structure Account where
  recorded : ℕ
  since : ℤ

namespace Account

/-- A metric that was told nothing. -/
def opened : Account := ⟨0, 0⟩

def total (a : Account) : ℤ := a.recorded + a.since

/-- What an accepted call tells a metric. -/
def post (a : Account) (metric : MetricId) : SharedOp → Account
  | .recordMetric m value => if m = metric then ⟨value.toNat, 0⟩ else a
  | .incrementMetric m delta => if m = metric then ⟨a.recorded, a.since + delta.toInt⟩ else a
  | _ => a

variable {a : Account} {metric m : MetricId}

@[simp] theorem total_opened : opened.total = 0 := rfl

@[simp] theorem total_post_record {value : UInt64} :
    (a.post metric (.recordMetric metric value)).total = value.toNat := by
  simp [post, total]

@[simp] theorem total_post_increment {delta : Int64} :
    (a.post metric (.incrementMetric metric delta)).total = a.total + delta.toInt := by
  simp [post, total, add_assoc]

theorem post_record_of_ne {value : UInt64} (h : m ≠ metric) :
    a.post metric (.recordMetric m value) = a := if_neg h

theorem post_increment_of_ne {delta : Int64} (h : m ≠ metric) :
    a.post metric (.incrementMetric m delta) = a := if_neg h

end Account

/-- The sum of a value and a delta, when it is in the range. -/
theorem toNat_of_checkedAddSigned {value value' : UInt64} {delta : Int64}
    (h : checkedAddSigned value delta = some value') :
    (value'.toNat : ℤ) = value.toNat + delta.toInt := by
  unfold checkedAddSigned at h
  dsimp only at h
  split at h
  · rename_i hrange
    obtain ⟨hpos, hlt⟩ := hrange
    cases h
    have hlt' : ((value.toNat : ℤ) + delta.toInt).toNat < 2 ^ 64 := by omega
    rw [UInt64.toNat_ofNat_of_lt' hlt']
    omega
  · cases h

theorem checkedAddSigned_eq_none {value : UInt64} {delta : Int64} :
    checkedAddSigned value delta = none ↔
      ¬ (0 ≤ (value.toNat : ℤ) + delta.toInt ∧ (value.toNat : ℤ) + delta.toInt < 2 ^ 64) := by
  unfold checkedAddSigned
  dsimp only
  split
  · exact iff_of_false (by rintro ⟨⟩) (not_not.2 ‹_›)
  · exact iff_of_true rfl ‹_›

namespace InMemoryStore

variable {s s' : InMemoryStore} {op : SharedOp} {reply : Except Status SharedReply}
  {metric : MetricId} {kind : MetricType} {entry : MetricEntry} {a : Account}

/-! ## The kind of a metric -/

/-- The kind a metric was defined with. -/
def kindOf (s : InMemoryStore) (metric : MetricId) : Option MetricType :=
  s.metrics.entries[metric]?.map (·.kind)

theorem kindOf_eq_some : s.kindOf metric = some kind ↔
    ∃ value, s.metrics.entries[metric]? = some ⟨kind, value⟩ := by
  unfold kindOf
  rw [Option.map_eq_some_iff]
  constructor
  · rintro ⟨⟨kind, value⟩, hentry, rfl⟩
    exact ⟨value, hentry⟩
  · rintro ⟨value, hentry⟩
    exact ⟨_, hentry, rfl⟩

/-- The entries of a store with one metric replaced. -/
theorem entries_setMetric (s : InMemoryStore) (m metric : MetricId) (entry : MetricEntry) :
    (s.setMetric m entry).metrics.entries[metric]? =
      if metric = m then some entry else s.metrics.entries[metric]? :=
  ExtTreeMap.get?_insert _ _ _ _

theorem entries_addMetric (s : InMemoryStore) (name : Key) (id metric : MetricId)
    (kind : MetricType) : (s.addMetric name id kind).metrics.entries[metric]? =
      if metric = id then some ⟨kind, 0⟩ else s.metrics.entries[metric]? :=
  ExtTreeMap.get?_insert _ _ _ _

/-- A new metric is none of those there are. -/
theorem Consistent.ne_of_defined (hs : s.Consistent) {id : MetricId}
    (hentry : s.metrics.entries[metric]? = some entry) (hid : id.val = s.metrics.next + 1) :
    metric ≠ id := by
  rintro rfl
  obtain ⟨name, hname⟩ := (hs.metrics.entries metric).1 (by rw [hentry]; rfl)
  have hle := hs.metrics.numbered.bounded name metric hname
  omega

/-- **No call changes the kind** of a metric. -/
theorem kindOf_change (hs : s.Consistent) (hkind : s.kindOf metric = some kind)
    (hchange : Change s op reply s') : s'.kindOf metric = some kind := by
  rw [kindOf_eq_some] at hkind ⊢
  obtain ⟨value, hentry⟩ := hkind
  cases hchange with
  | @defined _ _ _ id hname hroom hid =>
    exact ⟨value, by rw [entries_addMetric, if_neg (hs.ne_of_defined hentry hid), hentry]⟩
  | @recorded m value' held hheld | @incremented m _ held value' hheld =>
    by_cases hm : metric = m
    · subst hm
      rw [hentry] at hheld
      cases hheld
      exact ⟨value', by rw [entries_setMetric, if_pos rfl]⟩
    · exact ⟨value, by rw [entries_setMetric, if_neg hm, hentry]⟩
  | refused | read | written | found | registered | resolved | pushed | popped | known | observed
  | measured => exact ⟨value, hentry⟩

theorem kindOf_after (hs : s.Consistent) (hkind : s.kindOf metric = some kind)
    (ops : List SharedOp) : (s.after ops).kindOf metric = some kind := by
  have hboth := after_invariant (P := fun s => s.Consistent ∧ s.kindOf metric = some kind)
    (fun _ _ _ _ h hchange => ⟨h.1.change hchange, kindOf_change h.1 h.2 hchange⟩) ⟨hs, hkind⟩ ops
  exact hboth.2

/-- A definition that is accepted gives an identifier of its kind. -/
theorem kindOf_of_define {vmId name : Bytes}
    (h : (s.answer (.defineMetric vmId kind name)).1 = .ok (.metric metric)) :
    (s.answer (.defineMetric vmId kind name)).2.kindOf metric = some kind := by
  have hchange := s.change_of_answer (.defineMetric vmId kind name)
  rw [h] at hchange
  generalize (s.answer (.defineMetric vmId kind name)).2 = s' at hchange
  rw [kindOf_eq_some]
  cases hchange with
  | @known _ _ _ _ entry hname hentry hkind => exact ⟨entry.value, by rw [hentry, ← hkind]⟩
  | defined hname hroom hid => exact ⟨0, by rw [entries_addMetric, if_pos rfl]⟩

/-! ## The value of a metric -/

/-- What the accepted calls of a run tell a metric. -/
def account (metric : MetricId) : InMemoryStore → Account → List SharedOp → Account
  | _, a, [] => a
  | s, a, op :: ops =>
    account metric (s.answer op).2 (if (s.answer op).1.isOk then a.post metric op else a) ops

/-- **The books of a metric**: one that is not there was told nothing, and the value of one
    that keeps a value is the total of its account. -/
structure Balanced (held : Option MetricEntry) (a : Account) : Prop where
  absent : held = none → a = .opened
  exact : ∀ entry, held = some entry → entry.kind ≠ .histogram →
    (entry.value.toNat : ℤ) = a.total

theorem Balanced.some (h : entry.kind ≠ .histogram → (entry.value.toNat : ℤ) = a.total) :
    Balanced (.some entry) a where
  absent := by rintro ⟨⟩
  exact _ hentry := by cases hentry; exact h

/-- An identifier that is not given out yet has no entry. -/
theorem Consistent.entries_of_defined (hs : s.Consistent) {id : MetricId}
    (hid : id.val = s.metrics.next + 1) : s.metrics.entries[id]? = none := by
  cases hentry : s.metrics.entries[id]? with
  | none => rfl
  | some entry => exact absurd rfl (hs.ne_of_defined hentry hid)

/-- **One call** keeps the books. -/
theorem Balanced.change (hs : s.Consistent) (h : Balanced s.metrics.entries[metric]? a)
    (hchange : Change s op reply s') :
    Balanced s'.metrics.entries[metric]? (if reply.isOk then a.post metric op else a) := by
  cases hchange with
  | refused => exact h
  | read | written | found | registered | resolved | pushed | popped | known | measured => exact h
  | @defined _ kind _ id hname hroom hid =>
    show Balanced (s.addMetric _ id kind).metrics.entries[metric]? a
    rw [entries_addMetric]
    split
    · rename_i hmetric
      rw [h.absent (hmetric ▸ hs.entries_of_defined hid)]
      exact .some fun _ => rfl
    · exact h
  | @observed m value held hheld hkind =>
    show Balanced s.metrics.entries[metric]? (a.post metric (.recordMetric m value))
    by_cases hm : m = metric
    · subst hm
      rw [hheld]
      exact .some fun hnot => absurd hkind hnot
    · rw [Account.post_record_of_ne hm]
      exact h
  | @recorded m value held hheld hkind =>
    show Balanced _ (a.post metric (.recordMetric m value))
    rw [entries_setMetric]
    split
    · rename_i hm
      subst hm
      exact .some fun _ => Account.total_post_record.symm
    · rename_i hm
      rw [Account.post_record_of_ne (Ne.symm hm)]
      exact h
  | @incremented m delta held value hheld hvalue htakes =>
    show Balanced _ (a.post metric (.incrementMetric m delta))
    rw [entries_setMetric]
    split
    · rename_i hm
      subst hm
      refine .some fun hkind => ?_
      rw [Account.total_post_increment, ← h.exact held hheld hkind]
      exact toNat_of_checkedAddSigned hvalue
    · rename_i hm
      rw [Account.post_increment_of_ne (Ne.symm hm)]
      exact h

/-- **A run** keeps the books. -/
theorem Balanced.after (hs : s.Consistent) (h : Balanced s.metrics.entries[metric]? a)
    (ops : List SharedOp) :
    Balanced (s.after ops).metrics.entries[metric]? (account metric s a ops) := by
  induction ops generalizing s a with
  | nil => exact h
  | cons op ops ih =>
    have hchange := s.change_of_answer op
    exact ih (hs.change hchange) (h.change hs hchange)

theorem balanced_new (limits : InMemoryStoreLimits) (observer : Bool) :
    Balanced (new limits observer).metrics.entries[metric]? .opened where
  absent _ := rfl
  exact entry hentry := by
    simp only [new, ExtTreeMap.getElem?_empty, reduceCtorEq] at hentry

/-! ## What a call answers -/

theorem getMetric_eq_ok {value : UInt64} : s.getMetric metric = .ok value ↔
    ∃ kind, kind ≠ .histogram ∧ s.metrics.entries[metric]? = some ⟨kind, value⟩ := by
  unfold getMetric
  constructor
  · intro h
    split at h
    · cases h
    · rename_i entry hentry
      obtain ⟨kind, held⟩ := entry
      cases kind <;> cases h
      · exact ⟨.counter, by rintro ⟨⟩, hentry⟩
      · exact ⟨.gauge, by rintro ⟨⟩, hentry⟩
  · rintro ⟨kind, hkind, hentry⟩
    rw [hentry]
    cases kind
    · rfl
    · rfl
    · exact absurd rfl hkind

theorem takesDelta_iff {delta : Int64} : takesDelta kind delta = true ↔
    kind ≠ .histogram ∧ (kind = .counter → 0 ≤ delta.toInt) := by
  cases kind <;> simp [takesDelta]

/-- **An increment is accepted** exactly when it leaves the total in the range, and is none of
    a histogram, nor a negative one of a counter. -/
theorem incrementMetric_eq_ok (h : Balanced s.metrics.entries[metric]? a)
    (hkind : s.kindOf metric = some kind) (delta : Int64) :
    (s.incrementMetric metric delta).1 = .ok () ↔ (kind ≠ .histogram ∧
      (kind = .counter → 0 ≤ delta.toInt)) ∧ 0 ≤ a.total + delta.toInt ∧
        a.total + delta.toInt < 2 ^ 64 := by
  obtain ⟨value, hentry⟩ := kindOf_eq_some.1 hkind
  unfold incrementMetric
  rw [hentry]
  dsimp only
  rw [← takesDelta_iff]
  split
  · rename_i htakes
    rw [← h.exact _ hentry (takesDelta_iff.1 htakes).1]
    have hnone := @checkedAddSigned_eq_none value delta
    split
    · rename_i hsum
      exact iff_of_false (by rintro ⟨⟩) fun hrange => hnone.1 hsum hrange.2
    · rename_i sum hsum
      refine iff_of_true rfl ⟨htakes, ?_⟩
      by_contra hrange
      rw [hnone.2 hrange] at hsum
      cases hsum
  · rename_i htakes
    exact iff_of_false (by rintro ⟨⟩) fun hrange => htakes hrange.1

/-- A refused increment changes nothing. -/
theorem incrementMetric_eq_error {delta : Int64} {e : Status}
    (h : (s.incrementMetric metric delta).1 = .error e) : (s.incrementMetric metric delta).2 = s := by
  have hchange := s.change_of_answer (.incrementMetric metric delta)
  simp only [answer, h] at hchange
  generalize (s.incrementMetric metric delta).2 = s' at hchange
  cases hchange
  rfl

/-- **A counter decreases by a record only.** -/
theorem record_of_getMetric_lt {value value' : UInt64} (hs : s.Consistent)
    (hkind : s.kindOf metric = some .counter) (hbefore : s.getMetric metric = .ok value)
    (hafter : (s.answer op).2.getMetric metric = .ok value') (hlt : value'.toNat < value.toNat) :
    ∃ recorded, op = .recordMetric metric recorded := by
  obtain ⟨kind, -, hentry⟩ := getMetric_eq_ok.1 hbefore
  obtain ⟨kind', -, hentry'⟩ := getMetric_eq_ok.1 hafter
  have hcounter : kind = .counter := by
    obtain ⟨_, hheld⟩ := kindOf_eq_some.1 hkind
    rw [hentry] at hheld
    cases hheld
    rfl
  subst hcounter
  have hsame : s.metrics.entries[metric]? = some ⟨kind', value'⟩ → False := by
    intro hheld
    rw [hentry] at hheld
    cases hheld
    exact Nat.lt_irrefl _ hlt
  have hchange := s.change_of_answer op
  generalize (s.answer op).1 = reply at hchange
  generalize (s.answer op).2 = s' at hchange hentry'
  cases hchange with
  | refused | read | written | found | registered | resolved | pushed | popped | known | observed
  | measured => exact (hsame hentry').elim
  | @defined _ _ _ id hname hroom hid =>
    rw [entries_addMetric, if_neg (hs.ne_of_defined hentry hid)] at hentry'
    exact (hsame hentry').elim
  | @recorded m value held hheld hkind =>
    rw [entries_setMetric] at hentry'
    split at hentry'
    · rename_i hm
      exact ⟨value, by rw [hm]⟩
    · exact (hsame hentry').elim
  | @incremented m delta held sum hheld hvalue htakes =>
    rw [entries_setMetric] at hentry'
    split at hentry'
    · rename_i hm
      subst hm
      rw [hentry] at hheld
      cases hheld
      cases hentry'
      have hsum : (value'.toNat : ℤ) = value.toNat + delta.toInt :=
        toNat_of_checkedAddSigned hvalue
      have hdelta := (takesDelta_iff.1 htakes).2 rfl
      omega
    · exact (hsame hentry').elim

/-! ## Every interleaving of calls -/

/-- A store that held nothing, after calls of its guests in this order. -/
def reached (limits : InMemoryStoreLimits) (observer : Bool) (ops : List SharedOp) :
    InMemoryStore :=
  (new limits observer).after ops

/-- What these calls told a metric. -/
def accountOf (limits : InMemoryStoreLimits) (observer : Bool) (ops : List SharedOp)
    (metric : MetricId) : Account :=
  account metric (new limits observer) .opened ops

variable {limits : InMemoryStoreLimits} {observer : Bool} {ops : List SharedOp}

theorem consistent_reached : (reached limits observer ops).Consistent :=
  consistent_after (consistent_new limits observer) ops

theorem balanced_reached :
    Balanced (reached limits observer ops).metrics.entries[metric]?
      (accountOf limits observer ops metric) :=
  (balanced_new limits observer).after (consistent_new limits observer) ops

/-- The value of a counter or a gauge is the total of what it was told. -/
theorem getMetric_reached (hkind : (reached limits observer ops).kindOf metric = some kind)
    (hvalued : kind ≠ .histogram) :
    ∃ value, (reached limits observer ops).getMetric metric = .ok value ∧
      (value.toNat : ℤ) = (accountOf limits observer ops metric).total ∧ value.toNat < 2 ^ 64 := by
  obtain ⟨value, hentry⟩ := kindOf_eq_some.1 hkind
  refine ⟨value, getMetric_eq_ok.2 ⟨kind, hvalued, hentry⟩, ?_, value.toNat_lt⟩
  exact balanced_reached.exact _ hentry hvalued

theorem incrementMetric_reached (hkind : (reached limits observer ops).kindOf metric = some kind)
    (delta : Int64) :
    ((reached limits observer ops).incrementMetric metric delta).1 ≠ .ok () ↔
      ¬ (0 ≤ (accountOf limits observer ops metric).total + delta.toInt ∧
          (accountOf limits observer ops metric).total + delta.toInt < 2 ^ 64) ∨
        kind = .counter ∧ delta.toInt < 0 ∨ kind = .histogram := by
  rw [ne_eq, incrementMetric_eq_ok balanced_reached hkind]
  constructor
  · intro hrefused
    by_contra hnone
    rw [not_or, not_or, not_not] at hnone
    obtain ⟨hfits, hcounts, hvalued⟩ := hnone
    refine hrefused ⟨⟨hvalued, fun hcounter => ?_⟩, hfits⟩
    exact Int.not_lt.1 fun hneg => hcounts ⟨hcounter, hneg⟩
  · rintro (hrange | ⟨hcounter, hneg⟩ | hhistogram) ⟨⟨hvalued, hcounts⟩, hfits⟩
    · exact hrange hfits
    · have := hcounts hcounter
      omega
    · exact hvalued hhistogram

theorem getMetric_histogram (hkind : s.kindOf metric = some .histogram) (value : UInt64) :
    s.getMetric metric ≠ .ok value := by
  intro hget
  obtain ⟨kind, hvalued, hentry⟩ := getMetric_eq_ok.1 hget
  obtain ⟨_, hheld⟩ := kindOf_eq_some.1 hkind
  rw [hentry] at hheld
  cases hheld
  exact hvalued rfl

/-- **The metrics of a store**, in every interleaving of calls: an accepted definition fixes the
    kind of its metric; the value of a counter or a gauge is the last record of it plus the
    deltas accepted since, and in the range; which increments are refused, and that these change
    nothing; what a counter decreases by; and that a histogram gives no value. -/
theorem metrics_exact (limits : InMemoryStoreLimits) (observer : Bool) (ops : List SharedOp)
    (metric : MetricId) :
    (∀ vmId kind name more,
      ((reached limits observer ops).answer (.defineMetric vmId kind name)).1 =
          .ok (.metric metric) →
        (reached limits observer (ops ++ .defineMetric vmId kind name :: more)).kindOf metric =
          some kind) ∧
    (∀ (delta : Int64) e, ((reached limits observer ops).incrementMetric metric delta).1 =
        .error e →
      ((reached limits observer ops).incrementMetric metric delta).2 =
        reached limits observer ops) ∧
    ∀ kind, (reached limits observer ops).kindOf metric = some kind →
      (kind ≠ .histogram → ∃ value,
        (reached limits observer ops).getMetric metric = .ok value ∧
          (value.toNat : ℤ) = (accountOf limits observer ops metric).total ∧
            value.toNat < 2 ^ 64) ∧
      (∀ delta : Int64, ((reached limits observer ops).incrementMetric metric delta).1 ≠ .ok () ↔
        ¬ (0 ≤ (accountOf limits observer ops metric).total + delta.toInt ∧
            (accountOf limits observer ops metric).total + delta.toInt < 2 ^ 64) ∨
          kind = .counter ∧ delta.toInt < 0 ∨ kind = .histogram) ∧
      (kind = .counter → ∀ op value value',
        (reached limits observer ops).getMetric metric = .ok value →
          ((reached limits observer ops).answer op).2.getMetric metric = .ok value' →
            value'.toNat < value.toNat → ∃ recorded, op = .recordMetric metric recorded) ∧
      (kind = .histogram → ∀ value,
        (reached limits observer ops).getMetric metric ≠ .ok value) := by
  refine ⟨fun vmId kind name more h => ?_, fun _ _ => incrementMetric_eq_error, fun kind hkind =>
    ⟨getMetric_reached hkind, incrementMetric_reached hkind, ?_, ?_⟩⟩
  · have hdefined := kindOf_of_define h
    have hs := consistent_reached.change
      ((reached limits observer ops).change_of_answer (.defineMetric vmId kind name))
    have hlast := kindOf_after hs hdefined more
    unfold reached after at hlast ⊢
    rw [List.foldl_append]
    exact hlast
  · rintro rfl op value value' hbefore hafter hlt
    exact record_of_getMetric_lt consistent_reached hkind hbefore hafter hlt
  · rintro rfl value
    exact getMetric_histogram hkind value

/-- A delta that would take a gauge below zero is not in its total. -/
example : (accountOf .default false
    [.defineMetric [] .gauge [], .recordMetric .min 5, .incrementMetric .min (-3),
      .incrementMetric .min (-3)] .min).total = 2 := by
  decide

end InMemoryStore

end ProxyWasmHost
