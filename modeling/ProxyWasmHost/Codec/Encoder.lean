/-
  When the encoder answers bytes, when an error, and when it panics.

  The encoding of a map is a count, the table of lengths and the body. The
  encoder answers it for a source whose first walk measures and whose second
  walk writes as many bytes as measured (`encodeVisited_ok_iff`).
-/
import ProxyWasmHost.Codec.Pairs

namespace ProxyWasmHost.Codec

open LittleEndian

/-! ## The encoded form -/

/-- The key and value lengths of a pair, as the length table holds them. -/
def lengths (p : Pair) : ℕ × ℕ := (p.1.length, p.2.length)

/-- The keys and values of `pairs`, each with its terminator. -/
def body (pairs : List Pair) : Bytes :=
  pairs.flatMap fun p => p.1 ++ [terminator] ++ p.2 ++ [terminator]

/-- Every length and the count of `pairs` fit 32 bits. -/
def Fits (pairs : List Pair) : Prop :=
  pairs.length ≤ u32Max ∧ ∀ p ∈ pairs, p.1.length ≤ u32Max ∧ p.2.length ≤ u32Max

/-- The count and the length table of `pairs`. -/
def header (pairs : List Pair) : Bytes :=
  toBytes countSize pairs.length ++ lengthTable (pairs.map lengths)

@[simp] theorem body_nil : body [] = [] := rfl

theorem body_cons (p : Pair) (pairs : List Pair) :
    body (p :: pairs) = p.1 ++ [terminator] ++ p.2 ++ [terminator] ++ body pairs := rfl

@[simp] theorem length_body_cons (p : Pair) (pairs : List Pair) :
    (body (p :: pairs)).length = p.1.length + p.2.length + 2 + (body pairs).length := by
  simp only [body_cons, List.length_append, List.length_cons, List.length_nil]; omega

@[simp] theorem lengthTable_nil : lengthTable [] = [] := rfl

theorem lengthTable_cons (l : ℕ × ℕ) (ls : List (ℕ × ℕ)) :
    lengthTable (l :: ls) = toBytes lengthSize l.1 ++ toBytes lengthSize l.2 ++ lengthTable ls := rfl

@[simp] theorem length_lengthTable (ls : List (ℕ × ℕ)) :
    (lengthTable ls).length = 2 * lengthSize * ls.length := by
  induction ls with
  | nil => rfl
  | cons l ls ih =>
    simp only [lengthTable_cons, List.length_append, length_toBytes, ih, List.length_cons]; ring

@[simp] theorem length_header (pairs : List Pair) :
    (header pairs).length = countSize + 2 * lengthSize * pairs.length := by
  simp [header]

/-! ## The first walk -/

/-- Whether the lengths of a pair fit 32 bits. -/
def PairFits (p : Pair) : Prop := p.1.length ≤ u32Max ∧ p.2.length ≤ u32Max

/-- How many lengths a vector takes that they are pushed to one by one. -/
def mostLengths : ℕ := 2 ^ 59

theorem mostLengths_le : 2 ^ 59 ≤ maxLengths := by decide

theorem maxLengths_lt : maxLengths < 2 ^ (59 + 1) := by decide

variable {s : GrowVec (ℕ × ℕ)} {p : Pair} {pairs first : List Pair}

theorem measureVisitor_fits (h : PairFits p) :
    measureVisitor (s, none) p.1 p.2 =
      (s.push maxLengths (lengths p)).map fun ls => ((ls, none), true) := by
  simp [measureVisitor, lengthOf, h.1, h.2, lengths]

theorem measureVisitor_not_fits (h : ¬ PairFits p) :
    ∃ e, measureVisitor (s, none) p.1 p.2 = some ((s, some e), false) := by
  by_cases hk : p.1.length ≤ u32Max
  · have hv : ¬ p.2.length ≤ u32Max := fun hv => h ⟨hk, hv⟩
    exact ⟨_, by simp [measureVisitor, lengthOf, hk, hv]; rfl⟩
  · exact ⟨_, by simp [measureVisitor, lengthOf, hk]; rfl⟩

/-- A pair that fits, while there is room, goes to the end of the lengths. -/
theorem walk_measure_cons (pairs : List Pair) (h : PairFits p) (hs : s.Pushed maxLengths)
    (hlt : s.items.length < mostLengths) :
    ∃ w, walk measureVisitor (p :: pairs) (s, none) = walk measureVisitor pairs (w, none) ∧
      w.items = s.items ++ [lengths p] ∧ w.Pushed maxLengths := by
  obtain ⟨w, hpush, hitems, hw⟩ := GrowVec.push_of_lt (x := lengths p) mostLengths_le hs hlt
  exact ⟨w, by simp only [walk, measureVisitor_fits h, hpush, Option.map_some], hitems, hw⟩

theorem walk_measure_fits (h : ∀ p ∈ pairs, PairFits p) (hs : s.Pushed maxLengths)
    (hlen : s.items.length + pairs.length ≤ mostLengths) :
    ∃ w, walk measureVisitor pairs (s, none) = some (w, none) ∧
      w.items = s.items ++ pairs.map lengths := by
  induction pairs generalizing s with
  | nil => exact ⟨s, rfl, by simp⟩
  | cons p pairs ih =>
    rw [List.length_cons] at hlen
    obtain ⟨w, hwalk, hitems, hw⟩ := walk_measure_cons pairs (h p (by simp)) hs (by omega)
    obtain ⟨w', hwalk', hitems'⟩ := ih (fun q hq => h q (by simp [hq])) hw
      (by rw [hitems, List.length_append, List.length_singleton]; omega)
    exact ⟨w', hwalk.trans hwalk', by rw [hitems', hitems]; simp⟩

/-- The first pair that does not fit stops the walk with a failure. -/
theorem walk_measure_not_fits
    (h : ∃ p ∈ pairs.take (mostLengths + 1 - s.items.length), ¬ PairFits p)
    (hs : s.Pushed maxLengths) :
    ∃ s' e, walk measureVisitor pairs (s, none) = some (s', some e) := by
  induction pairs generalizing s with
  | nil => simp at h
  | cons p pairs ih =>
    by_cases hp : PairFits p
    · obtain ⟨m, hm⟩ : ∃ m, mostLengths + 1 - s.items.length = m + 1 := by
        obtain ⟨q, hq, -⟩ := h
        rcases Nat.exists_eq_succ_of_ne_zero (n := mostLengths + 1 - s.items.length)
          (by rintro hzero; rw [hzero] at hq; cases hq) with ⟨m, hm⟩
        exact ⟨m, hm⟩
      rw [hm, List.take_succ_cons] at h
      obtain ⟨q, hq, hnot⟩ := h
      have hq : q ∈ pairs.take m := by
        rcases List.mem_cons.1 hq with rfl | hq
        · exact absurd hp hnot
        · exact hq
      have hpos : m ≠ 0 := by rintro rfl; cases hq
      obtain ⟨w, hwalk, hitems, hw⟩ := walk_measure_cons pairs hp hs (by omega)
      have hrest : mostLengths + 1 - w.items.length = m := by
        rw [hitems, List.length_append, List.length_singleton]; omega
      rw [hwalk]
      exact ih ⟨q, by rwa [hrest], hnot⟩ hw
    · obtain ⟨e, he⟩ := measureVisitor_not_fits (s := s) hp
      exact ⟨s, e, by simp only [walk, he]⟩

/-- More pairs than the vector of lengths takes panic. -/
theorem walk_measure_full (h : ∀ p ∈ pairs.take (mostLengths + 1 - s.items.length), PairFits p)
    (hs : s.Pushed maxLengths) (hle : s.items.length ≤ mostLengths)
    (hlen : mostLengths < s.items.length + pairs.length) :
    walk measureVisitor pairs (s, none) = none := by
  induction pairs generalizing s with
  | nil => rw [List.length_nil] at hlen; omega
  | cons p pairs ih =>
    obtain ⟨m, hm⟩ : ∃ m, mostLengths + 1 - s.items.length = m + 1 :=
      ⟨mostLengths - s.items.length, by omega⟩
    rw [hm, List.take_succ_cons] at h
    have hp := h p (by simp)
    rcases Nat.lt_or_eq_of_le hle with hlt | hfull
    · obtain ⟨w, hwalk, hitems, hw⟩ := walk_measure_cons pairs hp hs hlt
      have hlength : w.items.length = s.items.length + 1 := by
        rw [hitems, List.length_append, List.length_singleton]
      rw [List.length_cons] at hlen
      rw [hwalk]
      refine ih (fun q hq => h q (List.mem_cons_of_mem p ?_)) hw (by omega) (by omega)
      rwa [hlength, show mostLengths + 1 - (s.items.length + 1) = m by omega] at hq
    · simp only [walk, measureVisitor_fits hp, GrowVec.push_full maxLengths_lt hs hfull,
        Option.map_none]

theorem measure_fits (h : ∀ p ∈ first, PairFits p) (hlen : first.length ≤ mostLengths) :
    measure first = .ok (first.map lengths) := by
  obtain ⟨w, hwalk, hitems⟩ := walk_measure_fits h GrowVec.pushed_empty
    (by simpa [GrowVec.empty] using hlen)
  simp only [measure, hwalk, hitems]
  rfl

theorem measure_not_fits (h : ∃ p ∈ first.take (mostLengths + 1), ¬ PairFits p) :
    ∃ e, measure first = .err e := by
  obtain ⟨s, e, he⟩ := walk_measure_not_fits (s := .empty) h GrowVec.pushed_empty
  exact ⟨e, by simp only [measure, he]⟩

theorem measure_full (h : ∀ p ∈ first.take (mostLengths + 1), PairFits p)
    (hlen : mostLengths < first.length) : measure first = .panicked := by
  have hwalk := walk_measure_full (s := .empty) h GrowVec.pushed_empty (Nat.zero_le _)
    (by simpa [GrowVec.empty] using hlen)
  simp only [measure, hwalk]

/-- The bytes the encoder measures for `pairs`, before any overflow. -/
def encodedLength (pairs : List Pair) : ℕ := (header pairs).length + (body pairs).length

theorem pairEncodedSize_eq (k v : ℕ) :
    pairEncodedSize k v = min (2 * lengthSize + k + v + 2) usizeMax := by
  simp only [pairEncodedSize, satAdd]; omega

/-- Saturation goes unnoticed: what it clips does not fit after the count. -/
theorem checkedAdd_pairEncodedSize {sum k v : ℕ} (hs : 0 < sum) :
    checkedAdd sum (pairEncodedSize k v) = checkedAdd sum (2 * lengthSize + k + v + 2) := by
  rw [pairEncodedSize_eq]
  rcases Nat.le_total (2 * lengthSize + k + v + 2) usizeMax with h | h
  · rw [min_eq_left h]
  · rw [min_eq_right h, checkedAdd, checkedAdd, if_neg (by omega), if_neg (by omega)]

/-- The measured size is the length of the encoding when that fits `usize`. -/
theorem foldlM_measuredSize : ∀ (pairs : List Pair) (sum : ℕ), 0 < sum → sum ≤ usizeMax →
    (pairs.map lengths).foldlM (fun sum l => checkedAdd sum (pairEncodedSize l.1 l.2)) sum =
      checkedAdd sum (2 * lengthSize * pairs.length + (body pairs).length)
  | [], sum, _, hm => by simp [checkedAdd, hm]
  | p :: pairs, sum, hs, _ => by
    have hstep : checkedAdd sum (pairEncodedSize (lengths p).1 (lengths p).2) =
        checkedAdd sum (2 * lengthSize + p.1.length + p.2.length + 2) :=
      checkedAdd_pairEncodedSize hs
    have hsize : 2 * lengthSize * (p :: pairs).length + (body (p :: pairs)).length =
        (2 * lengthSize + p.1.length + p.2.length + 2) +
          (2 * lengthSize * pairs.length + (body pairs).length) := by
      rw [List.length_cons, length_body_cons]; ring
    rw [List.map_cons, List.foldlM_cons, hstep, hsize]
    by_cases h : sum + (2 * lengthSize + p.1.length + p.2.length + 2) ≤ usizeMax
    · rw [checkedAdd, if_pos h]
      change List.foldlM _ _ _ = _
      rw [foldlM_measuredSize pairs _ (by omega) h, checkedAdd, checkedAdd, Nat.add_assoc]
    · rw [checkedAdd, if_neg h, checkedAdd, if_neg (by omega)]
      rfl

theorem measuredSize_map (pairs : List Pair) :
    measuredSize (pairs.map lengths) =
      if encodedLength pairs ≤ usizeMax then some (encodedLength pairs) else none := by
  rw [measuredSize, foldlM_measuredSize pairs countSize (by decide) (by decide), checkedAdd,
    encodedLength, length_header, Nat.add_assoc]

/-! ## The second walk -/

theorem flatten_pieces (pairs : List Pair) :
    (pairs.flatMap fun p => pieces p.1 p.2).flatten = body pairs := by
  induction pairs with
  | nil => rfl
  | cons p pairs ih =>
    rw [List.flatMap_cons, List.flatten_append, ih, body_cons]
    simp [pieces]

/-- The second walk appends the pieces of as many pairs as were measured. -/
theorem walk_write (pairs : List Pair) (out : GrowVec UInt8) {w n : ℕ} (h : w ≤ n) :
    (walk (writeVisitor n) pairs (out, w)).map Prod.fst =
      out.extendAll isizeMax ((pairs.take (n - w)).flatMap fun p => pieces p.1 p.2) := by
  induction pairs generalizing out w with
  | nil => simp [walk, GrowVec.extendAll]
  | cons p pairs ih =>
    by_cases hw : w = n
    · subst hw; simp [walk, writeVisitor, GrowVec.extendAll]
    · obtain ⟨m, hm⟩ : ∃ m, n - w = m + 1 := ⟨n - w - 1, by omega⟩
      rw [hm, List.take_succ_cons, List.flatMap_cons, GrowVec.extendAll_append]
      cases hout : out.extendAll isizeMax (pieces p.1 p.2) with
      | none => simp [walk, writeVisitor, hw, hout]
      | some out' =>
        simp only [walk, writeVisitor, if_neg hw, hout, Option.map_some, Option.bind_some]
        rw [ih out' (by omega), show n - (w + 1) = m by omega]

/-- The vector that the second walk appends to: made for the measured size, with
    the count and the table in it. -/
def headed (first : List Pair) : GrowVec UInt8 :=
  ⟨header first, encodedLength first, Nat.le_add_right _ _⟩

/-- The vector after the second walk, unless it outgrew `isize::MAX`. -/
def written (source : PairSource) : Option (GrowVec UInt8) :=
  (headed source.first).extendAll isizeMax
    ((source.second.take source.first.length).flatMap fun p => pieces p.1 p.2)

/-- The encoding of a source whose walks agree in size: the lengths of the
    first walk before the bytes of the second. -/
def mixed (source : PairSource) : Bytes :=
  header source.first ++ body (source.second.take source.first.length)

variable {source : PairSource} {bytes : Bytes}

theorem items_of_written {out : GrowVec UInt8} (h : written source = some out) :
    out.items = mixed source := by
  rw [GrowVec.items_of_extendAll h, flatten_pieces]
  rfl

theorem written_eq : written source =
    (walk (writeVisitor source.first.length) source.second (headed source.first, 0)).map
      Prod.fst := by
  rw [walk_write source.second (headed source.first) (Nat.zero_le source.first.length),
    Nat.sub_zero, written]

theorem length_mixed_iff :
    (mixed source).length = encodedLength source.first ↔
      (body (source.second.take source.first.length)).length = (body source.first).length := by
  simp only [mixed, List.length_append, encodedLength]; omega

/-- A second walk of no more than the measured size has room. -/
theorem written_of_le (h : (mixed source).length ≤ encodedLength source.first) :
    ∃ out, written source = some out ∧ out.items = mixed source := by
  rw [mixed, List.length_append, ← flatten_pieces] at h
  obtain ⟨out, hout, -⟩ := GrowVec.extendAll_of_room isizeMax
    (v := headed source.first) h
  exact ⟨out, hout, items_of_written hout⟩

/-! ## What the encoder answers -/

/-- The first walk of `source` measures, and there is room for what it measured. -/
def Measures (first : List Pair) : Prop := Fits first ∧ encodedLength first ≤ isizeMax

/-- The first walk is refused with an error: for a pair that comes while there is
    room for the lengths, for the number of pairs, or for their size. -/
def Refused (first : List Pair) : Prop :=
  (∃ p ∈ first.take (mostLengths + 1), ¬ PairFits p) ∨
    (first.length ≤ mostLengths ∧
      (u32Max < first.length ∨ usizeMax < encodedLength first))

theorem u32Max_le_mostLengths : u32Max ≤ mostLengths := by decide

theorem isizeMax_le : isizeMax ≤ usizeMax := by decide

theorem encodeVisited_nil (h : source.first = []) : encodeVisited source = .ok [] := by
  have hmeasure : measure [] = .ok [] := rfl
  rw [encodeVisited, h, hmeasure]
  rfl

theorem headed_eq (first : List Pair) :
    (GrowVec.withCapacity isizeMax (encodedLength first)).bind
      (·.extend isizeMax (header first)) =
      if encodedLength first ≤ isizeMax then some (headed first) else none := by
  have hroom : ([] : Bytes).length + (header first).length ≤ encodedLength first := by
    rw [List.length_nil, Nat.zero_add]; exact Nat.le_add_right _ _
  rw [GrowVec.withCapacity]
  split_ifs
  · exact GrowVec.extend_of_room hroom
  · rfl

/-- What the encoder does with a source whose first walk is measured. -/
theorem encodeVisited_of_fits (h0 : source.first ≠ []) (h : Fits source.first) :
    encodeVisited source =
      if usizeMax < encodedLength source.first then .err .tooLarge
      else if isizeMax < encodedLength source.first then .panicked
      else match written source with
        | some out =>
          if out.items.length = encodedLength source.first then .ok out.items else .err .changed
        | none => .panicked := by
  obtain ⟨hn, hf⟩ := h
  have hmap : source.first.map lengths ≠ [] := by simpa using h0
  have hmost : source.first.length ≤ mostLengths := Nat.le_trans hn u32Max_le_mostLengths
  have hhead := headed_eq source.first
  rw [header] at hhead
  simp only [encodeVisited, measure_fits hf hmost, measuredSize_map, Exit.ok_bind, if_neg hmap,
    List.length_map, if_pos hn]
  by_cases hsize : encodedLength source.first ≤ usizeMax
  · rw [if_pos hsize, if_neg (by omega)]
    by_cases hroom : encodedLength source.first ≤ isizeMax
    · rw [if_pos hroom] at hhead
      obtain ⟨out, hout, hhead⟩ := Option.bind_eq_some_iff.1 hhead
      rw [if_neg (by omega), written_eq]
      simp only [hout, hhead, Exit.orPanic_some, Exit.ok_bind]
      cases walk (writeVisitor source.first.length) source.second (headed source.first, 0) <;> rfl
    · have hnone : GrowVec.withCapacity isizeMax (encodedLength source.first) =
          (none : Option (GrowVec UInt8)) := if_neg hroom
      rw [if_pos (by omega)]
      simp only [hnone, Exit.orPanic_none, Exit.panicked_bind]
  · simp only [if_neg hsize, if_pos (Nat.lt_of_not_le hsize), Exit.err_bind]

/-- A source that is refused gives an error, whatever its second walk yields. -/
theorem encodeVisited_of_refused (h : Refused source.first) :
    ∃ e, encodeVisited source = .err e := by
  by_cases hfit : ∃ p ∈ source.first.take (mostLengths + 1), ¬ PairFits p
  · obtain ⟨e, he⟩ := measure_not_fits hfit
    exact ⟨e, by simp only [encodeVisited, he, Exit.err_bind]⟩
  obtain ⟨hmost, hlarge⟩ := h.resolve_left hfit
  have hf : ∀ p ∈ source.first, PairFits p := by
    intro p hp
    by_contra hnot
    exact hfit ⟨p, by rwa [List.take_of_length_le (by omega)], hnot⟩
  have hne : source.first ≠ [] := by
    intro h0; rw [h0] at hlarge; exact absurd hlarge (by decide)
  have hmap : source.first.map lengths ≠ [] := by simpa using hne
  by_cases hn : source.first.length ≤ u32Max
  · refine ⟨.tooLarge, ?_⟩
    rw [encodeVisited_of_fits hne ⟨hn, hf⟩, if_pos (by omega)]
  · exact ⟨.tooManyPairs source.first.length, by
      simp only [encodeVisited, measure_fits hf hmost, if_neg hmap, List.length_map, if_neg hn,
        Exit.ok_bind, Exit.err_bind]⟩

/-- A source that is neither refused nor measured panics: the vector of lengths, or the
    one of the encoding, would need more than `isize::MAX` bytes. -/
theorem encodeVisited_of_outgrown (hr : ¬ Refused source.first) (hm : ¬ Measures source.first) :
    encodeVisited source = .panicked := by
  have hfit : ∀ p ∈ source.first.take (mostLengths + 1), PairFits p := by
    intro p hp
    by_contra hnot
    exact hr (.inl ⟨p, hp, hnot⟩)
  by_cases hmost : source.first.length ≤ mostLengths
  · rw [List.take_of_length_le (by omega)] at hfit
    have hlarge : ¬ (u32Max < source.first.length ∨ usizeMax < encodedLength source.first) :=
      fun hlarge => hr (.inr ⟨hmost, hlarge⟩)
    have hfits : Fits source.first := ⟨by omega, hfit⟩
    have hne : source.first ≠ [] := by
      intro h0; rw [h0] at hm; exact hm ⟨⟨by simp, by simp⟩, by decide⟩
    have hover : ¬ encodedLength source.first ≤ isizeMax := fun hs => hm ⟨hfits, hs⟩
    rw [encodeVisited_of_fits hne hfits, if_neg (by omega), if_pos (by omega)]
  · simp only [encodeVisited, measure_full hfit (by omega), Exit.panicked_bind]

/-- What the encoder does with a source that measures. -/
theorem encodeVisited_of_measures (h0 : source.first ≠ []) (h : Measures source.first) :
    encodeVisited source =
      match written source with
      | some out =>
        if out.items.length = encodedLength source.first then .ok out.items else .err .changed
      | none => .panicked := by
  have hsize := Nat.le_trans h.2 isizeMax_le
  have hroom := h.2
  rw [encodeVisited_of_fits h0 h.1, if_neg (by omega), if_neg (by omega)]

/-- **When the encoder answers bytes**: no bytes for no pairs, and otherwise `mixed`,
    provided the first walk measures and the body of the second walk has the
    measured size. -/
theorem encodeVisited_ok_iff :
    encodeVisited source = .ok bytes ↔
      (source.first = [] ∧ bytes = []) ∨
      (source.first ≠ [] ∧ Measures source.first ∧
        (body (source.second.take source.first.length)).length = (body source.first).length ∧
        bytes = mixed source) := by
  by_cases h0 : source.first = []
  · simp [encodeVisited_nil h0, h0, eq_comm]
  by_cases hm : Measures source.first
  · rw [encodeVisited_of_measures h0 hm]
    by_cases hb : (mixed source).length = encodedLength source.first
    · obtain ⟨out, hout, hitems⟩ := written_of_le (Nat.le_of_eq hb)
      simp only [hout, hitems, if_pos hb, Exit.ok.injEq]
      simp [h0, hm, length_mixed_iff.1 hb, eq_comm]
    · have hsame := mt length_mixed_iff.2 hb
      cases hout : written source with
      | none => simp [h0, hsame]
      | some out => simp [items_of_written hout, if_neg hb, h0, hsame]
  · by_cases hr : Refused source.first
    · obtain ⟨e, he⟩ := encodeVisited_of_refused hr
      simp [he, h0, hm]
    · simp [encodeVisited_of_outgrown hr hm, h0, hm]

end ProxyWasmHost.Codec
