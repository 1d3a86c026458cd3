/-
  What the strict decoder accepts, and the round trips of the pair codec.

  `encodeVisited_ok_iff` and `decodePairs_ok_iff` say exactly when each side
  accepts, in terms of the encoded form; the round trips follow from the two.
-/
import ProxyWasmHost.Codec.Encoder

namespace ProxyWasmHost.Codec

open LittleEndian

/-! ## What the decoder accepts -/

theorem bind_ok_iff {ε α β : Type} {x : Except ε α} {f : α → Except ε β} {b : β} :
    x >>= f = .ok b ↔ ∃ a, x = .ok a ∧ f a = .ok b := by
  cases x with
  | error e => simp [bind, Except.bind]
  | ok a => simp [bind, Except.bind]

theorem drop_of_drop_eq {data bs rest : Bytes} {pos : ℕ} (h : data.drop pos = bs ++ rest) :
    data.drop (pos + bs.length) = rest := by
  rw [← List.drop_drop, h, List.drop_left]

/-- The cursor after a field of `len` bytes. -/
def Cursor.advance (c : Cursor) (len : ℕ) : Cursor := { c with pos := c.pos + len + 1 }

theorem Cursor.take_eq {c : Cursor} {len : ℕ} {field : Field} (hd : c.data.length ≤ usizeMax)
    (hb : c.data[c.pos + len]? = some terminator) :
    c.take len field = .ok ((c.data.drop c.pos).take len, c.advance len) := by
  obtain ⟨hlt, -⟩ := List.getElem?_eq_some_iff.1 hb
  have hadd : checkedAdd c.pos len = some (c.pos + len) := if_pos (by omega)
  simp only [Cursor.take, hadd, if_pos hlt.le, hb, if_true, List.drop_take,
    Nat.add_sub_cancel_left, Cursor.advance]

theorem Cursor.terminator_of_take {c c' : Cursor} {len : ℕ} {field : Field} {bs : Bytes}
    (h : c.take len field = .ok (bs, c')) : c.data[c.pos + len]? = some terminator := by
  simp only [Cursor.take, checkedAdd] at h
  split at h
  · cases h
  · rename_i stop hstop
    split_ifs at hstop
    cases hstop
    split_ifs at h
    split at h
    · cases h
    · rename_i byte hbyte
      split_ifs at h with ht
      rw [hbyte, ht]

/-- The cursor takes any field that stands where it stands. -/
theorem Cursor.take_field {c : Cursor} {bs rest : Bytes} (field : Field)
    (hd : c.data.length ≤ usizeMax) (h : c.data.drop c.pos = bs ++ [terminator] ++ rest) :
    c.take bs.length field = .ok (bs, c.advance bs.length) ∧
      c.data.drop (c.advance bs.length).pos = rest := by
  have ht : c.data[c.pos + bs.length]? = some terminator := by
    rw [← List.getElem?_drop, h]; simp
  refine ⟨by rw [Cursor.take_eq hd ht, h]; simp, ?_⟩
  have := drop_of_drop_eq h
  rwa [List.length_append, ← Nat.add_assoc] at this

/-- What the cursor takes is a field that stands where it stands. -/
theorem Cursor.field_of_take {c c' : Cursor} {len : ℕ} {field : Field} {bs : Bytes}
    (h : c.take len field = .ok (bs, c')) (hd : c.data.length ≤ usizeMax) :
    bs.length = len ∧ c' = c.advance len ∧
      c.data.drop c.pos = bs ++ [terminator] ++ c.data.drop c'.pos := by
  have ht := Cursor.terminator_of_take h
  rw [Cursor.take_eq hd ht] at h
  obtain ⟨rfl, rfl⟩ := Prod.mk.inj (Except.ok.inj h)
  obtain ⟨hlt, hget⟩ := List.getElem?_eq_some_iff.1 ht
  refine ⟨by simp; omega, rfl, ?_⟩
  have hrest : (c.data.drop c.pos).drop len = terminator :: c.data.drop (c.pos + len + 1) := by
    rw [List.drop_drop, ← hget]; exact List.drop_eq_getElem_cons hlt
  calc c.data.drop c.pos
      = (c.data.drop c.pos).take len ++ (c.data.drop c.pos).drop len :=
        (List.take_append_drop _ _).symm
    _ = _ := by rw [hrest, Cursor.advance]; simp

/-- What the loop reads when it succeeds: the body of pairs with the lengths of
    the table. -/
theorem body_of_decodeTable : ∀ {table : List (ℕ × ℕ)} {c c' : Cursor} {pairs : List Pair},
    decodeTable table c = .ok (pairs, c') → c.data.length ≤ usizeMax →
    c'.data = c.data ∧ pairs.map lengths = table ∧
      c.data.drop c.pos = body pairs ++ c.data.drop c'.pos
  | [], c, c', pairs, h, _ => by
    simp only [decodeTable, Except.ok.injEq, Prod.mk.injEq] at h
    obtain ⟨rfl, rfl⟩ := h
    simp
  | (keyLen, valueLen) :: table, c, c', pairs, h, hd => by
    simp only [decodeTable, bind_ok_iff, pure, Except.pure, Except.ok.injEq, Prod.exists,
      Prod.mk.injEq] at h
    obtain ⟨key, c₁, hkey, value, c₂, hvalue, rest, c₃, hrest, rfl, rfl⟩ := h
    obtain ⟨hk, rfl, hkey⟩ := Cursor.field_of_take hkey hd
    obtain ⟨hv, rfl, hvalue⟩ := Cursor.field_of_take hvalue hd
    obtain ⟨hdata, hmap, hbody⟩ := body_of_decodeTable hrest hd
    refine ⟨hdata, by simp [lengths, hk, hv, hmap], ?_⟩
    have hvalue : c.data.drop (c.advance keyLen).pos = value ++ [terminator] ++
        c.data.drop ((c.advance keyLen).advance valueLen).pos := hvalue
    have hbody : c.data.drop ((c.advance keyLen).advance valueLen).pos =
        body rest ++ c.data.drop c₃.pos := hbody
    rw [hkey, hvalue, hbody, body_cons]
    simp

/-- What the loop takes: the body of any pairs, by the table of their lengths. -/
theorem decodeTable_body : ∀ {pairs : List Pair} {c : Cursor} {rest : Bytes},
    c.data.length ≤ usizeMax → c.data.drop c.pos = body pairs ++ rest →
    decodeTable (pairs.map lengths) c =
      .ok (pairs, ⟨c.data, c.pos + (body pairs).length, c.pair + pairs.length⟩)
  | [], c, rest, _, _ => rfl
  | p :: pairs, c, rest, hd, h => by
    have hfield : c.data.drop c.pos =
        p.1 ++ [terminator] ++ (p.2 ++ [terminator] ++ (body pairs ++ rest)) := by
      rw [h, body_cons]; simp
    obtain ⟨hkey, hafterKey⟩ := Cursor.take_field .key hd hfield
    obtain ⟨hvalue, hafterValue⟩ := Cursor.take_field (c := c.advance p.1.length) .value hd hafterKey
    have htail := decodeTable_body
      (c := { (c.advance p.1.length).advance p.2.length with pair := c.pair + 1 }) hd hafterValue
    simp only [List.map_cons, lengths, decodeTable, hkey, hvalue, bind, Except.bind, pure,
      Except.pure, length_body_cons, List.length_cons]
    simp only [Cursor.advance] at htail ⊢
    rw [htail]
    simp only [Except.ok.injEq, Prod.mk.injEq, Cursor.mk.injEq, true_and]
    omega

/-! ## The whole string -/

/-- Reading a table entry is reading its two words. -/
theorem readTable_append {k v : Bytes} (hk : k.length = lengthSize) (hv : v.length = lengthSize)
    (rest : Bytes) : readTable (k ++ v ++ rest) = (ofBytes k, ofBytes v) :: readTable rest := by
  match k, v, hk, hv with
  | [a, b, c, d], [e, f, g, h], _, _ => rfl

theorem u32Max_lt {n : ℕ} : n ≤ u32Max ↔ n < 256 ^ lengthSize := by
  simp only [u32Max, lengthSize]; omega

theorem readTable_lengthTable : ∀ {table : List (ℕ × ℕ)},
    (∀ l ∈ table, l.1 ≤ u32Max ∧ l.2 ≤ u32Max) → readTable (lengthTable table) = table
  | [], _ => rfl
  | (k, v) :: table, h => by
    obtain ⟨hk, hv⟩ := h (k, v) (by simp)
    have ih : readTable (lengthTable table) = table :=
      readTable_lengthTable fun l hl => h l (by simp [hl])
    rw [lengthTable_cons, readTable_append (by simp) (by simp), ih,
      ofBytes_toBytes (u32Max_lt.1 hk), ofBytes_toBytes (u32Max_lt.1 hv)]

/-- Every string of whole entries is the table of what it reads as. -/
theorem lengthTable_readTable : ∀ {n : ℕ} {data : Bytes}, data.length = n * (2 * lengthSize) →
    lengthTable (readTable data) = data ∧ (readTable data).length = n ∧
      ∀ l ∈ readTable data, l.1 ≤ u32Max ∧ l.2 ≤ u32Max
  | 0, data, h => by
    obtain rfl : data = [] := by simpa using h
    simp [readTable]
  | n + 1, data, h => by
    obtain ⟨k, v, rest, rfl, hk, hv⟩ : ∃ k v rest, data = k ++ v ++ rest ∧
        k.length = lengthSize ∧ v.length = lengthSize := by
      refine ⟨data.take lengthSize, (data.drop lengthSize).take lengthSize,
        data.drop (2 * lengthSize), ?_, ?_, ?_⟩
      · rw [List.append_assoc, two_mul, ← List.drop_drop, List.take_append_drop,
          List.take_append_drop]
      · simp only [List.length_take, lengthSize] at h ⊢; omega
      · simp only [List.length_take, List.length_drop, lengthSize] at h ⊢; omega
    have hrest : rest.length = n * (2 * lengthSize) := by
      simp only [List.length_append, hk, hv, lengthSize] at h ⊢; omega
    obtain ⟨htable, hlen, hfit⟩ := lengthTable_readTable hrest
    have hword : ∀ {w : Bytes}, w.length = lengthSize → ofBytes w ≤ u32Max := fun {w} hw =>
      u32Max_lt.2 (hw ▸ ofBytes_lt w)
    rw [readTable_append hk hv]
    refine ⟨?_, by simp [hlen], ?_⟩
    · rw [lengthTable_cons, htable]
      have hk' := toBytes_ofBytes k
      have hv' := toBytes_ofBytes v
      rw [hk] at hk'
      rw [hv] at hv'
      rw [hk', hv']
    · rintro l (_ | ⟨_, hl⟩)
      · exact ⟨hword hk, hword hv⟩
      · exact hfit l hl

/-- The two strings that mean a map with no pairs besides the encoded count. -/
def Blank (data : Bytes) : Prop := data = [] ∨ data = [terminator]

theorem decodePairs_blank {data : Bytes} (h : Blank data) :
    decodePairs data .unlimited = .ok [] := by
  rcases h with rfl | rfl <;> rfl

/-- The count at the start of `data`, and where the table it announces ends. -/
def announced (data : Bytes) : ℕ := ofBytes (data.take countSize)
def tableEnd (data : Bytes) : ℕ := countSize + announced data * (2 * lengthSize)

theorem finish_ok_iff {c : Cursor} : c.finish = .ok () ↔ c.data.drop c.pos = [] := by
  simp only [Cursor.finish, List.drop_eq_nil_iff]
  split_ifs with h <;> simp <;> omega

/-- The steps of a decode that does not stop early. -/
theorem decodePairs_ok_steps {data : Bytes} {pairs : List Pair} (hb : ¬ Blank data) :
    decodePairs data .unlimited = .ok pairs ↔
      countSize ≤ data.length ∧ tableEnd data ≤ data.length ∧
        ∃ c, decodeTable (readTable ((data.take (tableEnd data)).drop countSize))
          ⟨data, tableEnd data, 0⟩ = .ok (pairs, c) ∧ c.finish = .ok () := by
  have hb' : ¬ (data = [] ∨ data = [terminator]) := hb
  simp only [tableEnd, announced, decodePairs, PairLimits.unlimited, PairLimits.checkBytes,
    PairLimits.checkPairs, if_neg hb', bind, Except.bind, pure, Except.pure]
  rcases Nat.lt_or_ge data.length countSize with h1 | h1
  · simp [if_pos h1, Nat.not_le.2 h1]
  simp only [if_neg (Nat.not_lt.2 h1), h1, true_and]
  split_ifs with h2
  · simp [Nat.not_le.2 h2]
  · simp only [Nat.not_lt.1 h2, true_and]
    split
    · simp_all
    · rename_i v hv
      simp only [hv, Except.ok.injEq]
      cases hf : v.2.finish with
      | error e =>
        simp only [reduceCtorEq, false_iff, not_exists, not_and]
        rintro c rfl hc
        rw [hf] at hc; cases hc
      | ok u =>
        simp only [Except.ok.injEq]
        constructor
        · rintro rfl; exact ⟨v.2, rfl, hf⟩
        · rintro ⟨c, rfl, -⟩; rfl

/-- **What the decoder accepts**: the encoded form of the pairs it answers, and
    nothing after it. -/
theorem decodePairs_ok_iff {data : Bytes} {pairs : List Pair} (hd : data.length ≤ usizeMax)
    (hb : ¬ Blank data) :
    decodePairs data .unlimited = .ok pairs ↔ Fits pairs ∧ data = header pairs ++ body pairs := by
  rw [decodePairs_ok_steps hb]
  constructor
  · rintro ⟨hcount, hend, c, htable, hfin⟩
    obtain ⟨hdata, hmap, hbody⟩ := body_of_decodeTable htable hd
    have hlen : ((data.take (tableEnd data)).drop countSize).length =
        announced data * (2 * lengthSize) := by
      simp only [List.length_drop, List.length_take, tableEnd] at hend ⊢; omega
    obtain ⟨hread, hn, hfit⟩ := lengthTable_readTable hlen
    rw [← hmap] at hn hfit hread
    rw [List.length_map] at hn
    rw [finish_ok_iff, hdata] at hfin
    have hword : announced data ≤ u32Max := by
      have := ofBytes_lt (data.take countSize)
      rw [List.length_take, min_eq_left hcount] at this
      exact u32Max_lt.2 this
    refine ⟨⟨hn ▸ hword, fun p hp => hfit (lengths p) (List.mem_map_of_mem hp)⟩, ?_⟩
    calc data
        = data.take (tableEnd data) ++ data.drop (tableEnd data) := (List.take_append_drop _ _).symm
      _ = data.take countSize ++ (data.take (tableEnd data)).drop countSize ++
            data.drop (tableEnd data) := by
          have : data.take countSize = (data.take (tableEnd data)).take countSize := by
            rw [List.take_take, min_eq_left (by simp [tableEnd])]
          rw [this, List.take_append_drop countSize]
      _ = header pairs ++ body pairs := by
          have hword : toBytes countSize (announced data) = data.take countSize := by
            have := toBytes_ofBytes (data.take countSize)
            rwa [List.length_take, min_eq_left hcount] at this
          rw [header, hread, hn, hword, hbody, hfin, List.append_nil]
  · rintro ⟨⟨hn, hf⟩, rfl⟩
    have hannounced : announced (header pairs ++ body pairs) = pairs.length := by
      rw [announced, header, List.append_assoc, List.take_left' (by simp),
        ofBytes_toBytes (w := countSize) (u32Max_lt.1 hn)]
    have hend : tableEnd (header pairs ++ body pairs) = (header pairs).length := by
      rw [tableEnd, hannounced, length_header, Nat.mul_comm]
    have htable : ((header pairs ++ body pairs).take (header pairs).length).drop countSize =
        lengthTable (pairs.map lengths) := by
      rw [List.take_left, header]; exact List.drop_left' (by simp)
    have hfit : ∀ l ∈ pairs.map lengths, l.1 ≤ u32Max ∧ l.2 ≤ u32Max := by
      rintro _ hl
      obtain ⟨p, hp, rfl⟩ := List.mem_map.1 hl
      exact hf p hp
    have hbody : (header pairs ++ body pairs).drop (header pairs).length = body pairs ++ [] := by
      simp
    rw [hend, htable, readTable_lengthTable hfit, decodeTable_body hd hbody]
    refine ⟨by simp [Nat.add_assoc], by simp, _, rfl, ?_⟩
    rw [finish_ok_iff]; simp

/-! ## The round trips -/

theorem not_blank_encoded {pairs : List Pair} : ¬ Blank (header pairs ++ body pairs) := by
  intro h
  have h4 : countSize ≤ (header pairs ++ body pairs).length := by simp; omega
  rcases h with h | h <;> rw [h] at h4 <;> exact absurd h4 (by decide)

theorem mixed_steady (pairs : List Pair) : mixed (.steady pairs) = header pairs ++ body pairs := by
  simp [mixed, PairSource.steady]

/-- **What the encoder answers for a list**: nothing, or its encoded form. -/
theorem encodePairs_ok_iff {pairs : List Pair} {bytes : Bytes} :
    encodePairs pairs = .ok bytes ↔
      (pairs = [] ∧ bytes = []) ∨
      (pairs ≠ [] ∧ Measures pairs ∧ bytes = header pairs ++ body pairs) := by
  rw [encodePairs, encodeVisited_ok_iff, mixed_steady]
  simp [PairSource.steady]

theorem length_encoded (pairs : List Pair) :
    (header pairs ++ body pairs).length = encodedLength pairs := by
  rw [List.length_append, encodedLength]

/-- **Decoding undoes encoding**: the decoder answers the pairs encoded. -/
theorem decodePairs_of_encodePairs {pairs : List Pair} {bytes : Bytes}
    (h : encodePairs pairs = .ok bytes) : decodePairs bytes .unlimited = .ok pairs := by
  rcases encodePairs_ok_iff.1 h with ⟨rfl, rfl⟩ | ⟨-, ⟨hfits, hsize⟩, rfl⟩
  · exact decodePairs_blank (.inl rfl)
  · have hd : (header pairs ++ body pairs).length ≤ usizeMax := by
      rw [length_encoded]; exact Nat.le_trans hsize isizeMax_le
    exact (decodePairs_ok_iff hd not_blank_encoded).2 ⟨hfits, rfl⟩

/-- **Encoding undoes decoding**: a string that decodes to some pairs is the one
    the encoder makes of them. -/
theorem encodePairs_of_decodePairs {data : Bytes} {pairs : List Pair}
    (hd : data.length ≤ isizeMax) (h : decodePairs data .unlimited = .ok pairs)
    (hne : pairs ≠ []) : encodePairs pairs = .ok data := by
  by_cases hb : Blank data
  · rw [decodePairs_blank hb] at h; exact absurd (Except.ok.inj h).symm hne
  · obtain ⟨hfits, rfl⟩ := (decodePairs_ok_iff (Nat.le_trans hd isizeMax_le) hb).1 h
    exact encodePairs_ok_iff.2 (.inr ⟨hne, ⟨hfits, by rwa [length_encoded] at hd⟩, rfl⟩)

theorem decodePairs_nil_iff {data : Bytes} (hd : data.length ≤ usizeMax) :
    decodePairs data .unlimited = .ok [] ↔ data = [] ∨ data = [0] ∨ data = [0, 0, 0, 0] := by
  by_cases hb : Blank data
  · rw [decodePairs_blank hb, eq_self_iff_true, true_iff, ← or_assoc]
    exact .inl hb
  · rw [decodePairs_ok_iff hd hb, ← or_assoc, or_iff_right (show ¬ (data = [] ∨ data = [0]) from hb)]
    have hheader : header [] ++ body [] = [0, 0, 0, 0] := by decide
    rw [hheader]
    exact and_iff_right ⟨by decide, by simp⟩

/-- **The encoding is canonical**: what the encoder makes of a list decodes to
    that list; what decodes to a list that is not empty is what the encoder
    makes of it (a slice holds at most `isize::MAX` bytes); and three strings
    decode to the empty list. -/
theorem pairs_codec_canonical :
    (∀ (pairs : List Pair) (bytes : Bytes),
      encodePairs pairs = .ok bytes → decodePairs bytes .unlimited = .ok pairs) ∧
    (∀ (data : Bytes) (pairs : List Pair), data.length ≤ isizeMax → pairs ≠ [] →
      decodePairs data .unlimited = .ok pairs → encodePairs pairs = .ok data) ∧
    (∀ data : Bytes, data.length ≤ usizeMax →
      (decodePairs data .unlimited = .ok [] ↔ data = [] ∨ data = [0] ∨ data = [0, 0, 0, 0])) :=
  ⟨fun _ _ => decodePairs_of_encodePairs,
    fun _ _ hd hne h => encodePairs_of_decodePairs hd h hne,
    fun _ => decodePairs_nil_iff⟩

theorem pairs_codec_canonical_example :
    decodePairs [1, 0, 0, 0, 1, 0, 0, 0, 0, 0, 0, 0, 107, 0, 0] .unlimited = .ok [([107], [])] ∧
    encodePairs [([107], [])] = .ok [1, 0, 0, 0, 1, 0, 0, 0, 0, 0, 0, 0, 107, 0, 0] ∧
    decodePairs [0, 0, 0, 0] .unlimited = .ok [] :=
  ⟨pairs_codec_canonical.1 [([107], [])] _ (by decide),
    pairs_codec_canonical.2.1 _ [([107], [])] (by decide) (by decide) (by decide),
    (pairs_codec_canonical.2.2 [0, 0, 0, 0] (by decide)).2 (by decide)⟩

end ProxyWasmHost.Codec
