/-
  What the strict decoder reserves.

  `decodePairsIn` is the decoder with what it asks of the vector it fills. Its
  limits are decided before the vector is made, the vector is made for the pairs
  that the bytes after the length table can hold, and it never grows after that.
-/
import ProxyWasmHost.Codec.RoundTrip
import ProxyWasmHost.Lib.Prog

namespace ProxyWasmHost

/-- `usize::checked_mul`. -/
def checkedMul (a b : ℕ) : Option ℕ := if a * b ≤ usizeMax then some (a * b) else none

namespace Codec

open LittleEndian

/-! ## The decoder and its vector -/

/-- What the decoder asks of the vector it answers. -/
inductive VecOp where
  | withCapacity (entries : ℕ)
  | push
  deriving DecidableEq, Repr

/-- How many pairs to reserve for a map that declares `pairCount`. -/
def reserveFor (pairCount dataLen tableEnd : ℕ) : ℕ := min pairCount ((dataLen - tableEnd) / 2)

/-- The count a map starts with, when it holds one. -/
def declared (data : Bytes) : Option ℕ :=
  if countSize ≤ data.length then some (announced data) else none

/-- Where the length table of `count` pairs ends, when it ends inside the data. -/
def tableEndIn (count dataLen : ℕ) : Option ℕ :=
  ((checkedMul count (2 * lengthSize)).bind (checkedAdd countSize)).filter (· ≤ dataLen)

/-- The loop of the decoder, which pushes each pair it has read. -/
def pushPairs : List (ℕ × ℕ) → Cursor → Prog Unit VecOp DecodeError (List Pair × Cursor)
  | [], c => return ([], c)
  | (keyLen, valueLen) :: table, c => do
    let (key, c) ← Prog.ofExcept (c.take keyLen .key)
    let (value, c) ← Prog.ofExcept (c.take valueLen .value)
    Prog.emit fun _ => .push
    let (pairs, c) ← pushPairs table { c with pair := c.pair + 1 }
    return ((key, value) :: pairs, c)

/-- Decodes an encoded map into a vector of its pairs. -/
def decodePairsIn (data : Bytes) (limits : PairLimits) :
    Prog Unit VecOp DecodeError (List Pair) := do
  Prog.ofExcept (limits.checkBytes data.length)
  if data = [] ∨ data = [terminator] then return []
  let count ← Prog.orThrow (declared data) .truncatedCount
  Prog.ofExcept (limits.checkPairs count)
  let tableEnd ← Prog.orThrow (tableEndIn count data.length) (.truncatedLengths count)
  Prog.emit fun _ => .withCapacity (reserveFor count data.length tableEnd)
  let table := readTable ((data.take tableEnd).drop countSize)
  let (pairs, cursor) ← pushPairs table ⟨data, tableEnd, 0⟩
  Prog.ofExcept cursor.finish
  return pairs

/-- The entries that the operations on a vector reserve. -/
def reserved : List VecOp → ℕ
  | [] => 0
  | .withCapacity entries :: ops => entries + reserved ops
  | .push :: ops => reserved ops

/-! ## What the limits refuse -/

/-- The refusal of an input that is longer than the byte limit. -/
def PairLimits.refusesBytes (limits : PairLimits) (data : Bytes) : Option DecodeError :=
  limits.bytes.bind fun limit =>
    if limit < data.length then some (.byteLimit data.length limit) else none

/-- The refusal of an input that declares more pairs than the pair limit. -/
def PairLimits.refusesPairs (limits : PairLimits) (data : Bytes) : Option DecodeError :=
  (declared data).bind fun count => limits.pairs.bind fun limit =>
    if limit < count then some (.pairLimit count limit) else none

/-- What the limits refuse an input with: the bytes come first. -/
def PairLimits.refusal (limits : PairLimits) (data : Bytes) : Option DecodeError :=
  (limits.refusesBytes data).or (limits.refusesPairs data)

theorem PairLimits.checkBytes_eq (limits : PairLimits) (data : Bytes) :
    limits.checkBytes data.length =
      match limits.refusesBytes data with
      | some e => .error e
      | none => .ok () := by
  rcases limits with ⟨pairs, _ | limit⟩
  · rfl
  · simp only [checkBytes, refusesBytes, gt_iff_lt, Option.bind_some]
    split_ifs <;> rfl

theorem PairLimits.checkPairs_eq (limits : PairLimits) {data : Bytes} {count : ℕ}
    (h : declared data = some count) :
    limits.checkPairs count =
      match limits.refusesPairs data with
      | some e => .error e
      | none => .ok () := by
  rcases limits with ⟨_ | limit, bytes⟩
  · simp only [checkPairs, refusesPairs, h, Option.bind_some, Option.bind_none]
  · simp only [checkPairs, refusesPairs, h, gt_iff_lt, Option.bind_some]
    split_ifs <;> rfl

theorem declared_of_blank {data : Bytes} (h : Blank data) : declared data = none := by
  rcases h with rfl | rfl <;> rfl

theorem tableEndIn_announced (data : Bytes) (h : countSize ≤ data.length) :
    tableEndIn (announced data) data.length =
      if tableEnd data ≤ data.length then some (tableEnd data) else none := by
  have hword : announced data < 256 ^ countSize := by
    have := ofBytes_lt (data.take countSize)
    rwa [List.length_take, min_eq_left h] at this
  have hmul : announced data * (2 * lengthSize) ≤ usizeMax := by
    simp only [countSize, lengthSize, usizeMax] at hword ⊢; omega
  have hadd : countSize + announced data * (2 * lengthSize) ≤ usizeMax := by
    simp only [countSize, lengthSize, usizeMax] at hword ⊢; omega
  have hend : (checkedMul (announced data) (2 * lengthSize)).bind (checkedAdd countSize) =
      some (tableEnd data) := by
    rw [checkedMul, if_pos hmul, Option.bind_some, checkedAdd, if_pos hadd, tableEnd]
  rw [tableEndIn, hend]
  split_ifs with hle
  · simp [hle]
  · simp [Nat.lt_of_not_le hle]

/-! ## The loop -/

/-- A field and its terminator stand inside the data. -/
theorem Cursor.pos_of_take {c c' : Cursor} {len : ℕ} {field : Field} {bs : Bytes}
    (h : c.take len field = .ok (bs, c')) :
    c'.data = c.data ∧ c.pos + 1 ≤ c'.pos ∧ c'.pos ≤ c.data.length := by
  have hbyte := Cursor.terminator_of_take h
  obtain ⟨hlt, -⟩ := List.getElem?_eq_some_iff.1 hbyte
  simp only [Cursor.take, checkedAdd] at h
  split at h
  · cases h
  · rename_i stop hstop
    split_ifs at hstop with hsum
    cases hstop
    simp only [if_pos hlt.le, hbyte, if_true, Except.ok.injEq, Prod.mk.injEq] at h
    obtain ⟨-, rfl⟩ := h
    exact ⟨rfl, by simp only; omega, hlt⟩

/-- What both loops do with a pair that the cursor takes. -/
theorem decodeTable_cons {table : List (ℕ × ℕ)} {c c₁ c₂ : Cursor} {keyLen valueLen : ℕ}
    {key value : Bytes} (hkey : c.take keyLen .key = .ok (key, c₁))
    (hvalue : c₁.take valueLen .value = .ok (value, c₂)) :
    decodeTable ((keyLen, valueLen) :: table) c =
      (decodeTable table { c₂ with pair := c₂.pair + 1 }).map
        fun rest => ((key, value) :: rest.1, rest.2) := by
  simp only [decodeTable, hkey, hvalue, bind, Except.bind, pure, Except.pure]
  cases decodeTable table { c₂ with pair := c₂.pair + 1 } <;> rfl

theorem pushPairs_cons {table : List (ℕ × ℕ)} {c c₁ c₂ : Cursor} {keyLen valueLen n : ℕ}
    {key value : Bytes} {rest : Except DecodeError (List Pair × Cursor)}
    (hkey : c.take keyLen .key = .ok (key, c₁))
    (hvalue : c₁.take valueLen .value = .ok (value, c₂))
    (hrest : (pushPairs table { c₂ with pair := c₂.pair + 1 }).run () =
      ⟨Exit.ofExcept rest, (), List.replicate n .push⟩) :
    (pushPairs ((keyLen, valueLen) :: table) c).run () =
      ⟨Exit.ofExcept (rest.map fun rest => ((key, value) :: rest.1, rest.2)), (),
        List.replicate (n + 1) .push⟩ := by
  have htail : ((pushPairs table { c₂ with pair := c₂.pair + 1 }) >>= fun rest =>
      (pure ((key, value) :: rest.1, rest.2) : Prog Unit VecOp DecodeError _)).run () =
      ⟨Exit.ofExcept (rest.map fun rest => ((key, value) :: rest.1, rest.2)), (),
        List.replicate n .push⟩ := by
    cases rest with
    | ok rest => rw [Prog.bind_of_ok hrest]; exact congrArg _ (List.append_nil _)
    | error e => rw [Prog.bind_of_err hrest]; rfl
  simp only [pushPairs, hkey]
  rw [Prog.bind_of_ok_nil rfl]
  simp only [hvalue]
  rw [Prog.bind_of_ok_nil rfl, Prog.bind_of_ok rfl, htail]
  rfl

/-- **The loop pushes what it reads**: it ends as the loop of `decodePairs`, and
    each push has read two bytes of the data. -/
theorem pushPairs_run : ∀ (table : List (ℕ × ℕ)) (c : Cursor), c.pos ≤ c.data.length →
    ∃ n, (pushPairs table c).run () =
        ⟨Exit.ofExcept (decodeTable table c), (), List.replicate n .push⟩ ∧
      n ≤ table.length ∧ c.pos + 2 * n ≤ c.data.length ∧
      ∀ pairs c', decodeTable table c = .ok (pairs, c') →
        pairs.length = n ∧ n = table.length
  | [], c, hpos => by
    refine ⟨0, rfl, Nat.le_refl _, by omega, ?_⟩
    intro pairs c' h
    cases h
    exact ⟨rfl, rfl⟩
  | (keyLen, valueLen) :: table, c, hpos => by
    cases hkey : c.take keyLen .key with
    | error e =>
      have hdecode : decodeTable ((keyLen, valueLen) :: table) c = .error e := by
        simp only [decodeTable, hkey, bind, Except.bind]
      rw [hdecode]
      refine ⟨0, ?_, Nat.zero_le _, by omega, by rintro _ _ ⟨⟩⟩
      simp only [pushPairs, hkey]; rfl
    | ok taken =>
      obtain ⟨key, c₁⟩ := taken
      obtain ⟨hdata₁, hpos₁, hle₁⟩ := Cursor.pos_of_take hkey
      cases hvalue : c₁.take valueLen .value with
      | error e =>
        have hdecode : decodeTable ((keyLen, valueLen) :: table) c = .error e := by
          simp only [decodeTable, hkey, hvalue, bind, Except.bind]
        rw [hdecode]
        refine ⟨0, ?_, Nat.zero_le _, by omega, by rintro _ _ ⟨⟩⟩
        simp only [pushPairs, hkey]
        rw [Prog.bind_of_ok_nil rfl]
        simp only [hvalue]; rfl
      | ok taken =>
        obtain ⟨value, c₂⟩ := taken
        obtain ⟨hdata₂, hpos₂, hle₂⟩ := Cursor.pos_of_take hvalue
        have hle : c₂.pos ≤ c₂.data.length := by rw [hdata₂]; exact hle₂
        obtain ⟨n, hrun, hn, hlen, hok⟩ := pushPairs_run table { c₂ with pair := c₂.pair + 1 } hle
        have hstop : c.pos + 2 * (n + 1) ≤ c.data.length := by
          simp only [hdata₂, hdata₁] at hlen; omega
        rw [decodeTable_cons hkey hvalue]
        refine ⟨n + 1, pushPairs_cons hkey hvalue hrun, Nat.succ_le_succ hn, hstop, ?_⟩
        intro pairs c' h
        cases hdecode : decodeTable table { c₂ with pair := c₂.pair + 1 } with
        | error e => rw [hdecode] at h; cases h
        | ok rest =>
          rw [hdecode] at h
          cases h
          obtain ⟨hpairs, htable⟩ := hok rest.1 rest.2 hdecode
          simp only [List.length_cons]
          omega

/-! ## The whole string -/

theorem declared_of_le {data : Bytes} (h : countSize ≤ data.length) :
    declared data = some (announced data) := if_pos h

/-- The limits refuse before anything is reserved. -/
theorem decodePairsIn_refused {data : Bytes} {limits : PairLimits} {e : DecodeError}
    (h : limits.refusal data = some e) :
    (decodePairsIn data limits).run () = ⟨.err e, (), []⟩ ∧ decodePairs data limits = .error e := by
  rw [PairLimits.refusal] at h
  cases hbytes : limits.refusesBytes data with
  | some e' =>
    obtain rfl : e' = e := by simpa [hbytes] using h
    have hcheck : limits.checkBytes data.length = .error e' := by
      rw [limits.checkBytes_eq, hbytes]
    simp only [decodePairsIn, decodePairs, hcheck]
    exact ⟨rfl, rfl⟩
  | none =>
    have hpairs : limits.refusesPairs data = some e := by simpa [hbytes] using h
    have hcheck : limits.checkBytes data.length = .ok () := by rw [limits.checkBytes_eq, hbytes]
    obtain ⟨count, hcount, -⟩ := Option.bind_eq_some_iff.1 hpairs
    have hb : ¬ (data = [] ∨ data = [terminator]) := fun hb => by
      rw [declared_of_blank hb] at hcount; cases hcount
    have hlen : countSize ≤ data.length := by
      by_contra hlt
      rw [declared, if_neg hlt] at hcount
      cases hcount
    have hrefuse : limits.checkPairs (announced data) = .error e := by
      rw [limits.checkPairs_eq (declared_of_le hlen), hpairs]
    constructor
    · simp only [decodePairsIn, hcheck, Prog.ofExcept_ok_bind, if_neg hb, declared_of_le hlen,
        Prog.orThrow_some_bind, hrefuse, Prog.ofExcept_error_bind]
      rfl
    · rw [announced] at hrefuse
      simp only [decodePairs, hcheck, if_neg hb, if_neg (Nat.not_lt.2 hlen), hrefuse]
      rfl

/-- What the limits do not refuse, they leave alone. -/
theorem decodePairsIn_unlimited {data : Bytes} {limits : PairLimits}
    (h : limits.refusal data = none) :
    decodePairsIn data limits = decodePairsIn data .unlimited ∧
      decodePairs data limits = decodePairs data .unlimited := by
  rw [PairLimits.refusal, Option.or_eq_none_iff] at h
  obtain ⟨hbytes, hpairs⟩ := h
  have hcheck : limits.checkBytes data.length = PairLimits.unlimited.checkBytes data.length := by
    rw [limits.checkBytes_eq, hbytes]; rfl
  by_cases hlen : countSize ≤ data.length
  · have haccept : limits.checkPairs (announced data) =
        PairLimits.unlimited.checkPairs (announced data) := by
      rw [limits.checkPairs_eq (declared_of_le hlen), hpairs]; rfl
    constructor
    · simp only [decodePairsIn, hcheck, declared_of_le hlen, Prog.orThrow_some_bind, haccept]
    · rw [announced] at haccept
      simp only [decodePairs, hcheck, haccept]
  · have hshort : declared data = none := if_neg hlen
    constructor
    · simp only [decodePairsIn, hcheck, hshort, Prog.orThrow_none_bind]
    · simp only [decodePairs, hcheck, if_pos (Nat.not_le.1 hlen)]
      rfl

/-- The operations of a decode that reaches the length table. -/
def filling (entries pushes : ℕ) : List VecOp := .withCapacity entries :: .replicate pushes .push

@[simp] theorem reserved_filling (entries pushes : ℕ) : reserved (filling entries pushes) = entries := by
  have hpushes : reserved (List.replicate pushes .push) = 0 := by
    induction pushes with
    | zero => rfl
    | succ n ih => rw [List.replicate_succ, reserved, ih]
  rw [filling, reserved, hpushes, Nat.add_zero]

@[simp] theorem count_filling (entries pushes : ℕ) :
    (filling entries pushes).count .push = pushes := by
  simp [filling]

/-- What follows the loop: the answer is the pairs, unless bytes remain. -/
def finished (read : Except DecodeError (List Pair × Cursor)) : Except DecodeError (List Pair) :=
  read >>= fun (pairs, cursor) => cursor.finish >>= fun _ => pure pairs

theorem finished_ok {read : Except DecodeError (List Pair × Cursor)} {pairs : List Pair}
    (h : finished read = .ok pairs) : ∃ cursor, read = .ok (pairs, cursor) := by
  simp only [finished, bind_ok_iff, Prod.exists, pure, Except.pure, Except.ok.injEq] at h
  obtain ⟨pairs', cursor, hread, _, -, rfl⟩ := h
  exact ⟨cursor, hread⟩

theorem finished_run {m : Prog Unit VecOp DecodeError (List Pair × Cursor)} {ops : List VecOp}
    {read : Except DecodeError (List Pair × Cursor)} (h : m.run () = ⟨Exit.ofExcept read, (), ops⟩) :
    (m >>= fun (pairs, cursor) => do Prog.ofExcept cursor.finish; return pairs).run () =
      ⟨Exit.ofExcept (finished read), (), ops⟩ := by
  cases read with
  | error e => rw [Prog.bind_of_err h]; rfl
  | ok taken =>
    obtain ⟨pairs, cursor⟩ := taken
    rw [Prog.bind_of_ok h]
    cases hfinish : cursor.finish with
    | ok _ => simp only [finished, bind, Except.bind, hfinish]; exact congrArg _ (List.append_nil _)
    | error e => simp only [finished, bind, Except.bind, hfinish]; exact congrArg _ (List.append_nil _)

theorem length_readTable {data : Bytes} (h : tableEnd data ≤ data.length) :
    (readTable ((data.take (tableEnd data)).drop countSize)).length = announced data := by
  refine (lengthTable_readTable ?_).2.1
  rw [List.length_drop, List.length_take, min_eq_left h, tableEnd, Nat.add_sub_cancel_left]

/-- The decoder without limits reserves once, for no more than the bytes after the
    length table can hold, and for all that it pushes. -/
theorem decodePairsIn_run (data : Bytes) :
    ∃ ops, (decodePairsIn data .unlimited).run () =
        ⟨Exit.ofExcept (decodePairs data .unlimited), (), ops⟩ ∧
      (∀ pairs, decodePairs data .unlimited = .ok pairs → reserved ops = pairs.length) ∧
      2 * reserved ops ≤ data.length - tableEnd data ∧ ops.count .push ≤ reserved ops := by
  have hbytes : PairLimits.unlimited.checkBytes data.length = .ok () := rfl
  by_cases hb : Blank data
  · have hb' : data = [] ∨ data = [terminator] := hb
    refine ⟨[], ?_, ?_, Nat.zero_le _, Nat.le_refl _⟩
    · rw [decodePairs_blank hb]
      simp only [decodePairsIn, hbytes, Prog.ofExcept_ok_bind, if_pos hb']
      rfl
    · rw [decodePairs_blank hb]
      rintro _ ⟨⟩
      rfl
  have hb' : ¬ (data = [] ∨ data = [terminator]) := hb
  by_cases hlen : countSize ≤ data.length
  case neg =>
    have hdecode : decodePairs data .unlimited = .error .truncatedCount := by
      simp only [decodePairs, hbytes, if_neg hb', if_pos (Nat.not_le.1 hlen)]; rfl
    rw [hdecode]
    refine ⟨[], ?_, (by rintro _ ⟨⟩), Nat.zero_le _, Nat.le_refl _⟩
    have hshort : declared data = none := if_neg hlen
    simp only [decodePairsIn, hbytes, Prog.ofExcept_ok_bind, if_neg hb', hshort,
      Prog.orThrow_none_bind]
    rfl
  have hpairs : PairLimits.unlimited.checkPairs (announced data) = .ok () := rfl
  by_cases hend : tableEnd data ≤ data.length
  case neg =>
    have hdecode : decodePairs data .unlimited = .error (.truncatedLengths (announced data)) := by
      have hend' := Nat.not_le.1 hend
      simp only [tableEnd, announced] at hend' hpairs ⊢
      simp only [decodePairs, hbytes, if_neg hb', if_neg (Nat.not_lt.2 hlen), if_pos hend', hpairs]
      rfl
    rw [hdecode]
    refine ⟨[], ?_, (by rintro _ ⟨⟩), Nat.zero_le _, Nat.le_refl _⟩
    simp only [decodePairsIn, hbytes, Prog.ofExcept_ok_bind, if_neg hb', declared_of_le hlen,
      Prog.orThrow_some_bind, hpairs, tableEndIn_announced data hlen, if_neg hend,
      Prog.orThrow_none_bind]
    rfl
  have hdecode : decodePairs data .unlimited =
      finished (decodeTable (readTable ((data.take (tableEnd data)).drop countSize))
        ⟨data, tableEnd data, 0⟩) := by
    have hend' := Nat.not_lt.2 hend
    simp only [tableEnd, announced] at hend' hpairs ⊢
    simp only [decodePairs, hbytes, if_neg hb', if_neg (Nat.not_lt.2 hlen), if_neg hend', hpairs]
    rfl
  obtain ⟨n, hrun, hn, hstop, hok⟩ := pushPairs_run
    (readTable ((data.take (tableEnd data)).drop countSize)) ⟨data, tableEnd data, 0⟩ hend
  rw [length_readTable hend] at hn hok
  have hstop : tableEnd data + 2 * n ≤ data.length := hstop
  have hreserve : reserveFor (announced data) data.length (tableEnd data) =
      min (announced data) ((data.length - tableEnd data) / 2) := rfl
  refine ⟨filling (reserveFor (announced data) data.length (tableEnd data)) n, ?_, ?_, ?_, ?_⟩
  · simp only [decodePairsIn, hbytes, Prog.ofExcept_ok_bind, if_neg hb', declared_of_le hlen,
      Prog.orThrow_some_bind, hpairs, tableEndIn_announced data hlen, if_pos hend]
    rw [hdecode, Prog.bind_of_ok rfl, finished_run hrun]
    rfl
  · intro pairs hpairs
    rw [hdecode] at hpairs
    obtain ⟨cursor, hread⟩ := finished_ok hpairs
    obtain ⟨hlength, hall⟩ := hok pairs cursor hread
    rw [reserved_filling, hreserve, hlength]
    omega
  · rw [reserved_filling, hreserve]
    omega
  · rw [count_filling, reserved_filling, hreserve]
    omega

/-- **Limits that decide first, and a reserve that fits**: the limits refuse what is
    too long, and then what declares too many pairs, with nothing reserved, and
    change no other answer. What is reserved is the pairs answered, or else at most
    half of the bytes after the length table; and the vector never grows. -/
theorem decodePairsIn_reserves (data : Bytes) (limits : PairLimits) :
    ((decodePairsIn data limits).run ()).exit = Exit.ofExcept (decodePairs data limits) ∧
    (decodePairs data limits =
      match limits.refusal data with
      | some e => .error e
      | none => decodePairs data .unlimited) ∧
    (∀ e, limits.refusal data = some e → ((decodePairsIn data limits).run ()).trace = []) ∧
    (∀ pairs, decodePairs data limits = .ok pairs →
      reserved ((decodePairsIn data limits).run ()).trace = pairs.length) ∧
    2 * reserved ((decodePairsIn data limits).run ()).trace ≤ data.length - tableEnd data ∧
    ((decodePairsIn data limits).run ()).trace.count .push ≤
      reserved ((decodePairsIn data limits).run ()).trace := by
  cases hrefusal : limits.refusal data with
  | some e =>
    obtain ⟨hrun, hdecode⟩ := decodePairsIn_refused hrefusal
    rw [hrun, hdecode]
    refine ⟨rfl, rfl, fun _ _ => rfl, (by rintro _ ⟨⟩), Nat.zero_le _, Nat.le_refl _⟩
  | none =>
    obtain ⟨hsame, hdecode⟩ := decodePairsIn_unlimited hrefusal
    obtain ⟨ops, hrun, hok, hhalf, hpush⟩ := decodePairsIn_run data
    rw [hsame, hdecode, hrun]
    exact ⟨rfl, rfl, (by rintro _ ⟨⟩), hok, hhalf, hpush⟩

/-- A count of `u32::MAX` reserves nothing: its table does not fit the string. -/
example : (decodePairsIn [255, 255, 255, 255, 0, 0] .unlimited).run () =
    ⟨.err (.truncatedLengths 4294967295), (), []⟩ := rfl

end Codec

end ProxyWasmHost
