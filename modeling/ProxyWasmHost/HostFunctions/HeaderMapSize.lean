/-
  The size of a header map that the guest asks for, and the encoding of that size.
-/
import ProxyWasmHost.Codec.RoundTrip
import ProxyWasmHost.HostFunctions.Answers
import ProxyWasmHost.Runtime.OptionalReturn

namespace ProxyWasmHost

open Prog Codec GuestMemory

/-! ## The two sums -/

section Sums

variable {map : HeaderMap} {pairs : List Pair} {bytes : Bytes}

/-- The sum of the sizes is the one that does not saturate, clipped. -/
theorem foldl_pairEncodedSize (pairs : List Pair) (size : ℕ) :
    min (pairs.foldl (fun size p => satAdd size (pairEncodedSize p.1.length p.2.length)) size)
        usizeMax =
      min (size + (2 * lengthSize * pairs.length + (body pairs).length)) usizeMax := by
  induction pairs generalizing size with
  | nil => rfl
  | cons p pairs ih =>
    rw [List.foldl_cons, ih, pairEncodedSize_eq, satAdd, length_body_cons, List.length_cons,
      Nat.mul_succ]
    generalize usizeMax = limit
    omega

/-- **The reported size** of a map with pairs is that of its encoding, clipped at the largest
    integer. -/
theorem encodedSizeOf_eq (hsource : map.source = .steady pairs) (hne : pairs ≠ []) :
    encodedSizeOf map = min (encodedLength pairs) usizeMax := by
  have hsum := foldl_pairEncodedSize pairs 0
  have hpos : ¬ pairs.length = 0 := fun h => hne (List.length_eq_zero_iff.1 h)
  have hfirst : map.source.first = pairs := by rw [hsource]; rfl
  unfold encodedSizeOf
  rw [hfirst]
  dsimp only
  rw [if_neg hpos, satAdd, encodedLength, length_header]
  omega

theorem encodedSizeOf_nil (hsource : map.source = .steady []) : encodedSizeOf map = 0 := by
  unfold encodedSizeOf
  rw [hsource]
  rfl

/-- **The reported size is the length of the encoding.** -/
theorem encodedSizeOf_of_encodeVisited (hsource : map.source = .steady pairs)
    (hencode : encodeVisited map.source = .ok bytes) : encodedSizeOf map = bytes.length := by
  rw [hsource] at hencode
  rcases encodePairs_ok_iff.1 hencode with ⟨rfl, rfl⟩ | ⟨hne, ⟨-, hsize⟩, rfl⟩
  · exact encodedSizeOf_nil hsource
  · rw [encodedSizeOf_eq hsource hne, min_eq_left (Nat.le_trans hsize isizeMax_le),
      length_encoded]

end Sums

/-! ## The two host functions -/

section Functions

variable {env : Env} {h h₁ : HostState} {mapId returnData returnSize : I32} {mapType : MapType}
  {map : HeaderMap} {memory memory₁ bytes : Bytes} {t u : List Event}

theorem checkWord_of_ok {ptr : GuestPtr} {value : UInt32} (hread : readU32 memory ptr = .ok value) :
    (checkWord memory ptr).run h = ⟨.ok (), h, []⟩ := by
  unfold checkWord checked
  rw [hread]
  rfl

theorem proxyGetHeaderMapSize_run {found : UInt32} (hid : MapType.tryFrom mapId = some mapType)
    (hmemory : h.memory = some memory) (hsize : readU32 memory returnSize = .ok found)
    (hmap : (headerMap env mapType .read).run h = ⟨.ok map, h, t⟩) :
    (encodedSizeOf map < 2 ^ 32 → ∃ memory',
      (proxyGetHeaderMapSize env mapId returnSize).run h = ⟨.ok (), h.setMemory memory', t⟩ ∧
      readU32 memory' returnSize = .ok (UInt32.ofNat (encodedSizeOf map))) ∧
    (2 ^ 32 ≤ encodedSizeOf map →
      (proxyGetHeaderMapSize env mapId returnSize).run h =
        ⟨.err (.status .internalFailure), h, t⟩) := by
  have hlook : (orStatus (MapType.tryFrom mapId) .badArgument).run h = ⟨.ok mapType, h, []⟩ := by
    rw [hid]
    rfl
  unfold proxyGetHeaderMapSize
  rw [bind_of_ok_nil hlook, bind_of_ok_nil (split_run hmemory),
    bind_of_ok_nil (checkWord_of_ok hsize), bind_of_ok hmap]
  dsimp only
  constructor
  · intro hsmall
    obtain ⟨memory', hwrite⟩ := writeU32_of_readU32 hsize le_rfl (UInt32.ofNat (encodedSizeOf map))
    refine ⟨memory', ?_, readU32_of_writeU32 hwrite⟩
    rw [require, Prog.require, if_pos hsmall, bind_of_ok_nil (a := ()) (r := h) rfl, writeU32,
      writeMemory, bind_of_ok_nil (split_run hmemory), hwrite]
    exact congrArg (Res.mk _ _) (List.append_nil t)
  · intro hlarge
    rw [require, Prog.require, if_neg (not_lt.2 hlarge), bind_of_err (e := .status .internalFailure)
      (r := h) (t := []) rfl]
    exact congrArg (Res.mk _ _) (List.append_nil t)

theorem proxyGetHeaderMapPairs_run {found found' : UInt32}
    (hid : MapType.tryFrom mapId = some mapType)
    (hmemory : h.memory = some memory) (hdata : readU32 memory returnData = .ok found)
    (hsize : readU32 memory returnSize = .ok found')
    (hmap : (headerMap env mapType .read).run h = ⟨.ok map, h, t⟩)
    (hencode : encodeVisited map.source = .ok bytes) :
    (proxyGetHeaderMapPairs env mapId returnData returnSize).run h =
      ⟨((env.writeReturn bytes returnData returnSize).run h).exit,
        ((env.writeReturn bytes returnData returnSize).run h).state,
        t ++ ((env.writeReturn bytes returnData returnSize).run h).trace⟩ := by
  have hlook : (orStatus (MapType.tryFrom mapId) .badArgument).run h = ⟨.ok mapType, h, []⟩ := by
    rw [hid]
    rfl
  unfold proxyGetHeaderMapPairs
  rw [bind_of_ok_nil hlook, bind_of_ok_nil (split_run hmemory),
    bind_of_ok_nil (checkWord_of_ok hdata), bind_of_ok_nil (checkWord_of_ok hsize), bind_of_ok hmap,
    hencode, bind_of_ok_nil (a := bytes) (r := h) rfl]

end Functions

/-- **The size and the pairs agree.** For a map that yields the same pairs on every walk, the
    size the guest is told is the length of the encoding. Where that fits 31 bits, it is the
    size stored with the pairs, whenever they are returned, as they are when the allocator
    finds room; and a map too large for a word reports no size. -/
theorem header_map_sizes (map : HeaderMap) (pairs : List Pair) (hsource : map.source = .steady pairs) :
    (∀ bytes, encodeVisited map.source = .ok bytes → encodedSizeOf map = bytes.length) ∧
    (pairs ≠ [] → encodedSizeOf map = min (encodedLength pairs) usizeMax) ∧
    ∀ (env : Env) (h : HostState) (t : List Event) (mapId returnData returnSize : I32)
      (mapType : MapType) (memory : Bytes) (found found' : UInt32),
      MapType.tryFrom mapId = some mapType →
      (headerMap env mapType .read).run h = ⟨.ok map, h, t⟩ → h.memory = some memory →
      readU32 memory returnData = .ok found → readU32 memory returnSize = .ok found' →
      (∀ bytes, encodeVisited map.source = .ok bytes → bytes.length < 2 ^ 31 →
        (∃ memory', (proxyGetHeaderMapSize env mapId returnSize).run h =
            ⟨.ok (), h.setMemory memory', t⟩ ∧
          readU32 memory' returnSize = .ok (UInt32.ofNat bytes.length)) ∧
        (Grows env.allocator →
          ((proxyGetHeaderMapPairs env mapId returnData returnSize).run h).exit = .ok () →
          ∃ memory', ((proxyGetHeaderMapPairs env mapId returnData returnSize).run h).state.memory =
              some memory' ∧ readU32 memory' returnSize = .ok (UInt32.ofNat bytes.length)) ∧
        ∀ address h₁ memory₁ u, Room env.allocator h memory bytes.length address h₁ memory₁ u →
          ∃ memory', Returned memory₁ bytes address returnData returnSize memory' ∧
            (proxyGetHeaderMapPairs env mapId returnData returnSize).run h =
              ⟨.ok (), h₁.setMemory memory', t ++ u⟩) ∧
      (pairs ≠ [] → 2 ^ 32 ≤ encodedLength pairs →
        (proxyGetHeaderMapSize env mapId returnSize).run h =
          ⟨.err (.status .internalFailure), h, t⟩) := by
  refine ⟨fun bytes => encodedSizeOf_of_encodeVisited hsource, encodedSizeOf_eq hsource, ?_⟩
  intro env h t mapId returnData returnSize mapType memory found found' hid hmap hmemory hdata hsize
  obtain ⟨hsmall, hlarge⟩ := proxyGetHeaderMapSize_run hid hmemory hsize hmap
  refine ⟨fun bytes hencode hfits => ?_, fun hne hlong => ?_⟩
  · have hpairs := proxyGetHeaderMapPairs_run hid hmemory hdata hsize hmap hencode
    have hlength := encodedSizeOf_of_encodeVisited hsource hencode
    rw [hlength] at hsmall
    refine ⟨hsmall (by omega), fun hgrows hexit => ?_, fun address h₁ memory₁ u hroom => ?_⟩
    · rw [hpairs] at hexit ⊢
      exact size_of_writeReturn hgrows hexit
    · obtain ⟨memory', hreturned, hrun⟩ := hroom.returns hmemory hdata hsize
      refine ⟨memory', hreturned, ?_⟩
      rw [hpairs, Env.writeReturn, hrun]
  · refine hlarge ?_
    rw [encodedSizeOf_eq hsource hne]
    exact le_min hlong (by decide)

/-- The headers of a response. -/
def twoHeaders : List Pair := [([1], [2]), ([3, 4], [5])]

/-- Their encoding. -/
def twoHeadersEncoded : Bytes :=
  [2, 0, 0, 0, 1, 0, 0, 0, 1, 0, 0, 0, 2, 0, 0, 0, 1, 0, 0, 0, 1, 0, 2, 0, 3, 4, 0, 5, 0]

/-- A guest that a response with two headers is delivered to. -/
def headersDelivered : HostState :=
  { HostState.new ⟨.unlimited, none, none, none, 0⟩
      { AbiState.new 0 ⟨[], .info, [], [], 1, 2⟩ with
        delivery := some ⟨none, .httpCallResponse twoHeaders [] []⟩ }
    with memory := some (List.replicate 64 0), allocator := true }

/-- The guest is told the same size twice, and reads the headers where they were put. -/
theorem header_map_sizes_of_two :
    (∃ memory', (proxyGetHeaderMapSize ⟨.refusing, fun _ => pure 32⟩ 6 4).run headersDelivered =
        ⟨.ok (), headersDelivered.setMemory memory', []⟩ ∧
      readU32 memory' 4 = .ok (UInt32.ofNat twoHeadersEncoded.length)) ∧
    ∃ memory', (proxyGetHeaderMapPairs ⟨.refusing, fun _ => pure 32⟩ 6 0 4).run headersDelivered =
        ⟨.ok (), headersDelivered.setMemory memory', []⟩ ∧
      readU32 memory' 0 = .ok 32 ∧
      readU32 memory' 4 = .ok (UInt32.ofNat twoHeadersEncoded.length) ∧
      readRange (UInt32.ofNat twoHeadersEncoded.length) memory' 32 = .ok twoHeadersEncoded := by
  have hencode : encodeVisited (vecHeaderMap twoHeaders).source = .ok twoHeadersEncoded := rfl
  have hroom : Room (fun _ => pure 32) headersDelivered (List.replicate 64 0) twoHeadersEncoded.length 32
      headersDelivered (List.replicate 64 0) [] :=
    ⟨.block rfl rfl (by decide) (by decide) (by decide) rfl, rfl, le_rfl, by decide, by decide⟩
  obtain ⟨-, -, hfunctions⟩ := header_map_sizes (vecHeaderMap twoHeaders) twoHeaders rfl
  obtain ⟨hsmall, -⟩ := hfunctions ⟨.refusing, fun _ => pure 32⟩ headersDelivered [] 6 0 4
    .httpCallResponseHeaders (List.replicate 64 0) 0 0 rfl rfl rfl rfl rfl
  obtain ⟨hsize, -, hpairs⟩ := hsmall twoHeadersEncoded hencode (by decide)
  obtain ⟨memory', hreturned, hrun⟩ := hpairs 32 headersDelivered (List.replicate 64 0) [] hroom
  exact ⟨hsize, memory', hrun,
    hreturned.reads (.inl (by decide)) (.inr (by decide)) (.inr (by decide))⟩

end ProxyWasmHost
