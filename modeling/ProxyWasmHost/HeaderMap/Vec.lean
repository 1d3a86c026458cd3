/-
  The header map that the crate ships: a vector of pairs in insertion order.
-/
import ProxyWasmHost.HostFunctions.BufferRange

namespace ProxyWasmHost

open Multimap

/-! ## The model -/

/-- `Vec::retain_mut`: the visitor finds the elements in order, may change each and says
    whether it stays, and `σ` is what it captures. -/
def retainMut {σ α : Type} (visitor : σ → α → σ × α × Bool) : List α → σ → List α × σ
  | [], s => ([], s)
  | a :: rest, s =>
    let (s, a, stays) := visitor s a
    let (rest, s) := retainMut visitor rest s
    (if stays then a :: rest else rest, s)

/-- A header map stored as a vector of pairs; it allows every write. -/
@[ext] structure VecHeaderMap where
  pairs : List Pair
  deriving DecidableEq

namespace VecHeaderMap

def get (map : VecHeaderMap) (key : Bytes) : Option Bytes :=
  (map.pairs.find? fun pair => pair.1 = key).map (·.2)

/-- What `set` does with each pair; the flag tells whether it has kept one of `key`. -/
def setVisitor (key value : Bytes) (keptOne : Bool) (pair : Pair) : Bool × Pair × Bool :=
  if pair.1 ≠ key then (keptOne, pair, true)
  else if keptOne then (keptOne, pair, false)
  else (true, (pair.1, value), true)

def set (map : VecHeaderMap) (key value : Bytes) : VecHeaderMap :=
  let (pairs, keptOne) := retainMut (setVisitor key value) map.pairs false
  ⟨if keptOne then pairs else pairs ++ [(key, value)]⟩

def add (map : VecHeaderMap) (key value : Bytes) : VecHeaderMap := ⟨map.pairs ++ [(key, value)]⟩

def remove (map : VecHeaderMap) (key : Bytes) : VecHeaderMap :=
  ⟨map.pairs.filter fun pair => pair.1 ≠ key⟩

def replaceAll (_map : VecHeaderMap) (pairs : List Pair) : VecHeaderMap := ⟨pairs⟩

def apply (map : VecHeaderMap) : Write Bytes Bytes → VecHeaderMap
  | .set key value => map.set key value
  | .add key value => map.add key value
  | .remove key => map.remove key
  | .replaceAll pairs => map.replaceAll pairs

/-- The map after a sequence of writes. -/
def run (map : VecHeaderMap) (writes : List (Write Bytes Bytes)) : VecHeaderMap :=
  writes.foldl apply map

variable {map : VecHeaderMap} {key value : Bytes} {pairs before after : List Pair}

/-! ## What `set` leaves -/

/-- Once one pair was kept, every further one of the key goes. -/
theorem retainMut_setVisitor_true (key value : Bytes) (pairs : List Pair) :
    retainMut (setVisitor key value) pairs true = (others key pairs, true) := by
  induction pairs with
  | nil => rfl
  | cons pair rest ih =>
    rw [retainMut]
    by_cases hpair : pair.1 = key
    · simp [setVisitor, hpair, ih, others]
    · simp [setVisitor, hpair, ih, others]

/-- The pairs before the first one of the key stay as they are. -/
theorem retainMut_setVisitor_append (hbefore : ∀ pair ∈ before, pair.1 ≠ key) :
    retainMut (setVisitor key value) (before ++ pairs) false =
      (before ++ (retainMut (setVisitor key value) pairs false).1,
        (retainMut (setVisitor key value) pairs false).2) := by
  induction before with
  | nil => rfl
  | cons pair rest ih =>
    obtain ⟨hpair, hrest⟩ := List.forall_mem_cons.1 hbefore
    rw [List.cons_append, retainMut]
    simp [setVisitor, hpair, ih hrest]

/-- **`set` changes the first pair** of the key, and drops the others it has. -/
theorem pairs_set_of_first {found : Bytes} (hbefore : ∀ pair ∈ before, pair.1 ≠ key) :
    (set ⟨before ++ (key, found) :: after⟩ key value).pairs =
      before ++ (key, value) :: others key after := by
  unfold set
  rw [retainMut_setVisitor_append hbefore, retainMut]
  simp [setVisitor, retainMut_setVisitor_true]

example : (set ⟨[([1], [1]), ([2], [2]), ([1], [3])]⟩ [1] [9]).pairs = [([1], [9]), ([2], [2])] := by
  decide

/-- **`set` appends** a pair for a key that has none. -/
theorem pairs_set_of_absent (habsent : ∀ pair ∈ map.pairs, pair.1 ≠ key) :
    (map.set key value).pairs = map.pairs ++ [(key, value)] := by
  have happend : retainMut (setVisitor key value) (map.pairs ++ []) false = _ :=
    retainMut_setVisitor_append habsent
  rw [List.append_nil, retainMut, List.append_nil] at happend
  unfold set
  rw [happend]
  rfl

/-- `set` leaves exactly one pair of its key. -/
theorem pairsOf_set : pairsOf key (map.set key value).pairs = [(key, value)] := by
  rcases eq_or_first key map.pairs with habsent | ⟨before, found, after, hpairs, hbefore⟩
  · rw [pairs_set_of_absent habsent, pairsOf_append, pairsOf_of_forall_ne habsent,
      pairsOf_cons_self]
    rfl
  · obtain rfl : map = ⟨before ++ (key, found) :: after⟩ := VecHeaderMap.ext hpairs
    rw [pairs_set_of_first hbefore, pairsOf_append, pairsOf_of_forall_ne hbefore,
      pairsOf_cons_self, pairsOf_others_self, List.nil_append]

/-- `set` leaves the pairs of every other key, in their order. -/
theorem others_set : others key (map.set key value).pairs = others key map.pairs := by
  rcases eq_or_first key map.pairs with habsent | ⟨before, found, after, hpairs, hbefore⟩
  · rw [pairs_set_of_absent habsent, others_append, others_cons_self]
    exact List.append_nil _
  · obtain rfl : map = ⟨before ++ (key, found) :: after⟩ := VecHeaderMap.ext hpairs
    rw [pairs_set_of_first hbefore, others_append, others_append, others_cons_self,
      others_cons_self, others_others]

theorem set_set : (map.set key value).set key value = map.set key value := by
  refine VecHeaderMap.ext ?_
  rcases eq_or_first key map.pairs with habsent | ⟨before, found, after, hpairs, hbefore⟩
  · have hset : map.set key value = ⟨map.pairs ++ (key, value) :: []⟩ :=
      VecHeaderMap.ext (pairs_set_of_absent habsent)
    rw [hset, pairs_set_of_first habsent]
    rfl
  · obtain rfl : map = ⟨before ++ (key, found) :: after⟩ := VecHeaderMap.ext hpairs
    have hset : set ⟨before ++ (key, found) :: after⟩ key value =
        ⟨before ++ (key, value) :: others key after⟩ :=
      VecHeaderMap.ext (pairs_set_of_first hbefore)
    rw [hset, pairs_set_of_first hbefore, others_others]

/-- `set` and a removal followed by `add` differ in the place of the one pair. -/
theorem set_eq_remove_add (map : VecHeaderMap) (key value : Bytes) :
    ∃ before after, (map.set key value).pairs = before ++ (key, value) :: after ∧
      ((map.remove key).add key value).pairs = before ++ after ++ [(key, value)] := by
  rcases eq_or_first key map.pairs with habsent | ⟨before, found, after, hpairs, hbefore⟩
  · refine ⟨map.pairs, [], pairs_set_of_absent habsent, ?_⟩
    rw [List.append_nil]
    exact congrArg (· ++ [(key, value)]) (others_of_forall_ne habsent)
  · obtain rfl : map = ⟨before ++ (key, found) :: after⟩ := VecHeaderMap.ext hpairs
    refine ⟨before, others key after, pairs_set_of_first hbefore, ?_⟩
    refine congrArg (· ++ [(key, value)]) ?_
    show others key (before ++ (key, found) :: after) = before ++ others key after
    rw [others_append, others_of_forall_ne hbefore, others_cons_self]

/-! ## The other operations -/

theorem get_eq (map : VecHeaderMap) (key : Bytes) : map.get key = (ofPairs map.pairs key).head? := by
  rw [get, ofPairs, pairsOf, List.head?_map, List.head?_filter]

/-- `get` answers the first value. -/
theorem get_of_first {found : Bytes} (hbefore : ∀ pair ∈ before, pair.1 ≠ key) :
    get ⟨before ++ (key, found) :: after⟩ key = some found := by
  rw [get_eq, ofPairs, pairsOf_append, pairsOf_of_forall_ne hbefore, pairsOf_cons_self]
  rfl

theorem get_of_absent (habsent : ∀ pair ∈ map.pairs, pair.1 ≠ key) : map.get key = none := by
  rw [get_eq, ofPairs, pairsOf_of_forall_ne habsent]
  rfl

/-- **One write refines the multimap's.** -/
theorem ofPairs_apply (map : VecHeaderMap) (write : Write Bytes Bytes) :
    ofPairs (map.apply write).pairs = Multimap.apply (ofPairs map.pairs) write := by
  cases write with
  | set key value =>
    refine ofPairs_eq_update ?_ others_set
    rw [apply, pairsOf_set]
    rfl
  | add key value =>
    refine ofPairs_eq_update ?_ ?_
    · show (pairsOf key (map.pairs ++ [(key, value)])).map (·.2) = _
      rw [pairsOf_append, pairsOf_cons_self, List.map_append]
      rfl
    · show others key (map.pairs ++ [(key, value)]) = _
      rw [others_append, others_cons_self]
      exact List.append_nil _
  | remove key =>
    refine ofPairs_eq_update ?_ others_others
    show (pairsOf key (others key map.pairs)).map (·.2) = []
    rw [pairsOf_others_self]
    rfl
  | replaceAll pairs => rfl

/-- **A sequence of writes refines the multimap's.** -/
theorem ofPairs_run (map : VecHeaderMap) (writes : List (Write Bytes Bytes)) :
    ofPairs (map.run writes).pairs = Multimap.run (ofPairs map.pairs) writes := by
  induction writes generalizing map with
  | nil => rfl
  | cons write rest ih =>
    show ofPairs ((map.apply write).run rest).pairs = _
    rw [ih, ofPairs_apply]
    rfl

/-! ## What a guest reads of a delivered map -/

section Delivered

variable {env : Env} {h : HostState} {which : DeliveredMap} {mapType : MapType} {memory : Bytes}
  {mapId keyData keySize returnData returnSize : I32} {found found' : UInt32}

theorem delivered_run (hdelivery : h.abi.delivery.bind (·.map which) = some pairs) :
    (delivered which .read).run h = ⟨.ok (vecHeaderMap pairs), h, []⟩ := by
  unfold delivered
  rw [Prog.bind_of_ok_nil (a := h.abi.delivery) (r := h) rfl]
  dsimp only
  rw [hdelivery]
  rfl

/-- **A delivered map is read as a multimap**: a guest that asks for a key gets its first value,
    or `NOT_FOUND` when it has none. -/
theorem proxyGetHeaderMapValue_delivered (hid : MapType.tryFrom mapId = some mapType)
    (hserves : servesMap mapType = some which)
    (hdelivery : h.abi.delivery.bind (·.map which) = some pairs)
    (hmemory : h.memory = some memory)
    (hkey : GuestMemory.readRange keySize memory keyData = .ok key)
    (hdata : GuestMemory.readU32 memory returnData = .ok found)
    (hsize : GuestMemory.readU32 memory returnSize = .ok found') :
    (proxyGetHeaderMapValue env mapId keyData keySize returnData returnSize).run h =
      (ofPairs pairs key).head?.elim ⟨.err (.status .notFound), h, []⟩
        fun value => (env.writeReturn value returnData returnSize).run h := by
  have hlook : (orStatus (MapType.tryFrom mapId) .badArgument).run h = ⟨.ok mapType, h, []⟩ := by
    rw [hid]
    rfl
  have hmap : (headerMap env mapType .read).run h = ⟨.ok (vecHeaderMap pairs), h, []⟩ := by
    unfold headerMap
    rw [hserves]
    exact delivered_run hdelivery
  obtain ⟨range, hslice, hread⟩ := looks_of_readRange hkey
  unfold proxyGetHeaderMapValue
  rw [Prog.bind_of_ok_nil hlook, Prog.bind_of_ok_nil hslice, Prog.bind_of_ok_nil (split_run hmemory),
    Prog.bind_of_ok_nil (checkWord_of_ok hdata), Prog.bind_of_ok_nil (checkWord_of_ok hsize),
    Prog.bind_of_ok_nil hread, Prog.bind_of_ok_nil hmap]
  have hget : (vecHeaderMap pairs).get key = (ofPairs pairs key).head? := get_eq ⟨pairs⟩ key
  rw [hget]
  cases (ofPairs pairs key).head? with
  | none => rfl
  | some value => exact Prog.bind_of_ok_nil rfl

end Delivered

/-- **A `VecHeaderMap` is an ordered multimap**, after any sequence of writes: it holds what the
    same writes leave of a multimap, `get` finds the first pair of a key, `set` puts the one
    pair it leaves in its place, and no change of one key moves the pairs of the others. -/
theorem ordered_multimap (start : VecHeaderMap) (writes : List (Write Bytes Bytes))
    (key value : Bytes) :
    ofPairs (start.run writes).pairs = Multimap.run (ofPairs start.pairs) writes ∧
    (start.run writes).get key = (Multimap.run (ofPairs start.pairs) writes key).head? ∧
    ∀ map, map = start.run writes →
      (∀ before found after, map.pairs = before ++ (key, found) :: after →
        (∀ pair ∈ before, pair.1 ≠ key) → map.get key = some found ∧
          (map.set key value).pairs = before ++ (key, value) :: others key after) ∧
      ((∀ pair ∈ map.pairs, pair.1 ≠ key) → map.get key = none ∧
        (map.set key value).pairs = map.pairs ++ [(key, value)]) ∧
      pairsOf key (map.set key value).pairs = [(key, value)] ∧
      pairsOf key (map.remove key).pairs = [] ∧
      (map.add key value).pairs = map.pairs ++ [(key, value)] ∧
      (∀ pairs, (map.replaceAll pairs).pairs = pairs) ∧
      others key (map.set key value).pairs = others key map.pairs ∧
      others key (map.remove key).pairs = others key map.pairs ∧
      others key (map.add key value).pairs = others key map.pairs ∧
      (map.set key value).set key value = map.set key value ∧
      ∃ before after, (map.set key value).pairs = before ++ (key, value) :: after ∧
        ((map.remove key).add key value).pairs = before ++ after ++ [(key, value)] := by
  have hrun := ofPairs_run start writes
  refine ⟨hrun, by rw [get_eq, hrun], ?_⟩
  intro map _
  refine ⟨?_, fun habsent => ⟨get_of_absent habsent, pairs_set_of_absent habsent⟩, pairsOf_set,
    pairsOf_others_self, rfl, fun _ => rfl, others_set, others_others, ?_, set_set,
    set_eq_remove_add map key value⟩
  · intro before found after hpairs hbefore
    obtain rfl : map = ⟨before ++ (key, found) :: after⟩ := VecHeaderMap.ext hpairs
    exact ⟨get_of_first hbefore, pairs_set_of_first hbefore⟩
  · show others key (map.pairs ++ [(key, value)]) = others key map.pairs
    rw [others_append, others_cons_self]
    exact List.append_nil _

end VecHeaderMap

end ProxyWasmHost
