/-
  Serialization of a map of byte string pairs: the encoder, which walks its
  source twice, and the strict decoder.

  The vectors of the encoder panic where a `Vec` does, when they would need more
  than `isize::MAX` bytes; that the allocator has what they ask for is assumed.
-/
import ProxyWasmHost.Lib.GrowVec
import ProxyWasmHost.Lib.LittleEndian
import ProxyWasmHost.Lib.Prog

namespace ProxyWasmHost

open LittleEndian

abbrev Bytes := List UInt8
abbrev Pair := Bytes × Bytes

/-- `u32::MAX`, and `usize::MAX` and `isize::MAX` of a 64-bit host. -/
def u32Max : ℕ := 2 ^ 32 - 1
def usizeMax : ℕ := 2 ^ 64 - 1
def isizeMax : ℕ := 2 ^ 63 - 1

/-- `usize::saturating_add`. -/
def satAdd (a b : ℕ) : ℕ := min (a + b) usizeMax

/-- `usize::checked_add`. -/
def checkedAdd (a b : ℕ) : Option ℕ := if a + b ≤ usizeMax then some (a + b) else none

namespace Codec

/-- Which half of a pair an error refers to. -/
inductive Field where
  | key
  | value
  deriving DecidableEq, Repr

inductive DecodeError where
  | truncatedCount
  | truncatedLengths (pairs : ℕ)
  | truncatedKey (pair : ℕ)
  | truncatedValue (pair : ℕ)
  | missingTerminator (pair : ℕ) (field : Field)
  | trailingBytes (count : ℕ)
  | pairLimit (pairs limit : ℕ)
  | byteLimit (bytes limit : ℕ)
  deriving DecidableEq, Repr

inductive EncodeError where
  | tooLong (pair : ℕ) (field : Field) (len : ℕ)
  | tooManyPairs (count : ℕ)
  | tooLarge
  | changed
  deriving DecidableEq, Repr

/-- What one decode of a map a guest sends may read. -/
structure PairLimits where
  pairs : Option ℕ
  bytes : Option ℕ
  deriving DecidableEq, Repr

def PairLimits.unlimited : PairLimits := ⟨none, none⟩

def PairLimits.checkBytes (limits : PairLimits) (dataLen : ℕ) : Except DecodeError Unit :=
  match limits.bytes with
  | some limit => if dataLen > limit then .error (.byteLimit dataLen limit) else .ok ()
  | none => .ok ()

def PairLimits.checkPairs (limits : PairLimits) (pairs : ℕ) : Except DecodeError Unit :=
  match limits.pairs with
  | some limit => if pairs > limit then .error (.pairLimit pairs limit) else .ok ()
  | none => .ok ()

def countSize : ℕ := 4
def lengthSize : ℕ := 4
def terminator : UInt8 := 0

/-- The encoded size of one pair with the given key and value lengths. -/
def pairEncodedSize (keyLen valueLen : ℕ) : ℕ :=
  satAdd (satAdd (satAdd (satAdd (2 * lengthSize) keyLen) 1) valueLen) 1

/-! ## The encoder -/

/-- What a source yields: the pairs of its first walk, and those of its second. -/
structure PairSource where
  first : List Pair
  second : List Pair
  deriving DecidableEq, Repr

/-- A source that yields one list on every walk. -/
def PairSource.steady (pairs : List Pair) : PairSource := ⟨pairs, pairs⟩

/-- One walk: the visitor receives each pair in order until it breaks, which
    it says with `false`, or panics. -/
def walk {σ : Type} (visitor : σ → Bytes → Bytes → Option (σ × Bool)) :
    List Pair → σ → Option σ
  | [], s => some s
  | (k, v) :: pairs, s =>
    match visitor s k v with
    | some (s', true) => walk visitor pairs s'
    | some (s', false) => some s'
    | none => none

def lengthOf (pair : ℕ) (field : Field) (bytes : Bytes) : Except EncodeError ℕ :=
  if bytes.length ≤ u32Max then .ok bytes.length else .error (.tooLong pair field bytes.length)

/-- How many pairs of two words a vector has room for at most. -/
def maxLengths : ℕ := isizeMax / (2 * lengthSize)

/-- The visitor of the first walk: the lengths so far, and the failure that
    stopped it. -/
def measureVisitor (s : GrowVec (ℕ × ℕ) × Option EncodeError) (key value : Bytes) :
    Option ((GrowVec (ℕ × ℕ) × Option EncodeError) × Bool) :=
  let pair := s.1.items.length
  match lengthOf pair .key key, lengthOf pair .value value with
  | .ok keyLen, .ok valueLen =>
    (s.1.push maxLengths (keyLen, valueLen)).map fun lengths => ((lengths, s.2), true)
  | .error e, _ => some ((s.1, some e), false)
  | .ok _, .error e => some ((s.1, some e), false)

def measure (first : List Pair) : Exit EncodeError (List (ℕ × ℕ)) :=
  match walk measureVisitor first (.empty, none) with
  | some (_, some error) => .err error
  | some (lengths, none) => .ok lengths.items
  | none => .panicked

/-- The exact size of the encoding, or `none` when it does not fit `usize`. -/
def measuredSize (lengths : List (ℕ × ℕ)) : Option ℕ :=
  lengths.foldlM (fun sum l => checkedAdd sum (pairEncodedSize l.1 l.2)) countSize

/-- What the second walk appends for a pair. -/
def pieces (key value : Bytes) : List Bytes := [key, [terminator], value, [terminator]]

/-- The visitor of the second walk, which stops after `count` pairs: the bytes
    and the number of pairs written so far. -/
def writeVisitor (count : ℕ) (s : GrowVec UInt8 × ℕ) (key value : Bytes) :
    Option ((GrowVec UInt8 × ℕ) × Bool) :=
  if s.2 = count then some (s, false)
  else (s.1.extendAll isizeMax (pieces key value)).map fun out => ((out, s.2 + 1), true)

def lengthTable (lengths : List (ℕ × ℕ)) : Bytes :=
  lengths.flatMap fun l => toBytes lengthSize l.1 ++ toBytes lengthSize l.2

/-- Encodes the pairs that `source` yields. -/
def encodeVisited (source : PairSource) : Exit EncodeError Bytes := do
  let lengths ← measure source.first
  if lengths = [] then return []
  let count ← if lengths.length ≤ u32Max then .ok lengths.length
    else .err (.tooManyPairs lengths.length)
  let size ← match measuredSize lengths with
    | some size => .ok size
    | none => .err .tooLarge
  let out ← .orPanic (GrowVec.withCapacity isizeMax size)
  -- The count and the table are written word by word, all within the capacity.
  let out ← .orPanic (out.extend isizeMax (toBytes countSize count ++ lengthTable lengths))
  let (out, _) ← .orPanic (walk (writeVisitor lengths.length) source.second (out, 0))
  if out.items.length = size then return out.items else .err .changed

/-- Encodes pairs in the order given. -/
def encodePairs (pairs : List Pair) : Exit EncodeError Bytes := encodeVisited (.steady pairs)

/-! ## The decoder -/

/-- The read position inside the data section of an encoded map. -/
structure Cursor where
  data : Bytes
  pos : ℕ
  pair : ℕ

/-- Takes `len` bytes and their terminator for one field of the current pair. -/
def Cursor.take (c : Cursor) (len : ℕ) (field : Field) : Except DecodeError (Bytes × Cursor) :=
  let truncated := match field with
    | .key => DecodeError.truncatedKey c.pair
    | .value => DecodeError.truncatedValue c.pair
  match checkedAdd c.pos len with
  | none => .error truncated
  | some stop =>
    if stop ≤ c.data.length then
      match c.data[stop]? with
      | none => .error truncated
      | some byte =>
        if byte = terminator then
          .ok ((c.data.take stop).drop c.pos, { c with pos := stop + 1 })
        else .error (.missingTerminator c.pair field)
    else .error truncated

def Cursor.finish (c : Cursor) : Except DecodeError Unit :=
  let remaining := c.data.length - c.pos
  if remaining = 0 then .ok () else .error (.trailingBytes remaining)

/-- The length table as its chunks of two words. -/
def readTable : Bytes → List (ℕ × ℕ)
  | a :: b :: c :: d :: e :: f :: g :: h :: rest =>
    (ofBytes [a, b, c, d], ofBytes [e, f, g, h]) :: readTable rest
  | _ => []

/-- The loop of the decoder over the length table. -/
def decodeTable : List (ℕ × ℕ) → Cursor → Except DecodeError (List Pair × Cursor)
  | [], c => .ok ([], c)
  | (keyLen, valueLen) :: table, c => do
    let (key, c) ← c.take keyLen .key
    let (value, c) ← c.take valueLen .value
    let (pairs, c) ← decodeTable table { c with pair := c.pair + 1 }
    return ((key, value) :: pairs, c)

/-- Decodes an encoded map into its pairs. -/
def decodePairs (data : Bytes) (limits : PairLimits) : Except DecodeError (List Pair) := do
  limits.checkBytes data.length
  if data = [] ∨ data = [terminator] then return []
  if data.length < countSize then .error .truncatedCount
  let count := ofBytes (data.take countSize)
  limits.checkPairs count
  -- A `u32` count times eight never leaves a 64-bit `usize`.
  let tableEnd := countSize + count * (2 * lengthSize)
  if data.length < tableEnd then .error (.truncatedLengths count)
  let table := readTable ((data.take tableEnd).drop countSize)
  let (pairs, cursor) ← decodeTable table ⟨data, tableEnd, 0⟩
  cursor.finish
  return pairs

end Codec

end ProxyWasmHost
