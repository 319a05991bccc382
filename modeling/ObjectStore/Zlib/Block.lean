import ObjectStore.Zlib.Code

/-!
# Blocks

Compressed data is a row of blocks. A block is stored as it is, or it is a row of symbols: literal
bytes, and references that repeat bytes from a given distance back. The symbols are written in two
prefix codes, one for literals and lengths and one for distances, which are either fixed or
described at the start of the block.

`Block.inflateAll` reads blocks up to the one marked as the last, and `Block.storedAll` writes data as
stored blocks. The main statement says that these read back (`inflateAll_storedAll`).
-/

namespace ObjectStore.Zlib.Block

/-! ## The symbols of references -/

/-- Consecutive ranges of numbers, given how many bits choose a number in each: the first number of
each range, and those bits. -/
def ranges (start : Nat) : List Nat → List (Nat × Nat)
  | [] => []
  | extra :: rest => (start, extra) :: ranges (start + (1 <<< extra)) rest

/-- The lengths of references, from symbol 257 on. The greatest length has a symbol of its own. -/
def lengthRanges : Array (Nat × Nat) :=
  (ranges 3 ([0, 0, 0, 0] ++ [0, 1, 2, 3, 4, 5].flatMap (List.replicate 4 ·)) ++ [(258, 0)]).toArray

/-- The distances of references, from symbol 0 on. -/
def distanceRanges : Array (Nat × Nat) :=
  (ranges 1 ([0, 0] ++ (List.range 14).flatMap (List.replicate 2 ·))).toArray

/-- The symbol that ends a block. -/
def endSymbol : Nat := 256

/-- Append so many bytes, each a copy of the one at the given distance back. Before the start of the
data there are zeros. -/
def copyBack (distance : Nat) : Nat → Array UInt8 → Array UInt8
  | 0, out => out
  | count + 1, out =>
    let byte := if distance ≤ out.size then (out[out.size - distance]?).getD 0 else 0
    copyBack distance count (out.push byte)

/-- The codes of a block: for literals and lengths, and for distances. -/
structure Codes where
  literal : Code
  distance : Code

/-- Read the reference whose length has the given symbol, and append what it refers to. -/
def inflateReference (codes : Codes) (n : Nat) (s : BitSource) (out : Array UInt8) :
    Except InflateFault (BitSource × Array UInt8) := do
  match lengthRanges[n - (endSymbol + 1)]? with
  | none => .error .corrupt
  | some (start, extra) =>
    let (more, s) ← s.takeNumber extra
    let (n, s) ← codes.distance.take s
    match distanceRanges[n]? with
    | none => .error .corrupt
    | some (nearest, extra) =>
      let (further, s) ← s.takeNumber extra
      return (s, copyBack (nearest + further) (start + more) out)

/-- Read symbols up to the end of the block, and append what they stand for. A symbol has at least
one bit, so the number of bits left is fuel enough. -/
def inflateSymbols (codes : Codes) :
    Nat → BitSource → Array UInt8 → Except InflateFault (BitSource × Array UInt8)
  | 0, _, _ => .error .incomplete
  | fuel + 1, s, out => do
    let (n, s) ← codes.literal.take s
    if n < endSymbol then inflateSymbols codes fuel s (out.push (UInt8.ofNat n))
    else if n = endSymbol then return (s, out)
    else
      let (s, out) ← inflateReference codes n s out
      inflateSymbols codes fuel s out

/-! ## Codes -/

/-- The codes of a block that does not describe any. -/
def fixedCodes : Except InflateFault Codes := do
  let literal ← Code.ofLengths true (List.replicate 144 8 ++ List.replicate 112 9
    ++ List.replicate 24 7 ++ List.replicate 8 8)
  let distance ← Code.ofLengths true (List.replicate 32 5)
  return ⟨literal, distance⟩

/-- The symbols of the code for lengths, in the order in which their own lengths are given. -/
def lengthSymbols : List Nat :=
  [16, 17, 18, 0, 8, 7, 9, 6, 10, 5, 11, 4, 12, 3, 13, 2, 14, 1, 15]

/-- Read a run of equal lengths: a length, or an order to repeat the previous one or zero. The
second number is one less than the length of the run. -/
def takeRun (code : Code) (previous : Option Nat) (s : BitSource) :
    Except InflateFault (Nat × Nat × BitSource) := do
  let (n, s) ← code.take s
  if n < 16 then return (n, 0, s)
  else if n = 16 then
    match previous with
    | none => .error .corrupt
    | some length =>
      let (more, s) ← s.takeNumber 2
      return (length, 2 + more, s)
  else if n = 17 then
    let (more, s) ← s.takeNumber 3
    return (0, 2 + more, s)
  else
    let (more, s) ← s.takeNumber 7
    return (0, 10 + more, s)

/-- Read so many lengths, after the given ones, which are held backwards. -/
def takeLengths (code : Code) (missing : Nat) (before : List Nat) (s : BitSource) :
    Except InflateFault (List Nat × BitSource) :=
  if missing = 0 then .ok (before.reverse, s)
  else do
    let (length, more, s) ← takeRun code before.head? s
    if more < missing then
      takeLengths code (missing - (more + 1)) (List.replicate (more + 1) length ++ before) s
    else .error .corrupt
termination_by missing
decreasing_by omega

/-- Read the description of a block's codes. -/
def takeCodes (s : BitSource) : Except InflateFault (Codes × BitSource) := do
  let (literals, s) ← s.takeNumber 5
  let (distances, s) ← s.takeNumber 5
  let (lengths, s) ← s.takeNumber 4
  if 286 < 257 + literals ∨ 30 < 1 + distances then .error .corrupt
  else
    let (given, s) ← s.takeNumbers 3 (4 + lengths)
    let lengthOf (n : Nat) : Nat := ((lengthSymbols.zip given).lookup n).getD 0
    let code ← Code.ofLengths false ((List.range lengthSymbols.length).map lengthOf)
    let (all, s) ← takeLengths code (257 + literals + (1 + distances)) [] s
    let distance ← Code.ofLengths true (all.drop (257 + literals))
    let literal ← Code.ofLengths true (all.take (257 + literals))
    return (⟨literal, distance⟩, s)

/-! ## Blocks -/

/-- A number of two bytes, the lower one first. -/
def littlePair : Bytes → Nat
  | low :: high :: _ => low.toNat + 256 * high.toNat
  | _ => 0

/-- Read a stored block: its size, the complement of its size, and its bytes. -/
def inflateStored (s : BitSource) (out : Array UInt8) :
    Except InflateFault (BitSource × Array UInt8) := do
  let (size, s) ← s.align.takeBytes 2
  let (complement, s) ← s.takeBytes 2
  if littlePair size + littlePair complement = 0xFFFF then
    let (content, s) ← s.takeBytes (littlePair size)
    return (s, out ++ content)
  else .error .corrupt

/-- Read one block of the given type. -/
def inflate (type : Nat) (s : BitSource) (out : Array UInt8) :
    Except InflateFault (BitSource × Array UInt8) :=
  match type with
  | 0 => inflateStored s out
  | 1 => do inflateSymbols (← fixedCodes) s.size s out
  | 2 => do
    let (codes, s) ← takeCodes s
    inflateSymbols codes s.size s out
  | _ => .error .corrupt

/-- Read blocks up to the last one. A block has at least three bits, so the number of bits left is
fuel enough. -/
def inflateAll : Nat → BitSource → Array UInt8 → Except InflateFault (BitSource × Array UInt8)
  | 0, _, _ => .error .incomplete
  | fuel + 1, s, out => do
    let (last, s) ← s.takeBit
    let (type, s) ← s.takeNumber 2
    let (s, out) ← inflate type s out
    if last then return (s, out) else inflateAll fuel s out

/-! ## Writing -/

/-- Stored blocks are at most this long. -/
def sizeLimit : Nat := 0xFFFF

/-- A stored block. -/
def stored (last : Bool) (content : Bytes) : Bytes :=
  let size := content.length
  let complement := 0xFFFF - size
  UInt8.ofNat last.toNat
    :: [UInt8.ofNat size, UInt8.ofNat (size / 256), UInt8.ofNat complement,
        UInt8.ofNat (complement / 256)] ++ content

/-- Data as a row of stored blocks. -/
def storedAll (data : Bytes) : Bytes :=
  if data.length ≤ sizeLimit then stored true data
  else stored false (data.take sizeLimit) ++ storedAll (data.drop sizeLimit)
termination_by data.length
decreasing_by
  simp only [List.length_drop]
  have : 0 < sizeLimit := by decide
  omega

/-! ### Stored blocks read back -/

/-- A number of two bytes reads back. -/
theorem littlePair_of_lt {n : Nat} (h : n < 0x10000) (rest : Bytes) :
    littlePair (UInt8.ofNat n :: UInt8.ofNat (n / 256) :: rest) = n := by
  simp only [littlePair, UInt8.toNat_ofNat']
  omega

/-- A stored block's size, its complement and its bytes read back. -/
theorem inflateStored_append {content : Bytes} (h : content.length ≤ sizeLimit)
    (pending : List Bool) (rest : Bytes) (out : Array UInt8) :
    inflateStored ⟨pending, (UInt8.ofNat content.length :: UInt8.ofNat (content.length / 256)
        :: UInt8.ofNat (0xFFFF - content.length) :: UInt8.ofNat ((0xFFFF - content.length) / 256)
        :: content) ++ rest⟩ out = .ok (⟨[], rest⟩, out ++ content) := by
  have hsize : content.length < 0x10000 := by unfold sizeLimit at h; omega
  have hcomp : 0xFFFF - content.length < 0x10000 := by omega
  have hsum : content.length + (0xFFFF - content.length) = 0xFFFF := by omega
  simp [inflateStored, BitSource.align, BitSource.takeBytes, bind, Except.bind,
    littlePair_of_lt hsize, littlePair_of_lt hcomp, hsum, pure, Except.pure]

/-- The first byte of a stored block says whether it is the last one. -/
theorem takeBit_flag (last : Bool) (rest : Bytes) :
    BitSource.takeBit ⟨[], UInt8.ofNat last.toNat :: rest⟩
      = .ok (last, ⟨List.replicate 7 false, rest⟩) := by
  cases last <;> rfl

/-- Reading blocks goes on after a stored block, unless it was the last one. -/
theorem inflateAll_stored {content : Bytes} (h : content.length ≤ sizeLimit) (last : Bool)
    (fuel : Nat) (rest : Bytes) (out : Array UInt8) :
    inflateAll (fuel + 1) ⟨[], stored last content ++ rest⟩ out =
      if last then .ok (⟨[], rest⟩, out ++ content)
      else inflateAll fuel ⟨[], rest⟩ (out ++ content) := by
  have hread := inflateStored_append h (List.replicate 5 false) rest out
  have htype (r : Bytes) : BitSource.takeNumber 2 ⟨List.replicate 7 false, r⟩
      = .ok (0, ⟨List.replicate 5 false, r⟩) := rfl
  simp only [List.cons_append] at hread
  simp only [inflateAll, stored, List.cons_append, List.nil_append, takeBit_flag, htype,
    bind, Except.bind, inflate, hread, pure, Except.pure]

/-- Data written as stored blocks reads back, and what follows the blocks is left. -/
theorem inflateAll_storedAll (data rest : Bytes) (fuel : Nat) (out : Array UInt8)
    (hfuel : data.length < fuel) :
    inflateAll fuel ⟨[], storedAll data ++ rest⟩ out = .ok (⟨[], rest⟩, out ++ data) := by
  fun_induction storedAll data generalizing fuel out with
  | case1 data h =>
    obtain ⟨fuel, rfl⟩ : ∃ n, fuel = n + 1 := ⟨fuel - 1, by omega⟩
    rw [inflateAll_stored h, if_pos rfl]
  | case2 data h ih =>
    obtain ⟨fuel, rfl⟩ : ∃ n, fuel = n + 1 := ⟨fuel - 1, by omega⟩
    have hlimit : 0 < sizeLimit := by decide
    have htake : (data.take sizeLimit).length ≤ sizeLimit := by
      rw [List.length_take]; omega
    have hleft : (data.drop sizeLimit).length < fuel := by
      rw [List.length_drop]; omega
    rw [List.append_assoc, inflateAll_stored htake, if_neg Bool.false_ne_true, ih _ _ hleft]
    have hjoin : out ++ data.take sizeLimit ++ data.drop sizeLimit = out ++ data := by
      apply Array.toList_inj.mp
      simp
    rw [hjoin]

/-- Every byte of the data is in its blocks, and the blocks have more than that. -/
theorem length_lt_storedAll (data : Bytes) : data.length < (storedAll data).length := by
  fun_induction storedAll data with
  | case1 data h =>
    simp only [stored, List.length_append, List.length_cons]
    omega
  | case2 data h ih =>
    simp only [stored, List.length_append, List.length_drop, List.length_take,
      List.length_cons] at ih ⊢
    omega

end ObjectStore.Zlib.Block
