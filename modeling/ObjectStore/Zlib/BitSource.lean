import ObjectStore.Error

/-!
# Reading bits

A compressed stream is read bit by bit, from the lowest bit of each byte to its highest. A
`BitSource` is what is left of it: some bits of a byte that was begun, and the bytes after that.

Every operation takes something from the front and returns it with the rest, or says that the
data ends too early.
-/

namespace ObjectStore.Zlib

/-- The rest of a stream of bits. -/
structure BitSource where
  /-- The bits left of the byte that was begun, the lowest first. -/
  pending : List Bool
  rest : Bytes

namespace BitSource

/-- All the bits of a byte string. -/
def ofBytes (b : Bytes) : BitSource := ⟨[], b⟩

/-- How many bits are left. -/
def size (s : BitSource) : Nat := s.pending.length + 8 * s.rest.length

/-- The bits of a byte from its second lowest on. -/
def laterBits (byte : UInt8) : List Bool := [1, 2, 3, 4, 5, 6, 7].map byte.toNat.testBit

/-- Take one bit. -/
def takeBit : BitSource → Except InflateFault (Bool × BitSource)
  | ⟨bit :: pending, rest⟩ => .ok (bit, ⟨pending, rest⟩)
  | ⟨[], byte :: rest⟩ => .ok (byte.toNat.testBit 0, ⟨laterBits byte, rest⟩)
  | ⟨[], []⟩ => .error .incomplete

/-- Take a number of so many bits, the lowest first. -/
def takeNumber : Nat → BitSource → Except InflateFault (Nat × BitSource)
  | 0, s => .ok (0, s)
  | width + 1, s => do
    let (bit, s) ← s.takeBit
    let (high, s) ← takeNumber width s
    return (bit.toNat + 2 * high, s)

/-- Take a row of numbers that all have so many bits. -/
def takeNumbers (width : Nat) : Nat → BitSource → Except InflateFault (List Nat × BitSource)
  | 0, s => .ok ([], s)
  | count + 1, s => do
    let (n, s) ← s.takeNumber width
    let (more, s) ← takeNumbers width count s
    return (n :: more, s)

/-- Give up the rest of the byte that was begun. -/
def align (s : BitSource) : BitSource := ⟨[], s.rest⟩

/-- Take so many whole bytes. -/
def takeBytes (count : Nat) (s : BitSource) : Except InflateFault (Bytes × BitSource) :=
  let taken := s.rest.take count
  if taken.length < count then .error .incomplete else .ok (taken, ⟨[], s.rest.drop count⟩)

/-- Bytes in front of others are taken as they are. -/
theorem takeBytes_append (taken rest : Bytes) (pending : List Bool) :
    takeBytes taken.length ⟨pending, taken ++ rest⟩ = .ok (taken, ⟨[], rest⟩) := by
  simp [takeBytes]

end BitSource

end ObjectStore.Zlib
