import ObjectStore.Bytes

/-!
# The checksum of a stream

Two sums modulo the greatest prime below 2^16: of the bytes, starting from one, and of all the
values the first sum takes. The checksum is the second sum and the first one, as four bytes with
the highest first.
-/

namespace ObjectStore.Zlib

/-- The sums are taken modulo this prime. -/
def checksumModulus : Nat := 65521

/-- Both sums over a byte string. -/
def checksumPair (b : Bytes) : Nat × Nat :=
  b.foldl (fun (low, high) byte =>
    let low := (low + byte.toNat) % checksumModulus
    (low, (high + low) % checksumModulus)) (1, 0)

/-- A number below 2^16 as two bytes, the higher one first. -/
def bigPair (n : Nat) : Bytes := [UInt8.ofNat (n / 256), UInt8.ofNat n]

/-- The checksum of a byte string. -/
def checksum (b : Bytes) : Bytes := bigPair (checksumPair b).2 ++ bigPair (checksumPair b).1

/-- A checksum has four bytes. -/
@[simp] theorem length_checksum (b : Bytes) : (checksum b).length = 4 := rfl

end ObjectStore.Zlib
