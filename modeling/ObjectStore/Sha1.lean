import ObjectStore.Bytes

/-!
# SHA-1

The digest of FIPS 180-4 on byte strings. A message is padded to whole blocks of 64 bytes; each
block is folded into five words by eighty rounds; the words, most significant byte first, are the
digest. A digest is twenty bytes long (`length_digest`).
-/

namespace ObjectStore.Sha1

/-- The five words carried from block to block. -/
structure Chain where
  a : UInt32
  b : UInt32
  c : UInt32
  d : UInt32
  e : UInt32
  deriving DecidableEq

/-- The words before the first block. -/
def Chain.start : Chain := ⟨0x67452301, 0xEFCDAB89, 0x98BADCFE, 0x10325476, 0xC3D2E1F0⟩

/-- Word-by-word addition. -/
def Chain.add (x y : Chain) : Chain :=
  ⟨x.a + y.a, x.b + y.b, x.c + y.c, x.d + y.d, x.e + y.e⟩

/-- Rotation to the left, by less than 32 places. -/
def rotate (x n : UInt32) : UInt32 := (x <<< n) ||| (x >>> (32 - n))

/-- The mixing function and the constant of round `t`. -/
def mix (t : Nat) (b c d : UInt32) : UInt32 × UInt32 :=
  if t < 20 then ((b &&& c) ||| (~~~b &&& d), 0x5A827999)
  else if t < 40 then (b ^^^ c ^^^ d, 0x6ED9EBA1)
  else if t < 60 then ((b &&& c) ||| (b &&& d) ||| (c &&& d), 0x8F1BBCDC)
  else (b ^^^ c ^^^ d, 0xCA62C1D6)

/-- Round `t` with schedule word `w`. -/
def round (t : Nat) (w : UInt32) (s : Chain) : Chain :=
  let (f, k) := mix t s.b s.c s.d
  ⟨rotate s.a 5 + f + s.e + k + w, s.a, rotate s.b 30, s.c, s.d⟩

/-- Drop the oldest of sixteen schedule words and append the one they determine. -/
def slide : List UInt32 → List UInt32
  | w :: rest =>
    rest ++ [rotate (rest.getD 12 0 ^^^ rest.getD 7 0 ^^^ rest.getD 1 0 ^^^ w) 1]
  | [] => []

/-- The last `n` of the eighty rounds, with the schedule words from here on in front. -/
def rounds : Nat → List UInt32 → Chain → Chain
  | 0, _, s => s
  | n + 1, window, s => rounds n (slide window) (round (79 - n) (window.headD 0) s)

/-- The word four bytes spell, most significant first. -/
def word (a b c d : UInt8) : UInt32 :=
  (a.toUInt32 <<< 24) ||| (b.toUInt32 <<< 16) ||| (c.toUInt32 <<< 8) ||| d.toUInt32

/-- The words of a byte string. -/
def words : Bytes → List UInt32
  | a :: b :: c :: d :: rest => word a b c d :: words rest
  | _ => []

/-- Fold one block of 64 bytes in. -/
def compress (s : Chain) (block : Bytes) : Chain := s.add (rounds 80 (words block) s)

/-- The words so far, and the bytes of the block being filled, held backwards. -/
structure Absorbed where
  chain : Chain
  held : Bytes
  count : Nat

/-- Take in one byte. -/
def Absorbed.push (s : Absorbed) (b : UInt8) : Absorbed :=
  if s.count = 63 then ⟨compress s.chain (b :: s.held).reverse, [], 0⟩
  else ⟨s.chain, b :: s.held, s.count + 1⟩

/-- The bytes of a number, most significant first. -/
def bigEndian : Nat → Nat → Bytes
  | 0, _ => []
  | width + 1, n => UInt8.ofNat (n >>> (8 * width)) :: bigEndian width n

/-- What is appended to a message of `n` bytes: a one bit, zeros, and its length in bits. -/
def padding (n : Nat) : Bytes :=
  0x80 :: List.replicate ((119 - n % 64) % 64) 0 ++ bigEndian 8 (8 * n)

/-- The four bytes of a word, most significant first. -/
def wordBytes (w : UInt32) : Bytes := bigEndian 4 w.toNat

/-- The digest of a message. -/
def digest (message : Bytes) : Bytes :=
  let absorbed := (message ++ padding message.length).foldl Absorbed.push ⟨Chain.start, [], 0⟩
  let s := absorbed.chain
  wordBytes s.a ++ wordBytes s.b ++ wordBytes s.c ++ wordBytes s.d ++ wordBytes s.e

/-- A number is written in as many bytes as asked for. -/
@[simp] theorem length_bigEndian (width n : Nat) : (bigEndian width n).length = width := by
  induction width with
  | zero => rfl
  | succ k ih => simp [bigEndian, ih]

/-- A digest has twenty bytes. -/
@[simp] theorem length_digest (message : Bytes) : (digest message).length = 20 := by
  simp [digest, wordBytes]

end ObjectStore.Sha1
