import ObjectStore.Zlib.BitSource

/-!
# Prefix codes

A prefix code gives each symbol a row of bits, none of which starts another one. It is a binary
tree with the symbols at its leaves.

A stream describes a code by the length of each symbol's row alone, zero for a symbol that is not
used. The rows are then handed out from the left of the tree to the right: shorter rows before
longer ones, and rows of one length in the order of the symbols. `Code.grow` builds that tree in
one walk over the sorted symbols.
-/

namespace ObjectStore.Zlib

/-- A prefix code. -/
inductive Code where
  /-- No symbol's row leads here. -/
  | unused
  | symbol (n : Nat)
  | branch (zero one : Code)

namespace Code

/-- Rows have at most this many bits. -/
def lengthLimit : Nat := 15

/-- Build the tree below a node at the given depth out of symbols with their lengths, sorted by
length. The symbols that find no place in it are left over. The first argument says how much
deeper the tree may grow. -/
def grow : Nat → Nat → List (Nat × Nat) → Code × List (Nat × Nat)
  | _, _, [] => (unused, [])
  | room, depth, (length, n) :: rest =>
    if length ≤ depth then (symbol n, rest)
    else match room with
      | 0 => (unused, (length, n) :: rest)
      | room + 1 =>
        let (zero, rest) := grow room (depth + 1) ((length, n) :: rest)
        let (one, rest) := grow room (depth + 1) rest
        (branch zero one, rest)

/-- Every row of bits leads to a symbol or starts the row of one. -/
def isComplete : Code → Bool
  | unused => false
  | symbol _ => true
  | branch zero one => zero.isComplete && one.isComplete

/-- The code with the given lengths, for the symbols counted from zero. The lengths must not ask for
more rows than there are, nor leave any out, except that `sparse` allows rows to be left out where
no row has more than one bit: a code of no symbols, or of one whose row is a single bit. -/
def ofLengths (sparse : Bool) (lengths : List Nat) : Except InflateFault Code :=
  let used := lengths.zipIdx.filter fun e => e.1 != 0
  let sorted := used.mergeSort fun a b => a.1 ≤ b.1
  let (zero, rest) := grow (lengthLimit - 1) 1 sorted
  let (one, rest) := grow (lengthLimit - 1) 1 rest
  let code := branch zero one
  if rest.isEmpty && (code.isComplete || (sparse && used.all (·.1 = 1))) then .ok code
  else .error .corrupt

/-- Read one symbol. -/
def take : Code → BitSource → Except InflateFault (Nat × BitSource)
  | unused, _ => .error .corrupt
  | symbol n, s => .ok (n, s)
  | branch zero one, s => do
    match ← s.takeBit with
    | (false, s) => zero.take s
    | (true, s) => one.take s

end Code

end ObjectStore.Zlib
