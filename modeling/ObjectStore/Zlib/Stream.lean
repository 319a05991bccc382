import ObjectStore.Zlib.Block
import ObjectStore.Zlib.Checksum

/-!
# Compressed streams

A compressed stream is a header of two bytes, blocks, and the checksum of the data. Object files
are such streams.

`Zlib.inflate` reads any stream of the format and ignores what follows it. `Zlib.compress` writes
streams of stored blocks only. The main statement says that what was compressed inflates again
(`inflate_compress`).
-/

namespace ObjectStore.Zlib

/-- Whether two bytes are the header of a stream: the method is the only one there is, the window
is not larger than the format allows, no dictionary is assumed, and the check bits are right. -/
def isHeader (method flags : UInt8) : Bool :=
  method.toNat % 16 == 8 && method.toNat / 16 ≤ 7 && !flags.toNat.testBit 5
    && (256 * method.toNat + flags.toNat) % 31 == 0

/-- The data of a compressed stream. -/
def inflate (stream : Bytes) : Except InflateFault Bytes :=
  match stream with
  | method :: flags :: rest =>
    if isHeader method flags then do
      let source := BitSource.ofBytes rest
      let (source, out) ← Block.inflateAll source.size source #[]
      let (sum, _) ← source.align.takeBytes 4
      if sum = checksum out.toList then return out.toList else .error .corrupt
    else .error .corrupt
  | _ => .error .incomplete

/-- The header of written streams. -/
def header : Bytes := [0x78, 0xDA]

/-- A compressed stream with the given data. -/
def compress (data : Bytes) : Bytes := header ++ Block.storedAll data ++ checksum data

/-- Compressed data inflates to the data. -/
theorem inflate_compress (data : Bytes) : inflate (compress data) = .ok data := by
  have hlen := Block.length_lt_storedAll data
  have hblocks := Block.inflateAll_storedAll data (checksum data)
    (BitSource.ofBytes (Block.storedAll data ++ checksum data)).size #[] (by
      simp only [BitSource.size, BitSource.ofBytes, List.length_append, List.length_nil]
      omega)
  have hheader : isHeader 0x78 0xDA = true := by decide
  have htake := BitSource.takeBytes_append (checksum data) [] []
  simp only [length_checksum, List.append_nil] at htake
  simp [inflate, compress, header, hheader, BitSource.ofBytes, BitSource.align] at hblocks ⊢
  simp [hblocks, bind, Except.bind, htake, pure, Except.pure]

end ObjectStore.Zlib
