import BoxFlow.Files.FileTree

/-!
# Portable network graphics

Pictures are saved in chunks with checksums: a header, the pixels, an end. The
pixels are written without compression, in blocks of a limited size, every row
behind a byte that says it is not filtered.
-/

namespace BoxFlow.Png

/-- The four bytes of a number, the highest first. -/
def bigEndian (n : UInt32) : Bytes :=
  #[(n >>> 24).toUInt8, (n >>> 16).toUInt8, (n >>> 8).toUInt8, n.toUInt8]

/-- The two bytes of a number, the lowest first. -/
def littleEndian (n : Nat) : Bytes := #[.ofNat n, .ofNat (n / 256)]

/-- One bit of the remainder of the cyclic checksum. -/
def crcBit (c : UInt32) : UInt32 :=
  if c &&& 1 = 1 then (c >>> 1) ^^^ 0xEDB88320 else c >>> 1

/-- Remainders for each value of a byte. -/
def crcTable : Array UInt32 :=
  Array.ofFn fun i : Fin 256 => (List.range 8).foldl (fun c _ => crcBit c) (.ofNat i.val)

/-- The cyclic checksum of a chunk. -/
def crc (bytes : Bytes) : UInt32 :=
  let last : UInt32 := bytes.foldl
    (fun c b => crcTable.getD ((c ^^^ b.toUInt32) &&& 0xFF).toNat 0 ^^^ (c >>> 8)) 0xFFFFFFFF
  last ^^^ 0xFFFFFFFF

/-- The checksum of a stream: a sum of bytes, and a sum of these sums. -/
def adler (bytes : Bytes) : UInt32 :=
  let (low, high) := bytes.foldl
    (fun (low, high) b =>
      let low := (low + b.toUInt32) % 65521
      (low, (high + low) % 65521))
    ((1, 0) : UInt32 × UInt32)
  high <<< 16 ||| low

/-- A chunk with its length, its type and its checksum. -/
def chunk (type : String) (contents : Bytes) : Bytes :=
  let body := type.toUTF8.data ++ contents
  bigEndian (.ofNat contents.size) ++ body ++ bigEndian (crc body)

/-- Most bytes in an uncompressed block. -/
def blockSize : Nat := 65535

/-- A stream of uncompressed blocks. -/
def stored (bytes : Bytes) : Bytes :=
  let count := max 1 ((bytes.size + blockSize - 1) / blockSize)
  let blocks := (List.range count).map fun i =>
    let block := bytes.extract (i * blockSize) ((i + 1) * blockSize)
    #[if i + 1 = count then 1 else 0] ++ littleEndian block.size ++
      littleEndian (65535 - block.size) ++ block
  blocks.foldl (· ++ ·) #[0x78, 0x01] ++ bigEndian (adler bytes)

/-- The rows of a picture, each behind a zero byte. -/
def rows (width height : Nat) (pixels : Bytes) : Bytes :=
  (List.range height).foldl
    (fun bytes y => bytes.push 0 ++ pixels.extract (4 * width * y) (4 * width * (y + 1))) #[]

/-- A picture of red, green, blue and alpha bytes as a file. -/
def encode (width height : Nat) (pixels : Bytes) : Bytes :=
  #[0x89, 0x50, 0x4E, 0x47, 0x0D, 0x0A, 0x1A, 0x0A] ++
    chunk "IHDR" (bigEndian (.ofNat width) ++ bigEndian (.ofNat height) ++ #[8, 6, 0, 0, 0]) ++
    chunk "IDAT" (stored (rows width height pixels)) ++
    chunk "IEND" #[]

end BoxFlow.Png
