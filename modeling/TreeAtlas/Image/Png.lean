/-!
# Picture files

A picture file of a given size whose pixels are all transparent: a signature, and chunks with the
size, the transparent shade, the rows and the end. A row is a filter byte and one bit for each
pixel. The rows are stored as they are, in blocks, with their checksum.
-/

namespace TreeAtlas.Png

/-- The four bytes of a number, the highest first. -/
def word (n : Nat) : ByteArray :=
  ⟨#[UInt8.ofNat (n >>> 24), UInt8.ofNat (n >>> 16), UInt8.ofNat (n >>> 8), UInt8.ofNat n]⟩

/-- The two bytes of a number, the lowest first. -/
def half (n : Nat) : ByteArray :=
  ⟨#[UInt8.ofNat n, UInt8.ofNat (n >>> 8)]⟩

def zeros (n : Nat) : ByteArray :=
  ⟨Array.replicate n 0⟩

/-- One division step of the check over chunks. -/
def checkBit (c : UInt32) : UInt32 :=
  if c &&& 1 = 1 then (c >>> 1) ^^^ 0xEDB88320 else c >>> 1

def checkTable : Array UInt32 :=
  (Array.range 256).map fun n => Nat.repeat checkBit 8 (UInt32.ofNat n)

def check (bytes : ByteArray) : UInt32 :=
  let table := checkTable
  (bytes.foldl
    (fun c b => table.getD ((c ^^^ b.toUInt32) &&& 0xFF).toNat 0 ^^^ (c >>> 8)) 0xFFFFFFFF)
    ^^^ 0xFFFFFFFF

def chunk (kind : String) (data : ByteArray) : ByteArray :=
  let body := kind.toUTF8 ++ data
  word data.size ++ body ++ word (check body).toNat

/-- The most that one block stores. -/
def blockSize : Nat := 65535

/-- A block of zeros. -/
def block (last : Bool) (n : Nat) : ByteArray :=
  ⟨#[if last then 1 else 0]⟩ ++ half n ++ half (blockSize - n) ++ zeros n

/-- Zeros in blocks, with a header and their checksum. -/
def storedZeros (n : Nat) : ByteArray :=
  let full := n / blockSize
  let blocks := (List.replicate full (block false blockSize)).foldl (· ++ ·) .empty
  ⟨#[0x78, 0x01]⟩ ++ blocks ++ block true (n % blockSize) ++ word (n % 65521 * 65536 + 1)

def signature : ByteArray :=
  ⟨#[0x89, 0x50, 0x4E, 0x47, 0x0D, 0x0A, 0x1A, 0x0A]⟩

/-- One bit for each pixel, in shades of grey. -/
def header (width height : Nat) : ByteArray :=
  word width ++ word height ++ ⟨#[1, 0, 0, 0, 0]⟩

def transparent (width height : Nat) : ByteArray :=
  signature ++ chunk "IHDR" (header width height) ++ chunk "tRNS" (zeros 2)
    ++ chunk "IDAT" (storedZeros (height * (1 + (width + 7) / 8))) ++ chunk "IEND" .empty

end TreeAtlas.Png
