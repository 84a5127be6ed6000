import Cartograph.Raster.Basic

/-! Raster drawings as PNG files: eight bits a channel, and the rows stored without being
compressed. -/

namespace Cartograph.Png

/-- Numbers are written with the highest byte first. -/
def bigEndian (value : Nat) : ByteArray :=
  ⟨#[UInt8.ofNat (value / 0x1000000), UInt8.ofNat (value / 0x10000), UInt8.ofNat (value / 0x100),
    UInt8.ofNat value]⟩

def littleEndian (value : Nat) : ByteArray := ⟨#[UInt8.ofNat value, UInt8.ofNat (value / 0x100)]⟩

def crcBits : Nat → UInt32 → UInt32
  | 0, x => x
  | bits + 1, x => crcBits bits (if x &&& 1 = 1 then (x >>> 1) ^^^ 0xEDB88320 else x >>> 1)

def crcTable : Array UInt32 := Array.ofFn fun i : Fin 256 => crcBits 8 (UInt32.ofNat i.val)

def crc (data : ByteArray) : UInt32 :=
  data.foldl (fun check byte =>
    let index := (check ^^^ UInt32.ofNat byte.toNat) &&& 0xFF
    (check >>> 8) ^^^ crcTable[index.toNat]?.getD 0) 0xFFFFFFFF ^^^ 0xFFFFFFFF

/-- The largest prime below 2 ^ 16. -/
def adlerModulus : Nat := 65521

def adler (data : ByteArray) : Nat :=
  let (sum, sums) := data.foldl (fun ((sum, sums) : Nat × Nat) byte =>
    let next := (sum + byte.toNat) % adlerModulus
    (next, (sums + next) % adlerModulus)) (1, 0)
  sums * 0x10000 + sum

def chunk (name : String) (data : ByteArray) : ByteArray :=
  let body := name.toUTF8 ++ data
  bigEndian data.size ++ body ++ bigEndian (crc body).toNat

/-- Stored blocks hold fewer than 2 ^ 16 bytes each. -/
def blockSize : Nat := 65535

def storedBlock (isLast : Bool) (data : ByteArray) : ByteArray :=
  ⟨#[if isLast then 1 else 0]⟩ ++ littleEndian data.size ++ littleEndian (blockSize - data.size) ++
    data

def stored (data : ByteArray) : ByteArray :=
  let count := max 1 ((data.size + blockSize - 1) / blockSize)
  let blocks := (List.range count).foldl (fun blocks i =>
    blocks ++ storedBlock (i + 1 == count)
      (data.extract (i * blockSize) ((i + 1) * blockSize))) ByteArray.empty
  ⟨#[0x78, 0x01]⟩ ++ blocks ++ bigEndian (adler data)

def plain (channel alpha : Nat) : UInt8 :=
  UInt8.ofNat (if alpha = 0 then 0 else min 255 ((2 * 255 * channel + alpha) / (2 * alpha)))

def pushPixel (bytes : ByteArray) (pixel : Pixel) : ByteArray :=
  let channel := fun x => plain x pixel.alpha
  (((bytes.push (channel pixel.red)).push (channel pixel.green)).push (channel pixel.blue)).push
    (UInt8.ofNat pixel.alpha)

/-- No row is filtered. -/
def scanlines (layer : Layer) : ByteArray :=
  layer.rows.foldl (fun bytes row => row.foldl pushPixel (bytes.push 0)) ByteArray.empty

def signature : ByteArray := ⟨#[0x89, 0x50, 0x4E, 0x47, 0x0D, 0x0A, 0x1A, 0x0A]⟩

/-- Eight bits for each of four channels, in one pass. -/
def header (width height : Nat) : ByteArray :=
  bigEndian width ++ bigEndian height ++ ⟨#[8, 6, 0, 0, 0]⟩

def encode (image : Raster) : ByteArray :=
  signature ++ chunk "IHDR" (header image.width image.height) ++
    chunk "IDAT" (stored (scanlines image.base)) ++ chunk "IEND" ByteArray.empty

end Cartograph.Png
