import MailPress.Text.Ascii

/-!
# Image headers

The size of an image is read from the front of its file, without decoding the
picture. Five formats are known, and a file is read in the format that is asked
for.

Everything that stands in front of the picture has to be sound; what comes after
is not looked at.
-/

namespace MailPress
namespace Image

/-! ## Checksums

The cyclic redundancy check of 32 bits that closes every chunk of a PNG file. It
is the remainder of the data, read as a polynomial over the field with two
elements, with all bits reflected.
-/

/-- The reflected generator polynomial. -/
def generator : UInt32 := 0xEDB88320

/-- Divide out one bit. -/
def shiftBit (remainder : UInt32) : UInt32 :=
  if remainder &&& 1 = 1 then (remainder >>> 1) ^^^ generator else remainder >>> 1

/-- Divide out some bits. -/
def shiftBits : (count : Nat) → UInt32 → UInt32
  | 0, remainder => remainder
  | count + 1, remainder => shiftBits count (shiftBit remainder)

/-- Take in one byte. -/
def takeByte (remainder : UInt32) (byte : UInt8) : UInt32 :=
  shiftBits 8 (remainder ^^^ byte.toUInt32)

/-- The checksum of some bytes. -/
def checksum (bytes : List UInt8) : Nat :=
  ((bytes.foldl takeByte 0xFFFFFFFF) ^^^ 0xFFFFFFFF).toNat

/-! ## Sizes and formats -/

/-- The size of an image in pixels. -/
structure Size where
  /-- The width. -/
  width : Nat
  /-- The height. -/
  height : Nat
  deriving DecidableEq, Repr, Inhabited

/-- The image formats that can be read. -/
inductive Format
  | png
  | jpeg
  | gif
  | webp
  | bmp
  deriving DecidableEq, Repr

/-- The endings of the file names of a format. -/
def Format.endings : Format → List String
  | .png => ["png", "apng"]
  | .jpeg => ["jpg", "jpeg", "jfif"]
  | .gif => ["gif"]
  | .webp => ["webp"]
  | .bmp => ["bmp"]

/-- The formats in the order they are looked for. -/
def Format.all : List Format :=
  [.png, .jpeg, .gif, .webp, .bmp]

/-- The format of files with an ending. -/
def Format.ofEnding? (ending : String) : Option Format :=
  Format.all.find? fun format => format.endings.contains (Text.lower ending)

/-- The number that bytes make, the greatest first. -/
def bigEndian (bytes : List UInt8) : Nat :=
  bytes.foldl (fun value byte => value * 256 + byte.toNat) 0

/-- The number that bytes make, the least first. -/
def littleEndian (bytes : List UInt8) : Nat :=
  bigEndian bytes.reverse

/-- A stretch of bytes, when the file is long enough. -/
def slice? (bytes : List UInt8) (start length : Nat) : Option (List UInt8) :=
  let part := (bytes.drop start).take length
  if part.length = length then some part else none

/-- The unsigned number in a stretch of bytes, the least first. -/
def field? (bytes : List UInt8) (start length : Nat) : Option Nat :=
  (slice? bytes start length).map littleEndian

/-- The bytes of an ASCII text. -/
def asciiBytes (text : String) : List UInt8 :=
  text.toUTF8.toList

/-- What a PNG file starts with. -/
def pngSignature : List UInt8 :=
  [0x89, 0x50, 0x4E, 0x47, 0x0D, 0x0A, 0x1A, 0x0A]

/-- Whether pixels of a kind may have so many bits. -/
def pngDepthAllowed (kind depth : Nat) : Bool :=
  match kind with
  | 0 => [1, 2, 4, 8, 16].contains depth
  | 2 => [8, 16].contains depth
  | 3 => [1, 2, 4, 8].contains depth
  | 4 => [8, 16].contains depth
  | 6 => [8, 16].contains depth
  | _ => false

/-- The size in the first chunk of a PNG file. -/
def pngSize? (body : List UInt8) : Option Size :=
  match body with
  | [a, b, c, d, e, f, g, h, depth, kind, compression, filter, interlace] =>
      let size : Size := ⟨bigEndian [a, b, c, d], bigEndian [e, f, g, h]⟩
      if size.width = 0 ∨ size.height = 0 ∨ !pngDepthAllowed kind.toNat depth.toNat then none
      else if compression ≠ 0 ∨ filter ≠ 0 ∨ 1 < interlace then none
      else some size
  | _ => none

/-- Whether a chunk may be skipped by those who do not know it. -/
def isAncillary (name : List UInt8) : Bool :=
  match name with
  | first :: _ => 97 ≤ first
  | [] => false

/-- Whether the chunks up to the picture are sound; at most `limit` of them are read. -/
def pngReachesPicture : (limit : Nat) → List UInt8 → Bool
  | 0, _ => false
  | limit + 1, bytes =>
      match slice? bytes 0 4, slice? bytes 4 4 with
      | some length, some name =>
          if name = asciiBytes "IDAT" then true
          else
            let length := bigEndian length
            match slice? bytes 4 (length + 4), slice? bytes (length + 8) 4 with
            | some covered, some sum =>
                (isAncillary name ||
                  (name == asciiBytes "PLTE" && checksum covered == bigEndian sum)) &&
                  pngReachesPicture limit (bytes.drop (length + 12))
            | _, _ => false
      | _, _ => false

/-- The size of a PNG image. -/
def png? (bytes : List UInt8) : Option Size := do
  let signature ← slice? bytes 0 8
  let length ← slice? bytes 8 4
  let covered ← slice? bytes 12 17
  let sum ← slice? bytes 29 4
  if signature = pngSignature ∧ bigEndian length = 13 ∧ covered.take 4 = asciiBytes "IHDR" ∧
      checksum covered = bigEndian sum ∧ pngReachesPicture bytes.length (bytes.drop 33) then
    pngSize? (covered.drop 4)
  else none

/-- The size in the frame header of a JPEG file. -/
def jpegSize? (body : List UInt8) : Option Size :=
  match body with
  | precision :: a :: b :: c :: d :: count :: components =>
      let size : Size := ⟨bigEndian [c, d], bigEndian [a, b]⟩
      if precision = 8 ∧ size.width ≠ 0 ∧ size.height ≠ 0 ∧ count ≠ 0 ∧ count ≤ 4 ∧
          components.length = 3 * count.toNat then some size
      else none
  | _ => none

/-- Whether a marker starts a frame that can be read. -/
def isFrame (marker : UInt8) : Bool :=
  marker == 0xC0 || marker == 0xC1 || marker == 0xC2

/-- Whether a marker starts a frame that cannot be read, or ends the file. -/
def isHopeless (marker : UInt8) : Bool :=
  [0xC3, 0xC5, 0xC6, 0xC7, 0xC9, 0xCA, 0xCB, 0xCD, 0xCE, 0xCF, 0xD9, 0xDC].contains marker

/-- Read the segments of a JPEG file up to the picture; `size` is the size found so far, and at
most `limit` segments are read. -/
def jpegSegments (size : Option Size) : (limit : Nat) → List UInt8 → Option Size
  | 0, _ => none
  | limit + 1, bytes =>
      match (bytes.dropWhile (· != 0xFF)).dropWhile fun byte => byte == 0xFF || byte == 0 with
      | [] => none
      | marker :: rest =>
          match slice? rest 0 2 with
          | none => none
          | some length =>
              let length := bigEndian length
              if isHopeless marker || length < 2 then none
              else
                match slice? rest 2 (length - 2) with
                | none => none
                | some body =>
                    if marker = 0xDA then
                      if body.length = 4 + 2 * (body.headD 0).toNat ∧ body.headD 0 ≠ 0 then size
                      else none
                    else if isFrame marker then
                      match jpegSize? body with
                      | none => none
                      | some found => jpegSegments (some found) limit (rest.drop length)
                    else jpegSegments size limit (rest.drop length)

/-- The size of a JPEG image. -/
def jpeg? (bytes : List UInt8) : Option Size :=
  match bytes with
  | 0xFF :: 0xD8 :: rest => jpegSegments none rest.length rest
  | _ => none

/-- The size of a GIF image. -/
def gif? (bytes : List UInt8) : Option Size := do
  let signature ← slice? bytes 0 6
  let width ← field? bytes 6 2
  let height ← field? bytes 8 2
  let flags ← field? bytes 10 1
  let palette := if 128 ≤ flags then 3 <<< (flags % 8 + 1) else 0
  let _ ← slice? bytes 13 (palette + 1)
  if signature = asciiBytes "GIF87a" ∨ signature = asciiBytes "GIF89a" then
    some ⟨width, height⟩
  else none

/-- The number that 32 bits denote, the highest being a sign. -/
def signed (value : Nat) : Int :=
  if value < 0x80000000 then value else (value : Int) - 0x100000000

/-- The greatest width and height of a BMP image. -/
def bmpLimit : Int := 0xFFFF

/-- Whether pixels with so many bits may be stored in a way. -/
def bmpDepthAllowed (storage depth : Nat) : Bool :=
  match storage with
  | 0 => [1, 2, 4, 8, 16, 24, 32].contains depth
  | 1 => depth == 8
  | 2 => depth == 4
  | 3 => [16, 32].contains depth
  | _ => false

/-- The size in the header of a BMP file of the older kind. -/
def bmpCore? (bytes : List UInt8) : Option Size := do
  let width ← field? bytes 18 2
  let height ← field? bytes 20 2
  let planes ← field? bytes 22 2
  let depth ← field? bytes 24 2
  let palette := if depth ≤ 8 then 3 <<< depth else 0
  let _ ← slice? bytes 26 palette
  if planes = 1 ∧ [1, 4, 8, 24].contains depth then some ⟨width, height⟩ else none

/-- The size in the header of a BMP file of the newer kind. -/
def bmpInfo? (bytes : List UInt8) (headerLength : Nat) : Option Size := do
  let width := signed (← field? bytes 18 4)
  let height := signed (← field? bytes 22 4)
  let planes ← field? bytes 26 2
  let depth ← field? bytes 28 2
  let storage ← field? bytes 30 4
  let used ← field? bytes 46 4
  let palette :=
    if depth ≤ 8 then 4 * min (if used = 0 then 1 <<< depth else used) 256 else 0
  let masks := if storage = 3 && headerLength = 40 then 12 else 0
  let _ ← slice? bytes (14 + headerLength + masks) palette
  if width < 0 ∨ bmpLimit < width ∨ bmpLimit < height ∨ height = -0x80000000 then none
  else if height < 0 ∧ storage ≠ 0 ∧ storage ≠ 3 then none
  else if planes = 1 ∧ bmpDepthAllowed storage depth then some ⟨width.toNat, height.natAbs⟩
  else none

/-- The size of a BMP image. -/
def bmp? (bytes : List UInt8) : Option Size := do
  let signature ← slice? bytes 0 2
  let headerLength ← field? bytes 14 4
  if signature ≠ asciiBytes "BM" then none
  else if headerLength = 12 then bmpCore? bytes
  else if [40, 52, 56, 108, 124].contains headerLength then bmpInfo? bytes headerLength
  else none

/-- The size in a lossy WebP picture. -/
def webpLossy? (body : List UInt8) : Option Size := do
  let start ← field? body 0 3
  let signature ← slice? body 3 3
  let width := (← field? body 6 2) % 0x4000
  let height := (← field? body 8 2) % 0x4000
  if start % 2 = 0 ∧ start / 2 % 8 ≤ 3 ∧ signature = [0x9D, 0x01, 0x2A] ∧ width ≠ 0 ∧ height ≠ 0
  then some ⟨width, height⟩
  else none

/-- The size in a lossless WebP picture. -/
def webpLossless? (body : List UInt8) : Option Size := do
  let signature ← field? body 0 1
  let header ← field? body 1 4
  if signature = 0x2F ∧ header / 0x20000000 = 0 then
    some ⟨(1 + header) % 0x4000, (1 + header / 0x4000) % 0x4000⟩
  else none

/-- The names of the chunks of a WebP file; at most `limit` are read. -/
def webpChunks : (limit : Nat) → List UInt8 → List (List UInt8)
  | 0, _ => []
  | limit + 1, bytes =>
      match slice? bytes 0 4, field? bytes 4 4 with
      | some name, some length =>
          name :: webpChunks limit (bytes.drop (8 + length + length % 2))
      | _, _ => []

/-- The size in a WebP file with several chunks. -/
def webpExtended? (body : List UInt8) : Option Size := do
  let flags ← field? body 0 1
  let width ← field? body 4 3
  let height ← field? body 7 3
  let names := webpChunks body.length (body.drop 10)
  let animated := flags / 2 % 2 = 1
  let pictured := names.contains (asciiBytes "VP8 ") != names.contains (asciiBytes "VP8L")
  let framed := names.contains (asciiBytes "ANIM") && names.contains (asciiBytes "ANMF")
  if (if animated then framed else pictured) then some ⟨width + 1, height + 1⟩ else none

/-- The size of a WebP image. -/
def webp? (bytes : List UInt8) : Option Size := do
  let container ← slice? bytes 0 4
  let signature ← slice? bytes 8 4
  let name ← slice? bytes 12 4
  let _ ← slice? bytes 16 4
  let body := bytes.drop 20
  if container ≠ asciiBytes "RIFF" ∨ signature ≠ asciiBytes "WEBP" then none
  else if name = asciiBytes "VP8 " then webpLossy? body
  else if name = asciiBytes "VP8L" then webpLossless? body
  else if name = asciiBytes "VP8X" then webpExtended? body
  else none

/-- The size of an image in a format. -/
def Format.size? (format : Format) (bytes : List UInt8) : Option Size :=
  match format with
  | .png => png? bytes
  | .jpeg => jpeg? bytes
  | .gif => gif? bytes
  | .webp => webp? bytes
  | .bmp => bmp? bytes

/-- What files of a format start with. -/
def Format.startsFile (format : Format) (bytes : List UInt8) : Bool :=
  match format with
  | .png => bytes.take 8 == pngSignature
  | .jpeg => bytes.take 3 == [0xFF, 0xD8, 0xFF]
  | .gif => bytes.take 6 == asciiBytes "GIF87a" || bytes.take 6 == asciiBytes "GIF89a"
  | .webp => bytes.take 4 == asciiBytes "RIFF" && (bytes.drop 8).take 4 == asciiBytes "WEBP"
  | .bmp => bytes.take 2 == asciiBytes "BM"

/-- The format that shows in the first bytes of an image. -/
def Format.ofBytes? (bytes : List UInt8) : Option Format :=
  Format.all.find? fun format => format.startsFile bytes

/-- The size of an image whose format shows in its first bytes. -/
def sizeOfBytes? (bytes : List UInt8) : Option Size :=
  (Format.ofBytes? bytes).bind fun format => format.size? bytes

/-- Why no size is found in an image, whose format is known or not. -/
def undecoded : Option Format → String
  | none => "The image format could not be determined"
  | some _ => "The image cannot be decoded"

end Image
end MailPress
