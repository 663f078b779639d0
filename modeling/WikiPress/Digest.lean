import WikiPress.Text.Digits

/-!
# WikiPress.Digest

The SHA-1 digest (FIPS 180-4), by which the text of a page is recognised again.

Design points:

* A message is padded to whole blocks of 64 bytes; each block is read as sixteen
  words, stretched to eighty, and folded into five words of state.
* A digest is written as forty lowercase hexadecimal digits.
-/

namespace WikiPress.Digest

open WikiPress.Text (hexDigits)

/-- The five words the digest accumulates. -/
structure Words where
  a : UInt32
  b : UInt32
  c : UInt32
  d : UInt32
  e : UInt32
  deriving DecidableEq, Repr

/-- The words of the empty accumulation. -/
def Words.start : Words :=
  ⟨0x67452301, 0xEFCDAB89, 0x98BADCFE, 0x10325476, 0xC3D2E1F0⟩

/-- Wordwise sum. -/
def Words.add (x y : Words) : Words :=
  ⟨x.a + y.a, x.b + y.b, x.c + y.c, x.d + y.d, x.e + y.e⟩

/-- Rotation to the left. -/
def rotate (x : UInt32) (n : UInt32) : UInt32 :=
  (x <<< n) ||| (x >>> (32 - n))

/-- The bytes of a number, most significant first. -/
def bigEndian (count : Nat) (n : Nat) : List UInt8 :=
  (List.range count).reverse.map fun i => UInt8.ofNat (n >>> (8 * i))

/-- What follows a message of a length: a bit, zeros up to a block boundary less eight
bytes, and the length in bits. -/
def padding (length : Nat) : List UInt8 :=
  0x80 :: List.replicate ((119 - length % 64) % 64) 0 ++ bigEndian 8 (8 * length)

/-- The padded message. -/
def padded (message : ByteArray) : Array UInt8 :=
  message.data ++ (padding message.size).toArray

/-- The four bytes from a position on as one word. -/
def wordAt (bytes : Array UInt8) (i : Nat) : UInt32 :=
  (List.range 4).foldl (fun w k => (w <<< 8) ||| (bytes.getD (i + k) 0).toUInt32) 0

/-- The eighty words a block is stretched to. -/
def schedule (bytes : Array UInt8) (start : Nat) : Array UInt32 :=
  let first := (Array.range 16).map fun i => wordAt bytes (start + 4 * i)
  (List.range 64).foldl
    (fun w i =>
      w.push (rotate
        (w.getD (i + 13) 0 ^^^ w.getD (i + 8) 0 ^^^ w.getD (i + 2) 0 ^^^ w.getD i 0) 1))
    first

/-- The mixing function and the constant of a round. -/
def roundFunction (t : Nat) (b c d : UInt32) : UInt32 × UInt32 :=
  if t < 20 then ((b &&& c) ||| (~~~b &&& d), 0x5A827999)
  else if t < 40 then (b ^^^ c ^^^ d, 0x6ED9EBA1)
  else if t < 60 then ((b &&& c) ||| (b &&& d) ||| (c &&& d), 0x8F1BBCDC)
  else (b ^^^ c ^^^ d, 0xCA62C1D6)

/-- One round. -/
def round (words : Array UInt32) (s : Words) (t : Nat) : Words :=
  let (f, k) := roundFunction t s.b s.c s.d
  ⟨rotate s.a 5 + f + s.e + k + words.getD t 0, s.a, rotate s.b 30, s.c, s.d⟩

/-- Takes one block into the accumulation. -/
def absorb (bytes : Array UInt8) (s : Words) (block : Nat) : Words :=
  s.add ((List.range 80).foldl (round (schedule bytes (64 * block))) s)

/-- The five words of a message's digest. -/
def words (message : ByteArray) : Words :=
  let bytes := padded message
  (List.range (bytes.size / 64)).foldl (absorb bytes) .start

/-- The digest of a message as text. -/
def hex (message : ByteArray) : String :=
  let w := words message
  String.ofList ([w.a, w.b, w.c, w.d, w.e].flatMap fun x => hexDigits 8 x.toNat)

/-- The digest of a text's UTF-8 bytes. -/
def ofText (s : String) : String :=
  hex s.toUTF8

end WikiPress.Digest
