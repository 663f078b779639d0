/-!
# WikiPress.Text.Symbol

Bytes as a row of characters and stray bytes.

A file whose bytes are not all UTF-8 can still have a readable part. `symbolsOf` reads
as many characters as it can and marks each byte that belongs to none.
-/

namespace WikiPress.Text

/-- A character, or a byte that is part of none. -/
abbrev Symbol := Option Char

/-- How many continuation bytes follow a first byte, and the bits it contributes. -/
def firstByte (b : Nat) : Option (Nat × Nat) :=
  if b < 0x80 then some (0, b)
  else if b < 0xC0 then none
  else if b < 0xE0 then some (1, b - 0xC0)
  else if b < 0xF0 then some (2, b - 0xE0)
  else if b < 0xF8 then some (3, b - 0xF0)
  else none

/-- Adds the bits of so many continuation bytes. -/
def continueCode : Nat → Nat → List UInt8 → Option Nat
  | 0, code, _ => some code
  | _ + 1, _, [] => none
  | n + 1, code, b :: rest =>
      if b.toNat / 64 = 2 then continueCode n (code * 64 + b.toNat % 64) rest else none

/-- The smallest code that needs so many continuation bytes. -/
def leastCode : Nat → Nat
  | 0 => 0
  | 1 => 0x80
  | 2 => 0x800
  | _ => 0x10000

/-- The character some bytes start with, and how many of its bytes follow the first. -/
def leadingChar : List UInt8 → Option (Char × Nat)
  | [] => none
  | b :: rest => do
      let (more, bits) ← firstByte b.toNat
      let code ← continueCode more bits rest
      if h : leastCode more ≤ code ∧ code.isValidChar then
        some (Char.ofNatAux code h.2, more)
      else none

/-- The symbols of some bytes, of which the first few belong to a character already
read. -/
def lenientSymbols : Nat → List UInt8 → List Symbol
  | _, [] => []
  | n + 1, _ :: rest => lenientSymbols n rest
  | 0, b :: rest =>
      match leadingChar (b :: rest) with
      | some (c, more) => some c :: lenientSymbols more rest
      | none => none :: lenientSymbols 0 rest

/-- The symbols of some bytes. Bytes that are a text have its characters as symbols. -/
def symbolsOf (bytes : ByteArray) : List Symbol :=
  match String.fromUTF8? bytes with
  | some text => text.toList.map some
  | none => lenientSymbols 0 bytes.data.toList

end WikiPress.Text
