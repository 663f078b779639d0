import WikiPress.Digest

/-!
# WikiPress.CommandLine.PageId

Ids for new pages: universally unique identifiers of version 4.
-/

namespace WikiPress.CommandLine

open WikiPress.Text (hexDigit hexDigit?)

/-- The hexadecimal digits of an identifier with its version and its variant written
in. -/
def stamp (digits : List Char) : List Char :=
  let variant := ((digits[16]?.bind hexDigit?).getD 0) % 4 + 8
  (digits.set 12 '4').set 16 (hexDigit variant)

/-- Groups the digits of an identifier. -/
def group (digits : List Char) : String :=
  let part (start length : Nat) := String.ofList ((digits.drop start).take length)
  "-".intercalate [part 0 8, part 8 4, part 12 4, part 16 4, part 20 12]

/-- The nth identifier that grows from a seed. -/
def pageId (seed : ByteArray) (n : Nat) : String :=
  group (stamp (Digest.hex (seed ++ (toString n).toUTF8)).toList)

end WikiPress.CommandLine
