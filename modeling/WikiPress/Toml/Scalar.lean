import WikiPress.Text.Digits
import WikiPress.Toml.Value

/-!
# WikiPress.Toml.Scalar

The values written without quotes or brackets: numbers, booleans, dates and times.

Design points:

* Such a value is one run of characters, and a date may be joined to a time by a space.
  What it is, is decided by the run as a whole.
* An integer must fit in 128 bits, signed or not, and a float must be finite if its
  digits are; nothing else is asked of them.
-/

namespace WikiPress.Toml

open WikiPress.Text (decimalNumber hexDigit? isHexDigit)

/-! ## Numbers -/

/-- Digits without the underscores that group them: each underscore must stand between
two digits. -/
def ungroup (isDigit : Char → Bool) : List Char → Option (List Char)
  | [] => none
  | [c] => if isDigit c then some [c] else none
  | c :: '_' :: rest => if isDigit c then (ungroup isDigit rest).map (c :: ·) else none
  | c :: rest => if isDigit c then (ungroup isDigit rest).map (c :: ·) else none

/-- The digits of a decimal number, which has no leading zeros. -/
def decimalDigits (cs : List Char) : Option (List Char) := do
  let digits ← ungroup Char.isDigit cs
  if digits.head? = some '0' ∧ digits.length ≠ 1 then none else some digits

/-- The number that digits write in a base of at most sixteen. -/
def numberInBase (base : Nat) (digits : List Char) : Nat :=
  digits.foldl (fun n c => base * n + (hexDigit? c).getD 0) 0

/-- A sign, if there is one, and the rest. -/
def splitSign : List Char → Option Char × List Char
  | '+' :: rest => (some '+', rest)
  | '-' :: rest => (some '-', rest)
  | cs => (none, cs)

/-- An integer of any size. -/
def integerOf (cs : List Char) : Option Int :=
  match cs with
  | '0' :: 'x' :: rest =>
      (ungroup isHexDigit rest).map fun digits => (numberInBase 16 digits : Int)
  | '0' :: 'o' :: rest =>
      (ungroup (fun c => '0' ≤ c && c ≤ '7') rest).map fun digits =>
        (numberInBase 8 digits : Int)
  | '0' :: 'b' :: rest =>
      (ungroup (fun c => c = '0' || c = '1') rest).map fun digits =>
        (numberInBase 2 digits : Int)
  | _ =>
      let (sign, rest) := splitSign cs
      (decimalDigits rest).map fun digits =>
        let n : Int := decimalNumber digits
        if sign = some '-' then -n else n

/-- Whether an integer fits in 128 bits, signed or not. -/
def inRange (n : Int) : Bool :=
  match n with
  | .ofNat m => m < 1 <<< 128
  | .negSucc m => m < 1 <<< 127

/-- Whether digits times a power of ten are too large for a double. -/
def overflows (digits : List Char) (exponent : Int) : Bool :=
  let significant := digits.dropWhile (· = '0')
  let magnitude := significant.length + exponent
  if significant.isEmpty || magnitude < 300 then false
  else if 310 < magnitude then true
  else
    let n := decimalNumber significant
    let limit := 1 <<< 1024 - 1 <<< 970
    if 0 ≤ exponent then limit ≤ n * Nat.pow 10 exponent.toNat
    else limit * Nat.pow 10 (-exponent).toNat ≤ n

/-- Splits characters at the first that satisfies a test, which is left out. -/
def splitAtFirst (test : Char → Bool) (cs : List Char) : List Char × Option (List Char) :=
  match cs.span (!test ·) with
  | (before, []) => (before, none)
  | (before, _ :: after) => (before, some after)

/-- Whether characters are the digits of a float without its sign, and of a finite
one. -/
def isUnsignedFloat (cs : List Char) : Bool :=
  let (mantissa, exponent) := splitAtFirst (fun c => c = 'e' || c = 'E') cs
  let (whole, fraction) := splitAtFirst (· = '.') mantissa
  let exponentDigits : Option (Option Char × List Char) :=
    match exponent with
    | none => some (none, ['0'])
    | some e =>
        let (sign, digits) := splitSign e
        (ungroup Char.isDigit digits).map (sign, ·)
  let fractionDigits : Option (List Char) :=
    match fraction with
    | none => some []
    | some f => ungroup Char.isDigit f
  if exponent.isNone && fraction.isNone then false
  else match decimalDigits whole, fractionDigits, exponentDigits with
    | some w, some f, some (sign, e) =>
        let power : Int := decimalNumber e
        let power := if sign = some '-' then -power else power
        !overflows (w ++ f) (power - f.length)
    | _, _, _ => false

/-- Whether characters write a float. -/
def isFloat (cs : List Char) : Bool :=
  let rest := (splitSign cs).2
  rest = "inf".toList || rest = "nan".toList || isUnsignedFloat rest

/-! ## Dates and times -/

/-- A number of so many digits, and the rest. -/
def fixedNumber (count : Nat) (cs : List Char) : Option (Nat × List Char) :=
  let digits := cs.take count
  if digits.length = count ∧ digits.all Char.isDigit then
    some (decimalNumber digits, cs.drop count)
  else none

/-- What follows a character. -/
def expect (c : Char) : List Char → Option (List Char)
  | d :: rest => if c = d then some rest else none
  | [] => none

/-- The days of a month. -/
def daysIn (year month : Nat) : Nat :=
  if month = 2 then
    if year % 4 = 0 ∧ (year % 100 ≠ 0 ∨ year % 400 = 0) then 29 else 28
  else if month = 4 ∨ month = 6 ∨ month = 9 ∨ month = 11 then 30
  else 31

/-- What follows a date. -/
def afterDate (cs : List Char) : Option (List Char) := do
  let (year, cs) ← fixedNumber 4 cs
  let cs ← expect '-' cs
  let (month, cs) ← fixedNumber 2 cs
  let cs ← expect '-' cs
  let (day, cs) ← fixedNumber 2 cs
  if 1 ≤ month ∧ month ≤ 12 ∧ 1 ≤ day ∧ day ≤ daysIn year month then some cs else none

/-- What follows the seconds of a time, which may be left out and may have a
fraction. -/
def afterSeconds : List Char → Option (List Char)
  | ':' :: cs => do
      let (second, cs) ← fixedNumber 2 cs
      if 60 < second then none
      else match cs with
        | '.' :: cs =>
            let rest := cs.dropWhile Char.isDigit
            if rest.length = cs.length then none else some rest
        | cs => some cs
  | cs => some cs

/-- What follows a time of day. -/
def afterTime (cs : List Char) : Option (List Char) := do
  let (hour, cs) ← fixedNumber 2 cs
  let cs ← expect ':' cs
  let (minute, cs) ← fixedNumber 2 cs
  if hour ≤ 23 ∧ minute ≤ 59 then afterSeconds cs else none

/-- Whether characters are nothing or an offset from universal time. -/
def isOffset : List Char → Bool
  | [] => true
  | ['Z'] | ['z'] => true
  | s :: cs =>
      (s = '+' || s = '-') &&
        match fixedNumber 2 cs with
        | some (hour, ':' :: cs) =>
            match fixedNumber 2 cs with
            | some (minute, []) => hour ≤ 23 && minute ≤ 59
            | _ => false
        | _ => false

/-- Whether characters write a date, a time of day, or both. -/
def isDatetime (cs : List Char) : Bool :=
  match afterDate cs with
  | some [] => true
  | some (c :: rest) =>
      (c = 'T' || c = 't' || c = ' ') && ((afterTime rest).map isOffset).getD false
  | none => afterTime cs = some []

/-! ## Scalars -/

/-- Whether a character can be in a scalar. -/
def isScalarChar (c : Char) : Bool :=
  c.isAlphanum || c = '+' || c = '-' || c = '.' || c = '_' || c = ':'

/-- The characters of the scalar at the start of the input, and the rest. A space joins
a date to a digit. -/
def scalarRun (input : List Char) : List Char × List Char :=
  let (run, rest) := input.span isScalarChar
  match afterDate run, rest with
  | some [], ' ' :: d :: more =>
      if d.isDigit then
        let (time, rest) := (d :: more).span isScalarChar
        (run ++ ' ' :: time, rest)
      else (run, rest)
  | _, _ => (run, rest)

/-- The value a scalar writes. -/
def scalarValue (cs : List Char) : Option Value :=
  if cs = "true".toList then some (.boolean true)
  else if cs = "false".toList then some (.boolean false)
  else match integerOf cs with
    | some n => if inRange n then some (.integer n) else none
    | none =>
        if isFloat cs then some (.float (String.ofList cs))
        else if isDatetime cs then some (.datetime (String.ofList cs))
        else none

end WikiPress.Toml
