import WikiPress.Text.Alphanumeric

/-!
# WikiPress.Config.Expand

References to variables in settings.

`${NAME}` stands for the value of a variable and `${NAME:-text}` for the value or, if
there is none, the text. Once a setting has such a reference, `$NAME` stands for a value
too and `$$` for a dollar sign; a setting without one is left alone.

Design points:

* A setting is cut into parts before any is replaced, so what replaces a reference is
  never looked at again.
* Everything that is no reference stands for itself, a lone dollar sign included.
-/

namespace WikiPress.Config

open WikiPress.Text (isAlphanumeric)

/-- A place a variable is referred to in braces: its name, and the text to use if it
has no value. -/
structure Reference where
  name : List Char
  fallback : Option (List Char)
  deriving DecidableEq, Repr

/-- Splits at the first `:-`. -/
def splitFallback : List Char → Option (List Char × List Char)
  | ':' :: '-' :: rest => some ([], rest)
  | c :: rest => (splitFallback rest).map fun (before, after) => (c :: before, after)
  | [] => none

/-- The reference between two braces. Without a name in front, `:-` separates
nothing. -/
def referenceOf (inside : List Char) : Reference :=
  match splitFallback inside with
  | some (c :: before, after) => ⟨c :: before, some after⟩
  | _ => ⟨inside, none⟩

/-- What is between an opening brace and the first closing one. -/
def untilBrace : List Char → Option (List Char)
  | [] => none
  | '\x7d' :: _ => some []
  | c :: rest => (untilBrace rest).map (c :: ·)

/-- Whether a character can be in the name of a variable without braces. -/
def isNameChar (c : Char) : Bool :=
  isAlphanumeric c || c = '_'

/-- A part of a text: characters that stand for themselves, or a reference. -/
inductive Piece
  | text (cs : List Char)
  | reference (r : Reference)
  deriving DecidableEq, Repr

/-- The parts of a text; `skip` characters belong to one already found. -/
def piecesFrom (skip : Nat) : List Char → List Piece
  | [] => []
  | c :: rest =>
      match skip with
      | skip + 1 => piecesFrom skip rest
      | 0 =>
          if c ≠ '$' then .text [c] :: piecesFrom 0 rest
          else match rest with
            | '\x7b' :: inner =>
                match untilBrace inner with
                | some inside =>
                    .reference (referenceOf inside) :: piecesFrom (inside.length + 2) rest
                | none => .text ['$', '\x7b'] :: piecesFrom 1 rest
            | '$' :: _ => .text ['$'] :: piecesFrom 1 rest
            | _ =>
                let name := rest.takeWhile isNameChar
                if name.isEmpty then .text ['$'] :: piecesFrom 0 rest
                else .reference ⟨name, none⟩ :: piecesFrom name.length rest

/-- What a part stands for, or the name of the variable that has no value. -/
def Piece.value (env : String → Option String) : Piece → Except String (List Char)
  | .text cs => .ok cs
  | .reference r =>
      match env (String.ofList r.name), r.fallback with
      | some value, _ => .ok value.toList
      | none, some fallback => .ok fallback
      | none, none => .error (String.ofList r.name)

/-- What parts stand for, or the name of the first variable that has no value. -/
def valueOfPieces (env : String → Option String) : List Piece → Except String (List Char)
  | [] => .ok []
  | piece :: rest => do
      let value ← piece.value env
      (value ++ ·) <$> valueOfPieces env rest

/-- Whether a text has a dollar sign in front of an opening brace. -/
def hasReference : List Char → Bool
  | '$' :: '\x7b' :: _ => true
  | _ :: rest => hasReference rest
  | [] => false

/-- The parts of a setting. -/
def pieces (setting : String) : List Piece :=
  if hasReference setting.toList then piecesFrom 0 setting.toList
  else [.text setting.toList]

/-- A setting with its references replaced, or the name of a variable that has no
value. -/
def expand (env : String → Option String) (setting : String) : Except String String :=
  String.ofList <$> valueOfPieces env (pieces setting)

/-- The names of the variables a setting refers to. -/
def variablesOf (setting : String) : List String :=
  (pieces setting).filterMap fun
    | .reference r => some (String.ofList r.name)
    | .text _ => none

end WikiPress.Config
