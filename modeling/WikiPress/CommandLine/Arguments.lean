import WikiPress.Config.Load

/-!
# WikiPress.CommandLine.Arguments

What a command line asks for.

A command line names a command, with options in front of it and behind it. The options
that every command has may stand on either side; those behind the command win.

Design points:

* Options are described by a list of `OptionSpec`, so one reader serves all commands.
* Each option may be given once on each side. A value is taken from the same argument
  or from the next, which then must not look like an option.
* Asking for help or for the version ends the reading at once.
-/

namespace WikiPress.CommandLine

/-! ## Options -/

/-- What an option is followed by. -/
inductive OptionKind
  | flag
  /-- A value that must not be empty. -/
  | path
  | text
  | help
  | version
  deriving DecidableEq, Repr

/-- An option a command knows. -/
structure OptionSpec where
  name : String
  letter : Option Char
  kind : OptionKind
  deriving DecidableEq, Repr

/-- Why a command line asks for no command. -/
inductive Stop
  /-- It is not understood. -/
  | misuse
  | help
  | version
  deriving DecidableEq, Repr

/-- The options given, with their values; those of flags are empty. -/
abbrev Given := List (String × String)

/-- Whether an argument looks like an option. -/
def isOption (argument : String) : Bool :=
  argument.toList.head? == some '-' && argument != "-"

/-- Adds an option that was not given before. -/
def give (spec : OptionSpec) (value : String) (given : Given) : Except Stop Given :=
  if (given.lookup spec.name).isSome then .error .misuse
  else if spec.kind = .path ∧ value.isEmpty then .error .misuse
  else .ok ((spec.name, value) :: given)

/-- Adds an option whose value is the next argument. -/
def giveNext (spec : OptionSpec) (given : Given) (rest : List String) :
    Except Stop (Given × List String) :=
  match rest with
  | value :: rest =>
      if isOption value then .error .misuse
      else (give spec value given).map (·, rest)
  | [] => .error .misuse

/-- Reads an option written with its name, and perhaps with its value behind an equals
sign. -/
def readNamed (specs : List OptionSpec) (given : Given) (body : List Char)
    (rest : List String) : Except Stop (Given × List String) :=
  let name := body.takeWhile (· ≠ '=')
  let attached : Option String :=
    if name.length = body.length then none
    else some (String.ofList (body.drop (name.length + 1)))
  match specs.find? (·.name = String.ofList name) with
  | none => .error .misuse
  | some spec =>
      match spec.kind, attached with
      | .help, none => .error .help
      | .version, none => .error .version
      | .flag, none => (give spec "" given).map (·, rest)
      | .path, none | .text, none => giveNext spec given rest
      | .path, some value | .text, some value => (give spec value given).map (·, rest)
      | _, some _ => .error .misuse

/-- Reads options written with their letters, the last perhaps with its value behind
it. -/
def readLetters (specs : List OptionSpec) (given : Given) (rest : List String) :
    List Char → Except Stop (Given × List String)
  | [] => .ok (given, rest)
  | c :: more =>
      match specs.find? (·.letter = some c) with
      | none => .error .misuse
      | some spec =>
          match spec.kind with
          | .help => .error .help
          | .version => .error .version
          | .flag =>
              match give spec "" given with
              | .ok given => readLetters specs given rest more
              | .error stop => .error stop
          | .path | .text =>
              match more with
              | [] => giveNext spec given rest
              | '=' :: value => (give spec (String.ofList value) given).map (·, rest)
              | value => (give spec (String.ofList value) given).map (·, rest)

/-- Reads an argument that looks like an option. -/
def readOption (specs : List OptionSpec) (given : Given) (argument : String)
    (rest : List String) : Except Stop (Given × List String) :=
  match argument.toList with
  | '-' :: '-' :: body => readNamed specs given body rest
  | _ :: letters => readLetters specs given rest letters
  | [] => .error .misuse

/-! ## Commands -/

/-- A command. -/
inductive Command
  /-- Prints the page of a Markdown file. -/
  | render (file parentTitle : String) (isIndex : Bool)
  /-- Lists the documents a sync would publish; with `all`, the others too. -/
  | status (all : Bool)
  /-- Publishes the documents that changed. -/
  | sync (dryRun : Bool)
  deriving DecidableEq, Repr

/-- A command with the options every command has. -/
structure Invocation where
  command : Command
  configPath : Option String
  overrides : Config.Overrides
  /-- Whether to say more about what is done; nothing depends on it. -/
  verbose : Bool
  deriving DecidableEq, Repr

/-- The options every command has. -/
def commonOptions : List OptionSpec :=
  [⟨"config", some 'c', .path⟩, ⟨"source-dir", none, .path⟩, ⟨"state-file", none, .path⟩,
    ⟨"out-dir", none, .path⟩, ⟨"hard-line-break", none, .flag⟩,
    ⟨"verbose", some 'v', .flag⟩, ⟨"help", some 'h', .help⟩]

/-- The options in front of the command. -/
def leadingOptions : List OptionSpec :=
  ⟨"version", some 'V', .version⟩ :: commonOptions

/-- The options of a command, and how many arguments it takes besides; none if there is
no such command. -/
def commandOptions : String → Option (List OptionSpec × Nat)
  | "render" =>
      some (⟨"parent-title", none, .text⟩ :: ⟨"index", none, .flag⟩ :: commonOptions, 1)
  | "status" => some (⟨"all", some 'a', .flag⟩ :: commonOptions, 0)
  | "sync" => some (⟨"dry-run", none, .flag⟩ :: commonOptions, 0)
  | _ => none

/-- Reads what stands in front of the command: the options, the command's name, and what
is behind it. -/
def readLeading : Nat → Given → List String → Except Stop (Given × String × List String)
  | 0, _, _ | _, _, [] => .error .misuse
  | fuel + 1, given, argument :: rest =>
      if argument = "--" then .error .misuse
      else if isOption argument then do
        let (given, rest) ← readOption leadingOptions given argument rest
        readLeading fuel given rest
      else .ok (given, argument, rest)

/-- Reads what stands behind the command: its options, and its other arguments. -/
def readTrailing (specs : List OptionSpec) :
    Nat → Given → List String → Except Stop (Given × List String)
  | 0, _, _ => .error .misuse
  | _, given, [] => .ok (given, [])
  | fuel + 1, given, argument :: rest =>
      if argument = "--" then .ok (given, rest)
      else if isOption argument then do
        let (given, rest) ← readOption specs given argument rest
        readTrailing specs fuel given rest
      else do
        let (given, operands) ← readTrailing specs fuel given rest
        .ok (given, argument :: operands)

/-- The command of a name, with its options and its other arguments. -/
def commandOf (name : String) (given : Given) (operands : List String) :
    Except Stop Command :=
  match name, operands with
  | "render", [file] =>
      if file.isEmpty then .error .misuse
      else .ok (.render file ((given.lookup "parent-title").getD "")
        (given.lookup "index").isSome)
  | "status", [] => .ok (.status (given.lookup "all").isSome)
  | "sync", [] => .ok (.sync (given.lookup "dry-run").isSome)
  | _, _ => .error .misuse

/-- What a command line asks for. -/
def parse (arguments : List String) : Except Stop Invocation := do
  let (leading, name, rest) ← readLeading (arguments.length + 1) [] arguments
  match commandOptions name with
  | none => if name = "help" then .error .help else .error .misuse
  | some (specs, count) =>
      let (trailing, operands) ← readTrailing specs (rest.length + 1) [] rest
      if count < operands.length then throw .misuse
      let command ← commandOf name trailing operands
      let given := trailing ++ leading
      .ok
        { command
          configPath := given.lookup "config"
          overrides :=
            { sourceDirectory := given.lookup "source-dir"
              stateFile := given.lookup "state-file"
              outDirectory := given.lookup "out-dir"
              hardLineBreak := (given.lookup "hard-line-break").map fun _ => true }
          verbose := (given.lookup "verbose").isSome }

end WikiPress.CommandLine
