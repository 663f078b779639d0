import WikiPress.Files.System
import WikiPress.Ledger.Codec

/-!
# WikiPress.Ledger.Store

The ledger: the entries of all documents, and the state file they are kept in between
runs.

Design points:

* Entries are reached through handles. A handle of an identity reads and writes the
  entry of that identity, whoever asked for it and when.
* The empty identity names no document. Asking for its entry gives a new cell that is
  in no snapshot and that only its own handle reaches.
* A state file that cannot be used is as good as none: the ledger starts empty, and
  `Loaded.unusable` tells.
-/

namespace WikiPress

/-- The entries of all documents. -/
structure Ledger where
  /-- The state file. -/
  path : String
  entries : Entries := []
  /-- The cells handed out for the empty identity. -/
  cells : List Entry := []

namespace Ledger

open WikiPress.Files (FileSystem FileError parent)

/-- What an entry is reached by. -/
inductive Handle
  | document (identity : String)
  | cell (index : Nat)
  deriving DecidableEq, Repr

/-- The entry of an identity, empty if there is none. -/
def entry (ledger : Ledger) (identity : String) : Entry :=
  (Keyed.find? identity ledger.entries).getD {}

/-- A handle for the entry of an identity, which is there from now on. -/
def entryFor (ledger : Ledger) (identity : String) : Handle × Ledger :=
  if identity.isEmpty then
    (.cell ledger.cells.length, { ledger with cells := ledger.cells ++ [{}] })
  else
    (.document identity,
      { ledger with entries := Keyed.set identity (ledger.entry identity) ledger.entries })

/-- The entry behind a handle. -/
def read (ledger : Ledger) : Handle → Entry
  | .document identity => ledger.entry identity
  | .cell index => ledger.cells.getD index {}

/-- Gives the entry behind a handle new contents. -/
def commit (ledger : Ledger) (handle : Handle) (entry : Entry) : Ledger :=
  match handle with
  | .document identity => { ledger with entries := Keyed.set identity entry ledger.entries }
  | .cell index => { ledger with cells := ledger.cells.set index entry }

/-! ## The state file -/

/-- A ledger read from its state file. -/
structure Loaded where
  ledger : Ledger
  /-- Whether there is a state file that could not be used. -/
  unusable : Bool

/-- Reads the ledger of a state file. -/
def load (fs : FileSystem) (path : String) : Loaded :=
  match fs.read path with
  | .error e => ⟨{ path }, e ≠ .noSuchFile⟩
  | .ok document =>
      match decode document with
      | some entries => ⟨{ path, entries }, false⟩
      | none => ⟨{ path }, true⟩

/-- Why a ledger could not be saved. -/
structure SaveError where
  path : String
  cause : FileError
  deriving DecidableEq, Repr

/-- What is said about a ledger that could not be saved. -/
def SaveError.message (e : SaveError) : String :=
  s!"Failed to write state file {e.path}: {e.cause.message}"

/-- The directory of a state file. -/
def directoryOf (path : String) : String :=
  match parent path with
  | some directory => if directory.isEmpty then "." else directory
  | none => "."

/-- Saves a ledger to its state file, which is replaced in one go. Missing directories
around it are created first and stay. -/
def persist (ledger : Ledger) (fs : FileSystem) : Except SaveError Unit × FileSystem :=
  match fs.makeDirectories (directoryOf ledger.path) with
  | (.error e, fs) => (.error ⟨ledger.path, e⟩, fs)
  | (.ok (), fs) =>
      match fs.replace ledger.path (encode ledger.entries).toUTF8 with
      | .error e => (.error ⟨ledger.path, e⟩, fs)
      | .ok saved => (.ok (), saved)

end Ledger

end WikiPress
