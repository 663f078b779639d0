import WikiPress.Keyed

/-!
# WikiPress.Files.Node

Trees of files as values.

Design points:

* A directory is a list of entries by name. A name is the text it is shown as. Names that are
  no texts may be shown alike, and then there are several entries of one name.
* A link is kept as its target's path. Following links is the business of walks along
  paths, not of the tree.
-/

namespace WikiPress.Files

/-- A file, a symbolic link or a directory. -/
inductive Node
  | file (content : ByteArray)
  | link (target : String)
  | directory (entries : List (String × Node))

instance : Inhabited Node := ⟨.directory []⟩

/-- Whether a node is a directory itself. -/
def Node.isDirectory : Node → Bool
  | .directory _ => true
  | _ => false

/-- The node at the end of a row of names. -/
def Node.at? : List String → Node → Option Node
  | [], node => some node
  | name :: rest, .directory entries => (Keyed.find? name entries).bind (Node.at? rest)
  | _ :: _, _ => none

/-- Changes the entries of the directory at the end of a row of names. -/
def Node.updateAt (change : Keyed Node → Keyed Node) :
    List String → Node → Node
  | [], .directory entries => .directory (change entries)
  | name :: rest, .directory entries =>
      .directory (entries.map fun (n, node) =>
        (n, if n = name then Node.updateAt change rest node else node))
  | _, node => node

end WikiPress.Files
