import Mathlib.Data.List.Induction
import WikiPress.Proofs.Files.Joined
import WikiPress.Proofs.Files.Replace

/-!
# WikiPress.Proofs.Files.Growth

Trees that grow: directories are created, and files are written, but nothing is taken away.

Design points:

* A walk sees of a node whether it is a file, which link it is, or that it is a directory
  (`SameKind`). In a tree in which everything from before is still of its kind (`Extends`),
  every walk leads where it led (`Leads.extend`).
* A path leads somewhere by its segments (`At`), whether or not it ends in a slash. From a
  directory that is reached this way one more name is one more step, with as many links left
  (`At.join`, `At.find_join`), so what an operation does below the directory is told by the
  entries there.
-/

namespace WikiPress.Files

open WikiPress.Text (segmentsOf)

/-! ## What a walk sees -/

/-- Whether a walk goes the same way at two nodes. -/
inductive SameKind : Node → Node → Prop
  | file (content other : ByteArray) : SameKind (.file content) (.file other)
  | link (target : String) : SameKind (.link target) (.link target)
  | directory (entries others : List (String × Node)) :
      SameKind (.directory entries) (.directory others)

theorem SameKind.trans {a b c : Node} (h : SameKind a b) (h' : SameKind b c) : SameKind a c := by
  cases h with
  | file => cases h'; exact .file _ _
  | link => exact h'
  | directory => cases h'; exact .directory _ _

theorem Alike.trans {a b c : Node} (h : Alike a b) (h' : Alike b c) : Alike a c := by
  cases h with
  | file | link => exact h'
  | directory => cases h'; exact .directory _ _

theorem Alike.sameKind {a b : Node} (h : Alike a b) : SameKind a b := by
  cases h with
  | file content => exact .file content content
  | link target => exact .link target
  | directory entries others => exact .directory entries others

theorem alike_trans {first second third : Option Node} (h : Option.Rel Alike first second)
    (h' : Option.Rel Alike second third) : Option.Rel Alike first third := by
  cases h with
  | none => exact h'
  | some hfirst =>
      cases h' with
      | some hsecond => exact .some (hfirst.trans hsecond)

/-- What was there is there if it is as before. -/
theorem exists_alike {before after : Option Node} {node : Node} (hnode : before = some node)
    (h : Option.Rel Alike before after) : ∃ later, after = some later ∧ Alike node later := by
  subst hnode
  cases h with
  | some halike => exact ⟨_, rfl, halike⟩

/-- Whether everything in a tree is still there in another one. -/
def Extends (before after : Node) : Prop :=
  ∀ place node, lookUp before place = some node →
    ∃ later, lookUp after place = some later ∧ SameKind node later

theorem Extends.refl (root : Node) : Extends root root :=
  fun _ node h => ⟨node, h, (Alike.refl node).sameKind⟩

theorem Extends.trans {a b c : Node} (h : Extends a b) (h' : Extends b c) : Extends a c := by
  intro place node hnode
  obtain ⟨later, hlater, hkind⟩ := h place node hnode
  obtain ⟨last, hlast, hkind'⟩ := h' place later hlater
  exact ⟨last, hlast, hkind.trans hkind'⟩

theorem DirectoryAt.extend {before after : Node} {place : Place} (hextends : Extends before after)
    (h : DirectoryAt before place) : DirectoryAt after place := by
  obtain ⟨entries, hentries⟩ := h
  obtain ⟨later, hlater, hkind⟩ := hextends _ _ hentries
  cases hkind
  exact ⟨_, hlater⟩

/-- Steps lead where they led. -/
theorem Leads.extend {before after : Node} {links left : Nat} {place last : Place}
    {steps : List Step} (hextends : Extends before after)
    (h : Leads before links place steps last left) : Leads after links place steps last left := by
  induction h with
  | arrived => exact .arrived
  | stay hdir _ ih => exact .stay (hdir.extend hextends) ih
  | up hdir habove _ ih =>
      obtain ⟨later, hlater, -⟩ := hextends _ _ habove
      exact .up (hdir.extend hextends) hlater ih
  | into hdir hname hinner hplain _ ih =>
      obtain ⟨later, hlater, hkind⟩ := hextends _ _ hinner
      refine .into (hdir.extend hextends) hname hlater (fun target htarget => ?_) ih
      subst htarget
      cases hkind
      exact hplain target rfl
  | link hdir hname hlink _ ih =>
      obtain ⟨later, hlater, hkind⟩ := hextends _ _ hlink
      cases hkind
      exact .link (hdir.extend hextends) hname hlater ih

/-! ## Giving a node to a name -/

/-- What is at the end of some names is in a directory at the end of all but the last. -/
theorem Node.at?_concat {front : List String} {name : String} {node inner : Node}
    (h : Node.at? (front ++ [name]) node = some inner) :
    ∃ inside, Node.at? front node = some (.directory inside)
      ∧ Keyed.find? name inside = some inner := by
  rw [Node.at?_append] at h
  obtain ⟨between, hbetween, hlast⟩ := Option.bind_eq_some_iff.1 h
  cases between with
  | directory inside =>
      rw [Node.at?] at hlast
      obtain ⟨found, hfound, heq⟩ := Option.bind_eq_some_iff.1 hlast
      cases heq
      exact ⟨inside, hbetween, hfound⟩
  | file _ | link _ => cases hlast

/-- What is below a place. -/
theorem lookUp_append (root : Node) (names : List String) (place : Place) :
    lookUp root (names.reverse ++ place) = (lookUp root place).bind (Node.at? names) := by
  rw [lookUp, lookUp, List.reverse_append, List.reverse_reverse, Node.at?_append]

/-- A change of a directory changes the nodes above it at their names. -/
theorem Node.at?_updateAt_append (change : Keyed Node → Keyed Node) (names more : List String)
    (node : Node) : Node.at? names (node.updateAt change (names ++ more))
      = (Node.at? names node).map (Node.updateAt change more) := by
  induction names generalizing node with
  | nil => rfl
  | cons name rest ih =>
      cases node with
      | directory entries =>
          rw [List.cons_append, Node.at?_updateAt_cons, Node.at?]
          cases Keyed.find? name entries with
          | none => rfl
          | some inner =>
              rw [Option.bind_some, Option.bind_some, if_pos rfl]
              exact ih inner
      | file content => rfl
      | link target => rfl

section Put

variable {fs : FileSystem} {directory : Place} {entries : List (String × Node)}
  (hdirectory : lookUp fs.root directory = some (.directory entries)) (name : String) (new : Node)

include hdirectory

theorem lookUp_put_directory : lookUp (fs.put directory name new).root directory
    = some (.directory (Keyed.set name new entries)) :=
  Node.at?_updateAt_self _ hdirectory

/-- The node is where it was put, with everything in it. -/
theorem lookUp_put_below (below : Place) :
    lookUp (fs.put directory name new).root (below ++ name :: directory)
      = Node.at? below.reverse new := by
  have hself := lookUp_cons (lookUp_put_directory hdirectory name new) name
  rw [Keyed.find?_set_self, lookUp] at hself
  rw [lookUp, List.reverse_append, Node.at?_append, hself, Option.bind_some]

/-- What was at the place of the node. -/
theorem lookUp_below (below : Place) : lookUp fs.root (below ++ name :: directory)
    = (Keyed.find? name entries).bind (Node.at? below.reverse) := by
  have hname := lookUp_cons hdirectory name
  rw [lookUp] at hname
  rw [lookUp, List.reverse_append, Node.at?_append, hname]

omit hdirectory in
/-- Every other place keeps what it has. -/
theorem lookUp_put_elsewhere {place : Place} (h : ¬ name :: directory <:+ place) :
    Option.Rel Alike (lookUp fs.root place) (lookUp (fs.put directory name new).root place) := by
  refine Node.at?_updateAt_set new fs.root fun hprefix => h ?_
  rw [← List.reverse_prefix, List.reverse_cons]
  exact hprefix

/-- A name that was free is given away, or that of a file to a file. -/
theorem extends_put (hold : ∀ old, Keyed.find? name entries = some old →
    (∃ content, old = .file content) ∧ ∃ content, new = .file content) :
    Extends fs.root (fs.put directory name new).root := by
  intro place node hnode
  by_cases hplace : name :: directory <:+ place
  · obtain ⟨below, rfl⟩ := hplace
    rw [lookUp_below hdirectory] at hnode
    obtain ⟨old, hfind, hbelow⟩ := Option.bind_eq_some_iff.1 hnode
    obtain ⟨⟨content, rfl⟩, ⟨other, rfl⟩⟩ := hold old hfind
    rw [lookUp_put_below hdirectory]
    -- nothing is below a file
    cases hreverse : below.reverse with
    | nil =>
        rw [hreverse] at hbelow
        cases hbelow
        exact ⟨_, rfl, .file content other⟩
    | cons first rest =>
        rw [hreverse] at hbelow
        cases hbelow
  · obtain ⟨later, hlater, halike⟩ := exists_alike hnode (lookUp_put_elsewhere name new hplace)
    exact ⟨later, hlater, halike.sameKind⟩

/-- So is a name that was free. -/
theorem extends_put_free (hfree : Keyed.find? name entries = none) :
    Extends fs.root (fs.put directory name new).root := by
  refine extends_put hdirectory name new fun old hold => ?_
  rw [hfree] at hold
  cases hold

end Put

/-! ## Walks to a name that is free -/

/-- A name a walk finds free is free in a directory. -/
theorem free_of_vacant {root : Node} {follow : Bool} {links : Nat} {place directory : Place}
    {node : Node} {name : String} {steps : List Step} (hnode : lookUp root place = some node)
    (h : walk root follow links place node steps = .ok (.vacant directory name)) :
    ∃ entries, lookUp root directory = some (.directory entries)
      ∧ Keyed.find? name entries = none := by
  fun_induction walk root follow links place node steps with
  | case2 links place node rest hdir ih => exact ih hnode h
  | case4 links place node rest hdir above habove ih => exact ih habove h
  | case8 links place name entries hname hfind =>
      cases h
      exact ⟨entries, hnode, hfind⟩
  | case12 place name rest entries hname target hfind _ links habsolute ih => exact ih rfl h
  | case13 place name rest entries hname target hfind _ links habsolute ih => exact ih hnode h
  | case14 links place name rest entries hname inner hlink hfind ih =>
      exact ih (by rw [lookUp_cons hnode, hfind]) h
  -- the other walks fail, or end at a node
  | case1 | case3 | case5 | case6 | case7 | case9 | case10 | case11 | case15 => cases h

/-- A walk to a name that is free leads to what is put there. -/
theorem leads_of_vacant {root after new : Node} {follow : Bool} {links : Nat}
    {place directory : Place} {node : Node} {name : String} {steps : List Step}
    (hextends : Extends root after) (hnew : lookUp after (name :: directory) = some new)
    (hplain : ∀ target, new ≠ .link target) (hnode : lookUp root place = some node)
    (h : walk root follow links place node steps = .ok (.vacant directory name)) :
    ∃ left, Leads after links place steps (name :: directory) left := by
  fun_induction walk root follow links place node steps with
  | case2 links place node rest hdir ih =>
      obtain ⟨left, hleads⟩ := ih hnode h
      obtain ⟨entries, rfl⟩ := Node.isDirectory_iff.1 hdir
      exact ⟨left, .stay (DirectoryAt.extend hextends ⟨entries, hnode⟩) hleads⟩
  | case4 links place node rest hdir above habove ih =>
      obtain ⟨left, hleads⟩ := ih habove h
      obtain ⟨entries, rfl⟩ := Node.isDirectory_iff.1 hdir
      obtain ⟨later, hlater, -⟩ := hextends _ _ habove
      exact ⟨left, .up (DirectoryAt.extend hextends ⟨entries, hnode⟩) hlater hleads⟩
  -- here the walk ends
  | case8 links place name entries hname hfind =>
      cases h
      exact ⟨links, .into (DirectoryAt.extend hextends ⟨entries, hnode⟩) hname hnew hplain .arrived⟩
  | case12 place name rest entries hname target hfind _ links habsolute ih =>
      obtain ⟨left, hleads⟩ := ih rfl h
      have hlink : lookUp root (name :: place) = some (.link target) := by
        rw [lookUp_cons hnode, hfind]
      obtain ⟨_, hlater, hkind⟩ := hextends _ _ hlink
      cases hkind
      refine ⟨left, .link (DirectoryAt.extend hextends ⟨entries, hnode⟩) hname hlater ?_⟩
      rw [if_pos habsolute]
      exact hleads
  | case13 place name rest entries hname target hfind _ links habsolute ih =>
      obtain ⟨left, hleads⟩ := ih hnode h
      have hlink : lookUp root (name :: place) = some (.link target) := by
        rw [lookUp_cons hnode, hfind]
      obtain ⟨_, hlater, hkind⟩ := hextends _ _ hlink
      cases hkind
      refine ⟨left, .link (DirectoryAt.extend hextends ⟨entries, hnode⟩) hname hlater ?_⟩
      rw [if_neg habsolute]
      exact hleads
  | case14 links place name rest entries hname inner hlink hfind ih =>
      have hinner : lookUp root (name :: place) = some inner := by rw [lookUp_cons hnode, hfind]
      obtain ⟨left, hleads⟩ := ih hinner h
      obtain ⟨later, hlater, hkind⟩ := hextends _ _ hinner
      refine ⟨left, .into (DirectoryAt.extend hextends ⟨entries, hnode⟩) hname hlater
        (fun target htarget => ?_) hleads⟩
      subst htarget
      cases hkind
      exact hlink target rfl
  -- the other walks fail, or end at a node
  | case1 | case3 | case5 | case6 | case7 | case9 | case10 | case11 | case15 => cases h

/-- A walk goes on from where its first steps lead. -/
theorem walk_append {root : Node} {follow : Bool} {links mid : Nat} {place through : Place}
    {node found : Node} {steps more : List Step} (hleads : Leads root links place steps through mid)
    (hnode : lookUp root place = some node) (hfound : lookUp root through = some found)
    (hmore : more ≠ []) :
    walk root follow links place node (steps ++ more)
      = walk root follow mid through found more := by
  induction hleads generalizing node with
  | arrived =>
      obtain rfl := Option.some.inj (hnode.symm.trans hfound)
      rfl
  | stay hdir _ ih =>
      obtain ⟨entries, hentries⟩ := hdir
      obtain rfl := Option.some.inj (hnode.symm.trans hentries)
      rw [List.cons_append, walk]
      exact ih hnode hfound
  | up hdir habove _ ih =>
      obtain ⟨entries, hentries⟩ := hdir
      obtain rfl := Option.some.inj (hnode.symm.trans hentries)
      rw [lookUp] at habove
      simp only [List.cons_append, walk, Node.isDirectory, if_true, habove]
      exact ih habove hfound
  | into hdir hname hinner hlink _ ih =>
      obtain ⟨entries, hentries⟩ := hdir
      obtain rfl := Option.some.inj (hnode.symm.trans hentries)
      have hfind := hinner
      rw [lookUp_cons hnode] at hfind
      simp only [List.cons_append, walk, hfind, if_neg hname]
      exact ih hinner hfound
  | @link links left place last rest name target hdir hname hlink _ ih =>
      obtain ⟨entries, hentries⟩ := hdir
      obtain rfl := Option.some.inj (hnode.symm.trans hentries)
      have htarget := hlink
      rw [lookUp_cons hnode] at htarget
      -- a link in the last step is followed too, since there are more steps
      have hrest : ¬ (rest ++ more = [] ∧ follow = false) := fun h =>
        hmore (List.append_eq_nil_iff.1 h.1).2
      simp only [List.cons_append, walk, htarget, if_neg hname, if_neg hrest, ← List.append_assoc]
      split
      · next habsolute =>
          rw [if_pos habsolute] at ih
          exact ih rfl hfound
      · next habsolute =>
          rw [if_neg habsolute] at ih
          exact ih hnode hfound

/-! ## Paths to directories -/

/-- Whether a path leads to a place, and how many links may still be followed from there. -/
structure At (fs : FileSystem) (path : String) (place : Place) (left : Nat) : Prop where
  usable : Usable path
  leads : Leads fs.root linkLimit (fs.startOf path) (plainSteps path) place left

theorem At.extend {fs later : FileSystem} {path : String} {place : Place} {left : Nat}
    (h : At fs path place left) (hextends : Extends fs.root later.root)
    (hworking : later.workingDirectory = fs.workingDirectory) : At later path place left := by
  refine ⟨h.usable, ?_⟩
  have hstart : later.startOf path = fs.startOf path := by
    rw [FileSystem.startOf, FileSystem.startOf, hworking]
  rw [hstart]
  exact h.leads.extend hextends

/-- A slash at the end of a path asks for the directory that is there. -/
theorem At.find {fs : FileSystem} {path : String} {place : Place} {left : Nat}
    {entries : List (String × Node)} (h : At fs path place left)
    (hplace : lookUp fs.root place = some (.directory entries)) :
    fs.find path true = .ok (.node place (.directory entries)) := by
  have hsteps : stepsOf path
      = plainSteps path ++ if path.toList.getLast? = some '/' then [.stay] else [] := rfl
  refine walkFrom_eq_ok_iff.2 ⟨h.usable, ⟨left, ?_⟩, hplace⟩
  rw [hsteps]
  split
  · exact h.leads.append (.stay ⟨entries, hplace⟩ .arrived)
  · rw [List.append_nil]
    exact h.leads

/-- A path leads to a directory with or without a slash at its end. -/
theorem find_eq_directory_iff {fs : FileSystem} {path : String} {place : Place}
    {entries : List (String × Node)} : fs.find path true = .ok (.node place (.directory entries))
      ↔ ∃ left, At fs path place left ∧ lookUp fs.root place = some (.directory entries) := by
  have hsteps : stepsOf path
      = plainSteps path ++ if path.toList.getLast? = some '/' then [.stay] else [] := rfl
  constructor
  · intro hfind
    obtain ⟨husable, ⟨left, hleads⟩, hplace⟩ := walkFrom_eq_ok_iff.1 hfind
    rw [hsteps] at hleads
    split at hleads
    · obtain ⟨through, mid, hfirst, hstay⟩ := hleads.split
      cases hstay with
      | stay _ harrived =>
          cases harrived
          exact ⟨left, ⟨husable, hfirst⟩, hplace⟩
    · rw [List.append_nil] at hleads
      exact ⟨left, ⟨husable, hleads⟩, hplace⟩
  · intro ⟨left, hat, hplace⟩
    exact hat.find hplace

theorem node_eq_directory_iff {fs : FileSystem} {path : String} {entries : List (String × Node)} :
    fs.node path = .ok (.directory entries)
      ↔ ∃ place left, At fs path place left ∧ lookUp fs.root place = some (.directory entries) := by
  have hnode : fs.node path = .ok (.directory entries)
      ↔ ∃ place, fs.find path true = .ok (.node place (.directory entries)) := by
    unfold FileSystem.node
    cases fs.find path true with
    | error e => simp
    | ok found => cases found <;> simp
  rw [hnode]
  exact exists_congr fun place => find_eq_directory_iff

/-- A text is a path if a walk along it ends anywhere. -/
theorem usable_of_walkFrom {fs : FileSystem} {path : String} {follow : Bool} {steps : List Step}
    {found : Found} (h : fs.walkFrom path follow steps = .ok found) : Usable path := by
  unfold FileSystem.walkFrom at h
  split at h
  · cases h
  next hnul =>
  split at h
  · cases h
  next hempty => exact ⟨Bool.eq_false_iff.2 hnul, Bool.eq_false_iff.2 hempty⟩

/-- A walk along a path goes on from where its first steps lead. -/
theorem walkFrom_append {fs : FileSystem} {path : String} {steps more : List Step}
    {through : Place} {mid : Nat} {found : Node} {follow : Bool} (husable : Usable path)
    (hleads : Leads fs.root linkLimit (fs.startOf path) steps through mid)
    (hfound : lookUp fs.root through = some found) (hmore : more ≠ []) :
    fs.walkFrom path follow (steps ++ more) = walk fs.root follow mid through found more := by
  obtain ⟨node, hstart⟩ := hleads.exists_start hfound
  unfold FileSystem.walkFrom
  rw [husable.1, husable.2, if_neg Bool.false_ne_true, if_neg Bool.false_ne_true]
  rw [FileSystem.startOf] at hleads hstart
  split
  · next habsolute =>
      rw [if_pos habsolute] at hleads
      exact walk_append hleads rfl hfound hmore
  · next habsolute =>
      rw [if_neg habsolute] at hleads hstart
      have hworking := hstart
      rw [lookUp, List.reverse_reverse] at hworking
      rw [hworking]
      exact walk_append hleads hstart hfound hmore

/-! ## One more name -/

/-- Whether a file can be created under a name. -/
structure Allowed (name : String) : Prop where
  proper : ProperName name
  nul : '\x00' ∉ name.toList
  short : ¬ nameLimit < name.utf8ByteSize

instance (name : String) : Decidable (Allowed name) :=
  decidable_of_iff (ProperName name ∧ '\x00' ∉ name.toList ∧ ¬ nameLimit < name.utf8ByteSize)
    ⟨fun ⟨h, hnul, hshort⟩ => ⟨h, hnul, hshort⟩, fun h => ⟨h.proper, h.nul, h.short⟩⟩

theorem Usable.ne_empty {path : String} (h : Usable path) : path ≠ "" := by
  rintro rfl
  exact absurd h.2 (by decide)

theorem usable_join_of_relative {directory path : String} (h : Usable directory)
    (hpath : isAbsolute path = false) :
    Usable (join directory path) ↔ '\x00' ∉ path.toList := by
  obtain ⟨front, hjoin, hfront⟩ := toList_join_of_relative h.ne_empty hpath
  have hnonempty : (join directory path).isEmpty = false := by
    rw [← Bool.not_eq_true, String.isEmpty_iff]
    intro hempty
    simp [hempty] at hjoin
  have hclean : '\x00' ∉ front := by
    have hdirectory := h.1
    rcases hfront with hfront | hfront <;> simp_all
  rw [Usable, hjoin]
  simp [hnonempty, hclean]

theorem usable_join {directory name : String} (h : Usable directory) (hname : ProperName name) :
    Usable (join directory name) ↔ '\x00' ∉ name.toList :=
  usable_join_of_relative h hname.not_absolute

theorem stepsOf_join {directory name : String} (hdirectory : directory ≠ "")
    (hname : ProperName name) :
    stepsOf (join directory name) = plainSteps (join directory name) := by
  have hlast : name.toList.getLast? ≠ some '/' := by simpa using hname.getLast?_append ""
  have hsteps : stepsOf name = plainSteps name := by
    rw [stepsOf, if_neg hlast, List.append_nil]
    rfl
  rw [stepsOf_join_of_relative directory hname.not_absolute hname.nonempty, hsteps,
    plainSteps_join_of_relative hdirectory hname.not_absolute]

namespace At

variable {fs : FileSystem} {directory name : String} {place : Place} {left : Nat}
  {entries : List (String × Node)}

/-- One more name is one more step. -/
theorem walkFrom_join (h : At fs directory place left)
    (hentries : lookUp fs.root place = some (.directory entries)) (hname : ProperName name)
    (hnul : '\x00' ∉ name.toList) (follow : Bool) :
    fs.walkFrom (Files.join directory name) follow (plainSteps (Files.join directory name))
      = walk fs.root follow left place (.directory entries) [.into name] := by
  rw [plainSteps_join h.usable.ne_empty hname]
  refine walkFrom_append ((usable_join h.usable hname).2 hnul) ?_ hentries (by simp)
  rw [startOf_join fs h.usable.ne_empty hname]
  exact h.leads

theorem find_join (h : At fs directory place left)
    (hentries : lookUp fs.root place = some (.directory entries)) (hname : ProperName name)
    (hnul : '\x00' ∉ name.toList) (follow : Bool) :
    fs.find (Files.join directory name) follow
      = walk fs.root follow left place (.directory entries) [.into name] := by
  rw [FileSystem.find, stepsOf_join h.usable.ne_empty hname, h.walkFrom_join hentries hname hnul]

/-- What is in a directory is found under the directory's path. -/
theorem join (h : At fs directory place left)
    (hentries : lookUp fs.root place = some (.directory entries)) (hname : Allowed name)
    {inner : Node} (hinner : Keyed.find? name entries = some inner)
    (hplain : ∀ target, inner ≠ .link target) :
    At fs (Files.join directory name) (name :: place) left := by
  refine ⟨(usable_join h.usable hname.proper).2 hname.nul, ?_⟩
  rw [startOf_join fs h.usable.ne_empty hname.proper,
    plainSteps_join h.usable.ne_empty hname.proper]
  refine h.leads.append (.into ⟨entries, hentries⟩ hname.short ?_ hplain .arrived)
  rw [lookUp_cons hentries, hinner]

end At

/-! ## Creating directories -/

section Walk

variable {root : Node} {follow : Bool} {links : Nat} {place : Place} {name : String}
  {entries : List (String × Node)} (hshort : ¬ nameLimit < name.utf8ByteSize)

include hshort

theorem walk_into_free (hfree : Keyed.find? name entries = none) :
    walk root follow links place (.directory entries) [.into name] = .ok (.vacant place name) := by
  simp only [walk, if_neg hshort, hfree, if_true]

theorem walk_into_node {inner : Node} (hinner : Keyed.find? name entries = some inner)
    (hplain : ∀ target, inner ≠ .link target) :
    walk root follow links place (.directory entries) [.into name]
      = .ok (.node (name :: place) inner) := by
  cases inner with
  | link target => exact absurd rfl (hplain target)
  | file _ | directory _ => simp only [walk, if_neg hshort, hinner]

end Walk

/-- Slashes at the end of a path say nothing of where it leads. -/
theorem filterMap_stepOf_strip (path : List Char) :
    (segmentsOf (path.reverse.dropWhile (· = '/')).reverse).filterMap stepOf
      = (segmentsOf path).filterMap stepOf := by
  induction path using List.reverseRecOn with
  | nil => rfl
  | append_singleton front c ih =>
      rw [List.reverse_append, List.reverse_singleton, List.singleton_append, List.dropWhile_cons]
      by_cases hc : c = '/'
      · subst hc
        rw [if_pos (by decide), ih, segmentsOf_append, List.filterMap_append]
        simp [segmentsOf, segmentsOf.go, stepOf]
      · rw [if_neg (by simpa using hc), List.reverse_cons, List.reverse_reverse]

theorem makeDirectory_eq (fs : FileSystem) (path : String) :
    fs.makeDirectory path = match fs.walkFrom path false (plainSteps path) with
      | .ok (.vacant directory name) => .ok (fs.put directory name (.directory []))
      | .ok (.node _ _) => .error .alreadyExists
      | .error e => .error e := by
  have hsteps : (segmentsOf (path.toList.reverse.dropWhile (· = '/')).reverse).filterMap stepOf
      = plainSteps path := filterMap_stepOf_strip path.toList
  unfold FileSystem.makeDirectory
  exact hsteps ▸ rfl

/-- A walk along a path that ends anywhere starts at a place that is there. -/
theorem walkFrom_eq_ok {fs : FileSystem} {path : String} {follow : Bool} {steps : List Step}
    {found : Found} (h : fs.walkFrom path follow steps = .ok found) :
    Usable path ∧ ∃ node, lookUp fs.root (fs.startOf path) = some node
      ∧ walk fs.root follow linkLimit (fs.startOf path) node steps = .ok found := by
  have husable := usable_of_walkFrom h
  unfold FileSystem.walkFrom at h
  unfold FileSystem.startOf
  refine ⟨husable, ?_⟩
  rw [husable.1, husable.2, if_neg Bool.false_ne_true, if_neg Bool.false_ne_true] at h
  split at h
  · next habsolute =>
      rw [if_pos habsolute]
      exact ⟨fs.root, rfl, h⟩
  · next habsolute =>
      rw [if_neg habsolute]
      split at h
      · next start hstart =>
          exact ⟨start, by rw [lookUp, List.reverse_reverse, hstart], h⟩
      · cases h

/-- A directory that is created takes the name a walk found free, and its path leads to it. -/
theorem vacant_of_makeDirectory {fs made : FileSystem} {path : String}
    (h : fs.makeDirectory path = .ok made) :
    ∃ place name entries, fs.walkFrom path false (plainSteps path) = .ok (.vacant place name)
      ∧ lookUp fs.root place = some (.directory entries)
      ∧ Keyed.find? name entries = none ∧ made = fs.put place name (.directory [])
      ∧ ∃ left, At made path (name :: place) left := by
  rw [makeDirectory_eq] at h
  split at h
  · next place name hwalk =>
      cases h
      obtain ⟨husable, node, hnode, hfirst⟩ := walkFrom_eq_ok hwalk
      obtain ⟨entries, hentries, hfree⟩ := free_of_vacant hnode hfirst
      refine ⟨place, name, entries, hwalk, hentries, hfree, rfl, ?_⟩
      have hextends : Extends fs.root (fs.put place name (.directory [])).root :=
        extends_put_free hentries name _ hfree
      have hnew := lookUp_put_below hentries name (.directory []) []
      obtain ⟨left, hleads⟩ := leads_of_vacant hextends hnew (by simp) hnode hfirst
      exact ⟨left, husable, hleads⟩
  · cases h
  · cases h

/-- A directory that is created takes a name that was free, and its path leads to it. -/
theorem makeDirectory_eq_ok {fs made : FileSystem} {path : String}
    (h : fs.makeDirectory path = .ok made) :
    ∃ place name entries, lookUp fs.root place = some (.directory entries)
      ∧ Keyed.find? name entries = none ∧ made = fs.put place name (.directory [])
      ∧ ∃ left, At made path (name :: place) left := by
  obtain ⟨place, name, entries, -, hmade⟩ := vacant_of_makeDirectory h
  exact ⟨place, name, entries, hmade⟩

theorem ancestors_cons {path : String} (h : path ≠ "") :
    ∃ outer, ancestors path = path :: outer := by
  have hsome : (segmentsOf path.toList).length ≠ 0 :=
    List.length_eq_zero_iff.not.2 (segmentsOf_go_ne_nil [] path.toList)
  obtain ⟨fuel, hfuel⟩ := Nat.exists_eq_succ_of_ne_zero hsome
  rw [ancestors, hfuel, ancestors.go, if_neg (by simpa using h)]
  exact ⟨_, rfl⟩

namespace At

variable {fs : FileSystem} {directory name : String} {place : Place} {left : Nat}
  {entries : List (String × Node)}

theorem makeDirectory_free (h : At fs directory place left)
    (hentries : lookUp fs.root place = some (.directory entries)) (hname : Allowed name)
    (hfree : Keyed.find? name entries = none) :
    fs.makeDirectory (Files.join directory name) = .ok (fs.put place name (.directory [])) := by
  rw [makeDirectory_eq, h.walkFrom_join hentries hname.proper hname.nul,
    walk_into_free hname.short hfree]

/-- A new file is written in a directory that is reached. -/
theorem write_free (h : At fs directory place left)
    (hentries : lookUp fs.root place = some (.directory entries)) (hname : Allowed name)
    (hfree : Keyed.find? name entries = none) (content : ByteArray) :
    fs.write (Files.join directory name) content = .ok (fs.put place name (.file content)) := by
  rw [FileSystem.write, h.find_join hentries hname.proper hname.nul,
    walk_into_free hname.short hfree]

/-- A directory is created below one that is there. -/
theorem makeDirectories_free (h : At fs directory place left)
    (hentries : lookUp fs.root place = some (.directory entries)) (hname : Allowed name)
    (hfree : Keyed.find? name entries = none) :
    fs.makeDirectories (Files.join directory name)
      = (.ok (), fs.put place name (.directory [])) := by
  obtain ⟨outer, houter⟩ :=
    ancestors_cons ((usable_join h.usable hname.proper).2 hname.nul).ne_empty
  rw [FileSystem.makeDirectories, houter, FileSystem.makeMissing,
    h.makeDirectory_free hentries hname hfree]

/-- A directory that is there is left alone. -/
theorem makeDirectories_there (h : At fs directory place left)
    (hentries : lookUp fs.root place = some (.directory entries)) (hname : Allowed name)
    {inside : List (String × Node)} (hinner : Keyed.find? name entries = some (.directory inside)) :
    fs.makeDirectories (Files.join directory name) = (.ok (), fs) := by
  obtain ⟨outer, houter⟩ :=
    ancestors_cons ((usable_join h.usable hname.proper).2 hname.nul).ne_empty
  have hdirectory : fs.isDirectory (Files.join directory name) = true := by
    refine FileSystem.isDirectory_iff.2 ⟨inside, node_eq_directory_iff.2
      ⟨name :: place, left, h.join hentries hname hinner (by simp), ?_⟩⟩
    rw [lookUp_cons hentries, hinner]
  rw [FileSystem.makeDirectories, houter, FileSystem.makeMissing, makeDirectory_eq,
    h.walkFrom_join hentries hname.proper hname.nul, walk_into_node hname.short hinner (by simp)]
  simp only [hdirectory, if_true]

/-- So is anything else that has the name, but for a link. -/
theorem makeDirectories_taken (h : At fs directory place left)
    (hentries : lookUp fs.root place = some (.directory entries)) (hname : Allowed name)
    {inner : Node} (hinner : Keyed.find? name entries = some inner)
    (hplain : ∀ target, inner ≠ .link target) :
    (fs.makeDirectories (Files.join directory name)).2 = fs := by
  obtain ⟨outer, houter⟩ :=
    ancestors_cons ((usable_join h.usable hname.proper).2 hname.nul).ne_empty
  rw [FileSystem.makeDirectories, houter, FileSystem.makeMissing, makeDirectory_eq,
    h.walkFrom_join hentries hname.proper hname.nul, walk_into_node hname.short hinner hplain]
  simp only
  split <;> rfl

end At

/-- Where a walk finds nothing, one that would go on finds nothing either. -/
theorem walk_append_missing {root : Node} {follow : Bool} {links : Nat} {place : Place}
    {node : Node} {steps more : List Step} (hmore : more ≠ [])
    (h : (∃ directory name, walk root true links place node steps = .ok (.vacant directory name))
      ∨ walk root true links place node steps = .error .noSuchFile) :
    walk root follow links place node (steps ++ more) = .error .noSuchFile := by
  fun_induction walk root true links place node steps with
  | case1 | case3 | case6 | case7 | case11 | case15 => simp at h
  | case2 links place node rest hdir ih =>
      rw [List.cons_append, walk, if_pos hdir]
      exact ih h
  | case4 links place node rest hdir above habove ih =>
      simp only [List.cons_append, walk, if_pos hdir, habove]
      exact ih h
  | case5 links place node rest hdir hnone => simp [walk, hdir, hnone]
  | case8 links place name entries hname hfind => simp [walk, hname, hfind, hmore]
  | case9 links place name rest entries hname hfind hrest => simp [walk, hname, hfind, hmore]
  | case10 => next hrest => exact absurd hrest.2 (by decide)
  | case12 place name rest entries hname target hfind _ links habsolute ih =>
      simp only [List.cons_append, walk, hfind, if_neg hname, habsolute, if_true,
        ← List.append_assoc]
      rw [if_neg (by simp [hmore])]
      exact ih h
  | case13 place name rest entries hname target hfind _ links habsolute ih =>
      simp only [List.cons_append, walk, hfind, if_neg hname, if_neg habsolute,
        ← List.append_assoc]
      rw [if_neg (by simp [hmore])]
      exact ih h
  | case14 links place name rest entries hname inner hlink hfind ih =>
      cases inner with
      | link target => exact absurd rfl (hlink target)
      | file _ | directory _ =>
          simp only [List.cons_append, walk, hfind, if_neg hname]
          exact ih h

/-- Nothing is created below a directory that is missing. -/
theorem makeDirectory_missing {fs : FileSystem} {directory name : String}
    (hplain : EndsPlainly directory) (hnode : fs.node directory = .error .noSuchFile)
    (hname : Allowed name) :
    fs.makeDirectory (join directory name) = .error .noSuchFile := by
  have hnonempty := hplain.ne_empty
  have hsteps : stepsOf directory = plainSteps directory := by
    rw [stepsOf, if_neg, List.append_nil]
    · rfl
    · intro hlast
      obtain ⟨front, hfront⟩ := List.getLast?_eq_some_iff.1 hlast
      exact hplain.no_slash front hfront
  have hwalk : (∃ place name, fs.walkFrom directory true (plainSteps directory)
        = .ok (.vacant place name))
      ∨ fs.walkFrom directory true (plainSteps directory) = .error .noSuchFile := by
    unfold FileSystem.node FileSystem.find at hnode
    rw [hsteps] at hnode
    split at hnode
    · cases hnode
    · next hvacant => exact Or.inl ⟨_, _, hvacant⟩
    · next hmissing =>
        cases hnode
        exact Or.inr hmissing
  have husable : Usable directory := by
    refine ⟨?_, by simpa using hnonempty⟩
    by_contra hnul
    have hunusable : fs.walkFrom directory true (plainSteps directory)
        = .error .unusablePath := if_pos ((Bool.not_eq_false _).mp hnul)
    simp [hunusable] at hwalk
  have hjoined := (usable_join husable hname.proper).2 hname.nul
  have hmissing : fs.walkFrom (join directory name) false (plainSteps (join directory name))
      = .error .noSuchFile := by
    rw [plainSteps_join hnonempty hname.proper]
    unfold FileSystem.walkFrom at hwalk ⊢
    rw [husable.1, husable.2, if_neg Bool.false_ne_true, if_neg Bool.false_ne_true] at hwalk
    rw [hjoined.1, hjoined.2, if_neg Bool.false_ne_true, if_neg Bool.false_ne_true,
      isAbsolute_join hnonempty hname.proper]
    split
    · next habsolute =>
        rw [if_pos habsolute] at hwalk
        exact walk_append_missing (List.cons_ne_nil _ _) hwalk
    · next habsolute =>
        rw [if_neg habsolute] at hwalk
        split
        · next start hstart =>
            rw [hstart] at hwalk
            exact walk_append_missing (List.cons_ne_nil _ _) hwalk
        · rfl
  rw [makeDirectory_eq, hmissing]

/-- Whether a path is a row of names behind the path of a directory. -/
structure Behind (directory : String) (names : List String) (path : String) : Prop where
  nonempty : path ≠ ""
  plain : plainSteps path = plainSteps directory ++ names.map .into
  steps : stepsOf path = plainSteps path
  start : ∀ fs : FileSystem, fs.startOf path = fs.startOf directory

theorem behind_join {directory name : String} (hdirectory : directory ≠ "")
    (hname : ProperName name) : Behind directory [name] (join directory name) where
  nonempty := join_ne_empty hdirectory hname
  plain := plainSteps_join hdirectory hname
  steps := stepsOf_join hdirectory hname
  start fs := startOf_join fs hdirectory hname

theorem Behind.join {directory path name : String} {names : List String}
    (h : Behind directory names path) (hname : ProperName name) :
    Behind directory (names ++ [name]) (Files.join path name) where
  nonempty := join_ne_empty h.nonempty hname
  plain := by
    rw [plainSteps_join h.nonempty hname, h.plain, List.map_append, List.append_assoc]
    rfl
  steps := stepsOf_join h.nonempty hname
  start fs := (startOf_join fs h.nonempty hname).trans (h.start fs)

end WikiPress.Files
