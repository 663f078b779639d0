import Mathlib.Data.List.Basic
import WikiPress.Files.System

/-!
# WikiPress.Proofs.Files.Walk

What a walk along a path does, one constructor a step.

`walk` answers with a node or with an error. `Leads` describes the walks that answer with
a node, by the places they come through: a walk that says where it ends is a derivation
(`walk_eq_ok_iff`), and facts about walks are inductions over it.

Design points:

* A place says everything about where a walk is, since the node there is the one the
  root has there (`lookUp`).
* Links are always followed: these are the walks of reading, and of finding the directory
  a file is to be put in.
* The links a walk has left are part of the relation, so that walks join at a place
  (`Leads.append`) and come apart again (`Leads.split`).
-/

namespace WikiPress.Files

/-! ## Places -/

/-- The node at a place. -/
def lookUp (root : Node) (place : Place) : Option Node :=
  Node.at? place.reverse root

theorem Node.at?_append (first second : List String) (node : Node) :
    Node.at? (first ++ second) node = (Node.at? first node).bind (Node.at? second) := by
  induction first generalizing node with
  | nil => rfl
  | cons name rest ih =>
      cases node with
      | directory entries =>
          simp only [List.cons_append, Node.at?]
          cases Keyed.find? name entries with
          | none => rfl
          | some inner => exact ih inner
      | file content => rfl
      | link target => rfl

/-- A name in a directory leads to what the directory has under it. -/
theorem lookUp_cons {root : Node} {place : Place} {entries : List (String × Node)}
    (h : lookUp root place = some (.directory entries)) (name : String) :
    lookUp root (name :: place) = Keyed.find? name entries := by
  rw [lookUp] at h
  rw [lookUp, List.reverse_cons, Node.at?_append, h, Option.bind_some, Node.at?]
  cases Keyed.find? name entries <;> rfl

/-- Whether there is a directory at a place. -/
def DirectoryAt (root : Node) (place : Place) : Prop :=
  ∃ entries, lookUp root place = some (.directory entries)

/-! ## Walks -/

/-- `Leads root links place steps last left`: the steps lead from a place to another one.
A walk that may follow `links` links may still follow `left` then. -/
inductive Leads (root : Node) : Nat → Place → List Step → Place → Nat → Prop
  /-- No step is left. -/
  | arrived {links : Nat} {place : Place} : Leads root links place [] place links
  /-- A directory may be asked to be one. -/
  | stay {links left : Nat} {place last : Place} {rest : List Step} :
      DirectoryAt root place → Leads root links place rest last left →
      Leads root links place (.stay :: rest) last left
  /-- Up from a directory. -/
  | up {links left : Nat} {place last : Place} {rest : List Step} {above : Node} :
      DirectoryAt root place → lookUp root place.tail = some above →
      Leads root links place.tail rest last left →
      Leads root links place (.up :: rest) last left
  /-- Into a directory, to anything but a link. -/
  | into {links left : Nat} {place last : Place} {rest : List Step} {name : String}
      {inner : Node} :
      DirectoryAt root place → ¬ nameLimit < name.utf8ByteSize →
      lookUp root (name :: place) = some inner → (∀ target, inner ≠ .link target) →
      Leads root links (name :: place) rest last left →
      Leads root links place (.into name :: rest) last left
  /-- From a link at once to the steps of its target. -/
  | link {links left : Nat} {place last : Place} {rest : List Step} {name target : String} :
      DirectoryAt root place → ¬ nameLimit < name.utf8ByteSize →
      lookUp root (name :: place) = some (.link target) →
      Leads root links (if isAbsolute target then [] else place) (stepsOf target ++ rest)
        last left →
      Leads root (links + 1) place (.into name :: rest) last left

theorem Node.isDirectory_iff {node : Node} :
    node.isDirectory = true ↔ ∃ entries, node = .directory entries := by
  cases node <;> simp [Node.isDirectory]

theorem FileSystem.isDirectory_iff {fs : FileSystem} {path : String} :
    fs.isDirectory path = true ↔ ∃ entries, fs.node path = .ok (.directory entries) := by
  rw [FileSystem.isDirectory]
  cases fs.node path with
  | ok node => simp [Except.toOption, Node.isDirectory_iff]
  | error e => simp [Except.toOption]

/-- A walk that answers with a node has come to it step by step. -/
theorem leads_of_walk {root : Node} {links : Nat} {place last : Place} {node found : Node}
    {steps : List Step} (hnode : lookUp root place = some node)
    (h : walk root true links place node steps = .ok (.node last found)) :
    (∃ left, Leads root links place steps last left) ∧ lookUp root last = some found := by
  fun_induction walk root true links place node steps with
  | case1 links place node =>
      cases h
      exact ⟨⟨links, .arrived⟩, hnode⟩
  | case2 links place node rest hdir ih =>
      obtain ⟨⟨left, hleads⟩, hfound⟩ := ih hnode h
      obtain ⟨entries, rfl⟩ := Node.isDirectory_iff.1 hdir
      exact ⟨⟨left, .stay ⟨entries, hnode⟩ hleads⟩, hfound⟩
  | case4 links place node rest hdir above habove ih =>
      obtain ⟨⟨left, hleads⟩, hfound⟩ := ih habove h
      obtain ⟨entries, rfl⟩ := Node.isDirectory_iff.1 hdir
      exact ⟨⟨left, .up ⟨entries, hnode⟩ habove hleads⟩, hfound⟩
  | case12 place name rest entries hname target hfind _ links habsolute ih =>
      obtain ⟨⟨left, hleads⟩, hfound⟩ := ih rfl h
      refine ⟨⟨left, .link ⟨entries, hnode⟩ hname (by rw [lookUp_cons hnode, hfind]) ?_⟩, hfound⟩
      rw [if_pos habsolute]
      exact hleads
  | case13 place name rest entries hname target hfind _ links habsolute ih =>
      obtain ⟨⟨left, hleads⟩, hfound⟩ := ih hnode h
      refine ⟨⟨left, .link ⟨entries, hnode⟩ hname (by rw [lookUp_cons hnode, hfind]) ?_⟩, hfound⟩
      rw [if_neg habsolute]
      exact hleads
  | case14 links place name rest entries hname inner hlink hfind ih =>
      have hinner : lookUp root (name :: place) = some inner := by rw [lookUp_cons hnode, hfind]
      obtain ⟨⟨left, hleads⟩, hfound⟩ := ih hinner h
      exact ⟨⟨left, .into ⟨entries, hnode⟩ hname hinner hlink hleads⟩, hfound⟩
  -- links are followed, in the last step too
  | case10 =>
      next hrest =>
        exact absurd hrest.2 (by decide)
  -- the other walks fail, or end at a name that is free
  | case3 | case5 | case6 | case7 | case8 | case9 | case11 | case15 => cases h

/-- Where steps lead, a walk along them ends. -/
theorem walk_of_leads {root : Node} {links left : Nat} {place last : Place} {node found : Node}
    {steps : List Step} (hleads : Leads root links place steps last left)
    (hnode : lookUp root place = some node) (hfound : lookUp root last = some found) :
    walk root true links place node steps = .ok (.node last found) := by
  induction hleads generalizing node with
  | arrived =>
      obtain rfl := Option.some.inj (hnode.symm.trans hfound)
      rw [walk]
  | stay hdir _ ih =>
      obtain ⟨entries, hentries⟩ := hdir
      obtain rfl := Option.some.inj (hnode.symm.trans hentries)
      rw [walk]
      exact ih hnode hfound
  | up hdir habove _ ih =>
      obtain ⟨entries, hentries⟩ := hdir
      obtain rfl := Option.some.inj (hnode.symm.trans hentries)
      rw [lookUp] at habove
      simp only [walk, Node.isDirectory, if_true, habove]
      exact ih habove hfound
  | into hdir hname hinner hlink _ ih =>
      obtain ⟨entries, hentries⟩ := hdir
      obtain rfl := Option.some.inj (hnode.symm.trans hentries)
      have hfind := hinner
      rw [lookUp_cons hnode] at hfind
      simp only [walk, hfind, if_neg hname]
      exact ih hinner hfound
  | link hdir hname hlink _ ih =>
      obtain ⟨entries, hentries⟩ := hdir
      obtain rfl := Option.some.inj (hnode.symm.trans hentries)
      -- the target is walked from the root or from the directory of the link
      have htarget := hlink
      rw [lookUp_cons hnode] at htarget
      simp only [walk, htarget, if_neg hname, Bool.true_eq_false, and_false, if_false]
      split
      · next habsolute =>
          rw [if_pos habsolute] at ih
          exact ih rfl hfound
      · next habsolute =>
          rw [if_neg habsolute] at ih
          exact ih hnode hfound

theorem walk_eq_ok_iff {root : Node} {links : Nat} {place last : Place} {node found : Node}
    {steps : List Step} (hnode : lookUp root place = some node) :
    walk root true links place node steps = .ok (.node last found)
      ↔ (∃ left, Leads root links place steps last left) ∧ lookUp root last = some found :=
  ⟨leads_of_walk hnode, fun ⟨⟨_, hleads⟩, hfound⟩ => walk_of_leads hleads hnode hfound⟩

namespace Leads

variable {root : Node} {links mid left : Nat} {place through last : Place} {steps more : List Step}

/-- Steps that lead on from where others lead to. -/
theorem append (h : Leads root links place steps through mid)
    (hmore : Leads root mid through more last left) :
    Leads root links place (steps ++ more) last left := by
  induction h with
  | arrived => exact hmore
  | stay hdir _ ih => exact .stay hdir (ih hmore)
  | up hdir habove _ ih => exact .up hdir habove (ih hmore)
  | into hdir hname hinner hlink _ ih => exact .into hdir hname hinner hlink (ih hmore)
  | link hdir hname hlink _ ih =>
      have hrest := ih hmore
      rw [List.append_assoc] at hrest
      exact .link hdir hname hlink hrest

/-- The first of some steps lead somewhere, and the others on from there. -/
theorem split (h : Leads root links place (steps ++ more) last left) :
    ∃ through mid, Leads root links place steps through mid
      ∧ Leads root mid through more last left := by
  generalize hsteps : steps ++ more = all at h
  induction h generalizing steps with
  | @arrived links place =>
      obtain ⟨rfl, rfl⟩ := List.append_eq_nil_iff.1 hsteps
      exact ⟨place, links, .arrived, .arrived⟩
  | stay hdir hrest ih =>
      rcases List.append_eq_cons_iff.1 hsteps with ⟨rfl, rfl⟩ | ⟨steps, rfl, rfl⟩
      · exact ⟨_, _, .arrived, .stay hdir hrest⟩
      · obtain ⟨through, mid, hfirst, hmore⟩ := ih rfl
        exact ⟨through, mid, .stay hdir hfirst, hmore⟩
  | up hdir habove hrest ih =>
      rcases List.append_eq_cons_iff.1 hsteps with ⟨rfl, rfl⟩ | ⟨steps, rfl, rfl⟩
      · exact ⟨_, _, .arrived, .up hdir habove hrest⟩
      · obtain ⟨through, mid, hfirst, hmore⟩ := ih rfl
        exact ⟨through, mid, .up hdir habove hfirst, hmore⟩
  | into hdir hname hinner hlink hrest ih =>
      rcases List.append_eq_cons_iff.1 hsteps with ⟨rfl, rfl⟩ | ⟨steps, rfl, rfl⟩
      · exact ⟨_, _, .arrived, .into hdir hname hinner hlink hrest⟩
      · obtain ⟨through, mid, hfirst, hmore⟩ := ih rfl
        exact ⟨through, mid, .into hdir hname hinner hlink hfirst, hmore⟩
  | link hdir hname hlink hrest ih =>
      rcases List.append_eq_cons_iff.1 hsteps with ⟨rfl, rfl⟩ | ⟨steps, rfl, rfl⟩
      · exact ⟨_, _, .arrived, .link hdir hname hlink hrest⟩
      -- the steps of the target stand in front of those still to come
      · obtain ⟨through, mid, hfirst, hmore⟩ := ih (List.append_assoc _ _ _)
        exact ⟨through, mid, .link hdir hname hlink hfirst, hmore⟩

/-- What leads on from somewhere leads on from a directory. -/
theorem directoryAt (h : Leads root links place steps last left) (hlast : DirectoryAt root last) :
    DirectoryAt root place := by
  cases h with
  | arrived => exact hlast
  | stay hdir _ | up hdir _ _ | into hdir _ _ _ _ | link hdir _ _ _ => exact hdir

end Leads

/-- Names lead to what is under them, if no link is. -/
theorem walk_names {root : Node} {links : Nat} {place : Place} {node found : Node}
    (names : List String) (hnames : ∀ name ∈ names, ¬ nameLimit < name.utf8ByteSize)
    (hfound : Node.at? names node = some found) (hlink : ∀ target, found ≠ .link target) :
    walk root true links place node (names.map Step.into)
      = .ok (.node (names.reverse ++ place) found) := by
  induction names generalizing place node with
  | nil =>
      obtain rfl := Option.some.inj hfound
      rw [List.map_nil, walk]
      rfl
  | cons name rest ih =>
      obtain ⟨hname, hrest⟩ := List.forall_mem_cons.1 hnames
      cases node with
      | directory entries =>
          obtain ⟨inner, hinner, hfound⟩ := Option.bind_eq_some_iff.1 hfound
          -- a link is no directory, and is not what is found
          have hplain : ∀ target, inner ≠ .link target := by
            rintro target rfl
            cases rest with
            | nil => exact hlink target (Option.some.inj hfound).symm
            | cons next rest => cases hfound
          rw [List.map_cons, List.reverse_cons, List.append_assoc, List.singleton_append]
          simp only [walk, if_neg hname, hinner]
          exact ih hrest hfound
      | file _ | link _ => cases hfound

/-! ## Paths -/

/-- The place a path starts at. -/
def FileSystem.startOf (fs : FileSystem) (path : String) : Place :=
  if isAbsolute path then [] else fs.workingDirectory.reverse

/-- Whether a text can be a path at all. -/
def Usable (path : String) : Prop :=
  path.toList.contains '\x00' = false ∧ path.isEmpty = false

/-- A place there are steps from to a node is there. -/
theorem Leads.exists_start {root : Node} {links left : Nat} {place last : Place}
    {steps : List Step} {found : Node} (h : Leads root links place steps last left)
    (hfound : lookUp root last = some found) : ∃ node, lookUp root place = some node := by
  cases h with
  | arrived => exact ⟨found, hfound⟩
  | stay hdir _ | up hdir _ _ | into hdir _ _ _ _ | link hdir _ _ _ =>
      obtain ⟨entries, hentries⟩ := hdir
      exact ⟨_, hentries⟩

/-- A walk along a path is one from the place it starts at. -/
theorem walkFrom_eq_ok_iff {fs : FileSystem} {path : String} {steps : List Step} {last : Place}
    {found : Node} :
    fs.walkFrom path true steps = .ok (.node last found)
      ↔ Usable path ∧ (∃ left, Leads fs.root linkLimit (fs.startOf path) steps last left)
        ∧ lookUp fs.root last = some found := by
  unfold FileSystem.walkFrom Usable
  -- a text with a NUL is no path, and neither is the empty one
  by_cases hnul : path.toList.contains '\x00' = true
  · simp only [hnul, if_true]
    simp
  rw [if_neg hnul]
  by_cases hempty : path.isEmpty = true
  · simp only [hempty, if_true]
    simp
  rw [if_neg hempty]
  simp only [Bool.not_eq_true] at hnul hempty
  simp only [hnul, hempty, and_self, true_and]
  by_cases habsolute : isAbsolute path = true
  · rw [if_pos habsolute, FileSystem.startOf, if_pos habsolute]
    exact walk_eq_ok_iff rfl
  · rw [if_neg habsolute, FileSystem.startOf, if_neg habsolute]
    have hstart : lookUp fs.root fs.workingDirectory.reverse
        = Node.at? fs.workingDirectory fs.root := by rw [lookUp, List.reverse_reverse]
    cases hnode : Node.at? fs.workingDirectory fs.root with
    | none =>
        constructor
        · intro h
          cases h
        -- no step can be taken without a directory to start from
        · rintro ⟨⟨left, hleads⟩, hfound⟩
          obtain ⟨node, hplace⟩ := hleads.exists_start hfound
          rw [hstart, hnode] at hplace
          cases hplace
    | some node => exact walk_eq_ok_iff (hstart.trans hnode)

/-- A path of names from the root leads to what is under them, if no link is. -/
theorem find_of_names {fs : FileSystem} {path : String} (names : List String) {found : Node}
    (husable : Usable path) (hsteps : stepsOf path = names.map Step.into)
    (hstart : fs.startOf path = []) (hnames : ∀ name ∈ names, ¬ nameLimit < name.utf8ByteSize)
    (hfound : Node.at? names fs.root = some found) (hlink : ∀ target, found ≠ .link target) :
    fs.find path true = .ok (.node names.reverse found) := by
  have hwalk : walk fs.root true linkLimit [] fs.root (names.map Step.into)
      = .ok (.node (names.reverse ++ []) found) := walk_names names hnames hfound hlink
  rw [List.append_nil, walk_eq_ok_iff rfl, ← hstart, ← hsteps] at hwalk
  exact walkFrom_eq_ok_iff.2 ⟨husable, hwalk⟩

theorem FileSystem.node_of_find {fs : FileSystem} {path : String} {place : Place} {node : Node}
    (h : fs.find path true = .ok (.node place node)) : fs.node path = .ok node := by
  rw [FileSystem.node, h]

theorem node_of_names {fs : FileSystem} {path : String} (names : List String) {found : Node}
    (husable : Usable path) (hsteps : stepsOf path = names.map Step.into)
    (hstart : fs.startOf path = []) (hnames : ∀ name ∈ names, ¬ nameLimit < name.utf8ByteSize)
    (hfound : Node.at? names fs.root = some found) (hlink : ∀ target, found ≠ .link target) :
    fs.node path = .ok found :=
  FileSystem.node_of_find (find_of_names names husable hsteps hstart hnames hfound hlink)

end WikiPress.Files
