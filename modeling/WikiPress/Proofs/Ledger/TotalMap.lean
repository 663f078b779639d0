import Mathlib.Data.Finset.Sort
import Mathlib.Logic.Function.Basic
import WikiPress.Proofs.Ledger.Store

/-!
# WikiPress.Proofs.Ledger.TotalMap

Ledgers and their handles, over any row of requests, are one total map.

Ledgers can be kept in several ways (`Keeper`): as the process keeps them (`inProcess`), and as
one map from names to entries in which everything that was never committed is empty
(`TotalMap`). Both answer the same, whatever is asked of which ledger and through which handle.

Design points:

* Ledgers and handles are told by their numbers, in the order they were loaded and asked for.
  A request may name any of them at any time, so a handle may be used long after it was asked
  for, and after other ledgers were loaded.
* A handle of the empty identity has a name of its own in the map, made of its number. That
  name is in no ledger.
* Keepers are compared by a relation of their states that every request keeps (`Refines`). The
  requests are gone through once, here, and not for each pair of keepers.
-/

namespace WikiPress.Ledger

open WikiPress.Files (FileSystem)

/-! ## Requests -/

/-- What is asked of ledgers and handles. -/
inductive Request
  | load (fs : FileSystem) (path : String)
  | entryFor (ledger : Nat) (identity : String)
  | read (handle : Nat)
  | hasChanged (handle : Nat) (content : ByteArray)
  | commit (handle : Nat) (value : Entry)
  | snapshot (ledger : Nat)
  | length (ledger : Nat)
  | isEmpty (ledger : Nat)

/-- What is answered. -/
inductive Answer
  | done
  /-- There is no such ledger or handle. -/
  | absent
  | entry (value : Entry)
  | check (hash : String) (changed : Bool)
  | entries (snapshot : Entries)
  | number (length : Nat)
  | truth (isEmpty : Bool)

/-- A way of keeping ledgers. What concerns a ledger or a handle that is not there has no
result. -/
structure Keeper (σ : Type) where
  load : FileSystem → String → σ → σ
  /-- Asks for a handle. -/
  entryFor : Nat → String → σ → Option σ
  /-- The entry behind a handle. -/
  entry : Nat → σ → Option Entry
  commit : Nat → Entry → σ → Option σ
  snapshot : Nat → σ → Option Entries
  length : Nat → σ → Option Nat
  isEmpty : Nat → σ → Option Bool

variable {σ τ : Type}

/-- The answer of something that was found. -/
def Answer.of {α : Type} (answer : α → Answer) : Option α → Answer
  | some value => answer value
  | none => .absent

/-- What comes of one request. -/
def Keeper.step (keeper : Keeper σ) (request : Request) (state : σ) : Answer × σ :=
  match request with
  | .load fs path => (.done, keeper.load fs path state)
  | .entryFor ledger identity =>
      let asked := keeper.entryFor ledger identity state
      (.of (fun _ => .done) asked, asked.getD state)
  | .read handle => (.of .entry (keeper.entry handle state), state)
  | .hasChanged handle content =>
      let check (entry : Entry) : Answer :=
        .check (Digest.hex content) (entry.hasChanged content)
      (.of check (keeper.entry handle state), state)
  | .commit handle value =>
      let committed := keeper.commit handle value state
      (.of (fun _ => .done) committed, committed.getD state)
  | .snapshot ledger => (.of .entries (keeper.snapshot ledger state), state)
  | .length ledger => (.of .number (keeper.length ledger state), state)
  | .isEmpty ledger => (.of .truth (keeper.isEmpty ledger state), state)

/-- The answers to a row of requests. -/
def Keeper.answers (keeper : Keeper σ) (state : σ) : List Request → List Answer
  | [] => []
  | request :: rest =>
      (keeper.step request state).1 :: keeper.answers (keeper.step request state).2 rest

/-! ## Keepers that answer the same -/

/-- A relation of the states of two keepers under which they show the same and which they
keep. -/
structure Refines (keeper : Keeper σ) (other : Keeper τ) (related : σ → τ → Prop) : Prop where
  load : ∀ {s t}, related s t → ∀ fs path,
    related (keeper.load fs path s) (other.load fs path t)
  entryFor : ∀ {s t}, related s t → ∀ ledger identity,
    Option.Rel related (keeper.entryFor ledger identity s) (other.entryFor ledger identity t)
  entry : ∀ {s t}, related s t → ∀ handle, keeper.entry handle s = other.entry handle t
  commit : ∀ {s t}, related s t → ∀ handle value,
    Option.Rel related (keeper.commit handle value s) (other.commit handle value t)
  snapshot : ∀ {s t}, related s t → ∀ ledger, keeper.snapshot ledger s = other.snapshot ledger t
  length : ∀ {s t}, related s t → ∀ ledger, keeper.length ledger s = other.length ledger t
  isEmpty : ∀ {s t}, related s t → ∀ ledger, keeper.isEmpty ledger s = other.isEmpty ledger t

namespace Refines

variable {keeper : Keeper σ} {other : Keeper τ} {related : σ → τ → Prop}

/-- A change both keepers make or neither. -/
theorem changed {s : σ} {t : τ} (h : related s t) {changed : Option σ} {changed' : Option τ}
    (hchanged : Option.Rel related changed changed') :
    Answer.of (fun _ => .done) changed = Answer.of (fun _ => .done) changed'
      ∧ related (changed.getD s) (changed'.getD t) := by
  cases hchanged with
  | some hrelated => exact ⟨rfl, hrelated⟩
  | none => exact ⟨rfl, h⟩

theorem step (hrefines : Refines keeper other related) {s : σ} {t : τ} (h : related s t)
    (request : Request) :
    (keeper.step request s).1 = (other.step request t).1
      ∧ related (keeper.step request s).2 (other.step request t).2 := by
  cases request with
  | load fs path => exact ⟨rfl, hrefines.load h fs path⟩
  | entryFor ledger identity => exact changed h (hrefines.entryFor h ledger identity)
  | read handle => exact ⟨congrArg (Answer.of .entry) (hrefines.entry h handle), h⟩
  | hasChanged handle content => exact ⟨congrArg (Answer.of _) (hrefines.entry h handle), h⟩
  | commit handle value => exact changed h (hrefines.commit h handle value)
  | snapshot ledger => exact ⟨congrArg (Answer.of .entries) (hrefines.snapshot h ledger), h⟩
  | length ledger => exact ⟨congrArg (Answer.of .number) (hrefines.length h ledger), h⟩
  | isEmpty ledger => exact ⟨congrArg (Answer.of .truth) (hrefines.isEmpty h ledger), h⟩

theorem answers (hrefines : Refines keeper other related) {s : σ} {t : τ} (h : related s t)
    (requests : List Request) : keeper.answers s requests = other.answers t requests := by
  induction requests generalizing s t with
  | nil => rfl
  | cons request rest ih =>
      obtain ⟨hanswer, hnext⟩ := hrefines.step h request
      unfold Keeper.answers
      rw [hanswer, ih hnext]

end Refines

/-! ## The ledgers of a process -/

/-- The ledgers of a process, and its handles, each with the number of its ledger. -/
structure Process where
  ledgers : List Ledger := []
  handles : List (Nat × Handle) := []

/-- Ledgers as a process keeps them. -/
def inProcess : Keeper Process where
  load fs path process :=
    { process with ledgers := process.ledgers ++ [(load fs path).ledger] }
  entryFor number identity process := do
    let ledger ← process.ledgers[number]?
    let (handle, asked) := ledger.entryFor identity
    return ⟨process.ledgers.set number asked, process.handles ++ [(number, handle)]⟩
  entry handle process := do
    let (number, handle) ← process.handles[handle]?
    let ledger ← process.ledgers[number]?
    return ledger.read handle
  commit handle value process := do
    let (number, handle) ← process.handles[handle]?
    let ledger ← process.ledgers[number]?
    return { process with ledgers := process.ledgers.set number (ledger.commit handle value) }
  snapshot number process := do
    let ledger ← process.ledgers[number]?
    return ledger.entries
  length number process := do
    let ledger ← process.ledgers[number]?
    return ledger.entries.length
  isEmpty number process := do
    let ledger ← process.ledgers[number]?
    return ledger.entries.isEmpty

/-! ## One map -/

/-- What has an entry. -/
inductive Name
  /-- A document, as a ledger knows it. -/
  | document (ledger : Nat) (identity : String)
  /-- What a handle of the empty identity stands for. -/
  | disposable (handle : Nat)
  deriving DecidableEq

/-- One map for all ledgers. -/
structure TotalMap where
  /-- The entry of each name, empty until it is loaded or committed. -/
  value : Name → Entry := fun _ => {}
  /-- The identities each ledger was loaded with or asked for. -/
  known : List (Finset String) := []
  /-- What each handle stands for. -/
  handles : List Name := []

/-- The map with the entries of a ledger that is loaded, as the ledger of the next number. -/
def TotalMap.loaded (map : TotalMap) (ledger : Ledger) : TotalMap where
  value
    | .document number identity =>
        if number = map.known.length then ledger.entry identity
        else map.value (.document number identity)
    | .disposable handle => map.value (.disposable handle)
  known := map.known ++ [(ledger.entries.map Prod.fst).toFinset]
  handles := map.handles

/-- The map with another entry for one name. -/
def TotalMap.commit (map : TotalMap) (name : Name) (value : Entry) : TotalMap :=
  { map with value := Function.update map.value name value }

/-- What is in a finite set, in ascending order. -/
def ascendingOf {α : Type} [LinearOrder α] (known : Finset α) : List α := known.sort (· ≤ ·)

/-- The map restricted to what one ledger knows. -/
def TotalMap.entries (map : TotalMap) (number : Nat) (known : Finset String) : Entries :=
  (ascendingOf known).map fun identity => (identity, map.value (.document number identity))

/-- Ledgers as one total map. -/
def totalMap : Keeper TotalMap where
  load fs path map := map.loaded (load fs path).ledger
  entryFor number identity map := do
    let known ← map.known[number]?
    if identity = "" then
      return { map with handles := map.handles ++ [.disposable map.handles.length] }
    else
      return { map with
        known := map.known.set number (insert identity known)
        handles := map.handles ++ [.document number identity] }
  entry handle map := map.handles[handle]?.map map.value
  commit handle value map := do
    let name ← map.handles[handle]?
    return map.commit name value
  snapshot number map := map.known[number]?.map (map.entries number)
  length number map := map.known[number]?.map Finset.card
  isEmpty number map := map.known[number]?.map fun known => decide (known = ∅)

/-! ## Rows that go together -/

section Alongside

variable {α β : Type} {R S : Nat → α → β → Prop} {as : List α} {bs : List β}

/-- Two rows of one length whose members at each place are related. -/
def Alongside (R : Nat → α → β → Prop) (as : List α) (bs : List β) : Prop :=
  as.length = bs.length ∧ ∀ n a b, as[n]? = some a → bs[n]? = some b → R n a b

theorem Alongside.nil : Alongside R [] [] := ⟨rfl, by simp⟩

theorem Alongside.imp (h : Alongside R as bs)
    (himp : ∀ n a b, as[n]? = some a → bs[n]? = some b → R n a b → S n a b) :
    Alongside S as bs :=
  ⟨h.1, fun n a b ha hb => himp n a b ha hb (h.2 n a b ha hb)⟩

theorem Alongside.concat (h : Alongside R as bs) {a : α} {b : β} (hlast : R bs.length a b) :
    Alongside R (as ++ [a]) (bs ++ [b]) := by
  have hlength := h.1
  refine ⟨by simp [hlength], fun n a' b' ha hb => ?_⟩
  rcases Nat.lt_trichotomy n bs.length with hlt | rfl | hgt
  · rw [List.getElem?_append_left (hlength ▸ hlt)] at ha
    rw [List.getElem?_append_left hlt] at hb
    exact h.2 n a' b' ha hb
  · rw [List.getElem?_append_right (le_of_eq hlength)] at ha
    simp_all
  · have hlong : (bs ++ [b]).length ≤ n := by simpa using Nat.succ_le_of_lt hgt
    rw [List.getElem?_eq_none hlong] at hb
    cases hb

/-- Both rows change at a place. -/
theorem Alongside.set (h : Alongside R as bs) {k : Nat} {a : α} {b : β} (hset : R k a b) :
    Alongside R (as.set k a) (bs.set k b) := by
  refine ⟨by simp [h.1], fun n a' b' ha hb => ?_⟩
  rw [List.getElem?_set] at ha hb
  by_cases hn : k = n
  · subst hn
    simp_all
  · rw [if_neg hn] at ha hb
    exact h.2 n a' b' ha hb

/-- One of the rows changes at a place. -/
theorem Alongside.set_left (h : Alongside R as bs) {k : Nat} {a : α}
    (hset : ∀ b, bs[k]? = some b → S k a b)
    (hothers : ∀ n a b, n ≠ k → R n a b → S n a b) : Alongside S (as.set k a) bs := by
  refine ⟨by simp [h.1], fun n a' b' ha hb => ?_⟩
  rw [List.getElem?_set] at ha
  by_cases hn : k = n
  · subst hn
    simp_all
  · rw [if_neg hn] at ha
    exact hothers n a' b' (Ne.symm hn) (h.2 n a' b' ha hb)

/-- A place is in both rows or in neither. -/
theorem Alongside.get (h : Alongside R as bs) (n : Nat) :
    (as[n]? = none ∧ bs[n]? = none)
      ∨ ∃ a b, as[n]? = some a ∧ bs[n]? = some b ∧ R n a b := by
  have hlength := h.1
  by_cases hn : n < bs.length
  · have ha : as[n]? = some as[n] := List.getElem?_eq_getElem (by omega)
    have hb : bs[n]? = some bs[n] := List.getElem?_eq_getElem hn
    exact Or.inr ⟨_, _, ha, hb, h.2 n _ _ ha hb⟩
  · exact Or.inl ⟨List.getElem?_eq_none (by omega), List.getElem?_eq_none (by omega)⟩

end Alongside

/-! ## The entries of one ledger -/

namespace TotalMap

variable {map other : TotalMap} {number : Nat} {known : Finset String} {identity : String}

theorem value_commit_self (name : Name) (value : Entry) :
    (map.commit name value).value name = value :=
  Function.update_self ..

theorem value_commit_of_ne {name changed : Name} (hne : name ≠ changed) (value : Entry) :
    (map.commit changed value).value name = map.value name :=
  Function.update_of_ne hne ..

theorem ascending_entries : Keyed.Ascending (map.entries number known) :=
  List.pairwise_map.2 known.sortedLT_sort.pairwise

theorem find?_entries (map : TotalMap) (number : Nat) (known : Finset String) (identity : String) :
    Keyed.find? identity (map.entries number known)
      = if identity ∈ known then some (map.value (.document number identity)) else none := by
  have hmem : ∀ value, (identity, value) ∈ map.entries number known
      ↔ identity ∈ known ∧ map.value (.document number identity) = value := by
    intro value
    simp [entries, ascendingOf]
  refine Option.ext fun value => ?_
  rw [Keyed.find?_eq_some_iff ascending_entries, hmem]
  split <;> simp_all

/-- Entries that a lookup takes for the map's are the map's. -/
theorem eq_entries {entries : Entries} (hordered : Keyed.Ascending entries)
    (hfind : ∀ identity, Keyed.find? identity entries
      = if identity ∈ known then some (map.value (.document number identity)) else none) :
    entries = map.entries number known :=
  Keyed.ext hordered ascending_entries fun identity => by rw [hfind, find?_entries]

/-- A ledger whose documents have the entries they had is as it was. -/
theorem entries_congr
    (h : ∀ identity,
      map.value (.document number identity) = other.value (.document number identity)) :
    map.entries number known = other.entries number known :=
  List.map_congr_left fun identity _ => by rw [h]

/-- An identity that is given an entry is known from then on. -/
theorem set_entries {value : Entry}
    (hself : other.value (.document number identity) = value)
    (hothers : ∀ i, i ≠ identity →
      other.value (.document number i) = map.value (.document number i)) :
    Keyed.set identity value (map.entries number known)
      = other.entries number (insert identity known) := by
  refine eq_entries (Keyed.ascending_set ascending_entries identity value) fun i => ?_
  by_cases hi : i = identity
  · subst hi
    rw [Keyed.find?_set_self, if_pos (Finset.mem_insert_self i known), hself]
  · rw [Keyed.find?_set_of_ne hi, find?_entries, hothers i hi]
    simp [hi]

theorem length_entries : (map.entries number known).length = known.card := by
  rw [entries, List.length_map, ascendingOf, Finset.length_sort]

theorem isEmpty_entries : (map.entries number known).isEmpty = decide (known = ∅) := by
  rw [Bool.eq_iff_iff, List.isEmpty_iff_length_eq_zero, length_entries, Finset.card_eq_zero,
    decide_eq_true_iff]

end TotalMap

/-! ## A process keeps one map -/

/-- What a handle of a process stands for. -/
inductive Stands (process : Process) (map : TotalMap) (handle : Nat) : Nat × Handle → Name → Prop
  | document {number : Nat} {identity : String} {known : Finset String}
      (hknown : map.known[number]? = some known) (hmem : identity ∈ known) :
      Stands process map handle (number, .document identity) (.document number identity)
  | disposable {number index : Nat} {ledger : Ledger}
      (hledger : process.ledgers[number]? = some ledger)
      (hcell : ledger.cells[index]? = some (map.value (.disposable handle))) :
      Stands process map handle (number, .cell index) (.disposable handle)

/-- A process whose ledgers are restrictions of one map. -/
structure Models (process : Process) (map : TotalMap) : Prop where
  ledgers : Alongside (fun number ledger known => ledger.entries = map.entries number known)
    process.ledgers map.known
  handles : Alongside (Stands process map) process.handles map.handles
  /-- Two handles have no cell in common. -/
  apart : ∀ (k k' : Nat) (number index : Nat),
    process.handles[k]? = some (number, Handle.cell index) →
    process.handles[k']? = some (number, Handle.cell index) → k = k'
  /-- What no ledger knows is empty. -/
  unknown : ∀ number identity,
    (∀ known, map.known[number]? = some known → identity ∉ known) →
    map.value (.document number identity) = {}
  /-- What no handle stands for yet is empty. -/
  unused : ∀ handle, map.handles.length ≤ handle → map.value (.disposable handle) = {}

namespace Models

variable {process : Process} {map : TotalMap}

theorem start : Models {} {} :=
  ⟨.nil, .nil, by simp, fun _ _ _ => rfl, fun _ _ => rfl⟩

/-- The entry a ledger has for an identity, known or not. -/
theorem entry_eq (h : Models process map) {number : Nat} {ledger : Ledger} {known : Finset String}
    (hledger : process.ledgers[number]? = some ledger)
    (hknown : map.known[number]? = some known) (identity : String) :
    ledger.entry identity = map.value (.document number identity) := by
  have hentries : ledger.entries = map.entries number known := h.ledgers.2 _ _ _ hledger hknown
  rw [entry, hentries, TotalMap.find?_entries]
  split
  · rfl
  · next hmem =>
      refine (h.unknown number identity fun known' hknown' => ?_).symm
      rw [hknown] at hknown'
      cases hknown'
      exact hmem

/-- A handle goes on standing for what it stood for. -/
theorem stands_mono {process' : Process} {map' : TotalMap} {handle : Nat}
    {reached : Nat × Handle} {name : Name} (h : Stands process map handle reached name)
    (hknown : ∀ (number : Nat) (known : Finset String), map.known[number]? = some known →
      ∃ known' : Finset String, map'.known[number]? = some known' ∧ known ⊆ known')
    (hcells : ∀ (number index : Nat) (ledger : Ledger), reached = (number, .cell index) →
      process.ledgers[number]? = some ledger →
      ledger.cells[index]? = some (map.value (.disposable handle)) →
      ∃ ledger', process'.ledgers[number]? = some ledger'
        ∧ ledger'.cells[index]? = some (map'.value (.disposable handle))) :
    Stands process' map' handle reached name := by
  cases h with
  | document hk hmem =>
      obtain ⟨known', hknown', hsubset⟩ := hknown _ _ hk
      exact .document hknown' (hsubset hmem)
  | disposable hledger hcell =>
      obtain ⟨ledger', hledger', hcell'⟩ := hcells _ _ _ rfl hledger hcell
      exact .disposable hledger' hcell'

theorem load (h : Models process map) {ledger : Ledger}
    (hordered : Keyed.Ascending ledger.entries) :
    Models { process with ledgers := process.ledgers ++ [ledger] } (map.loaded ledger) := by
  have hold : ∀ (number : Nat) (known : Finset String), map.known[number]? = some known →
      number ≠ map.known.length := by
    rintro _ known hknown rfl
    simp at hknown
  have hkeys : ∀ identity,
      identity ∈ (ledger.entries.map Prod.fst).toFinset ↔ ledger.Has identity := fun identity =>
    List.mem_toFinset.trans Keyed.isSome_find?.symm
  refine ⟨(h.ledgers.imp fun number l known hl hknown hentries => ?_).concat ?_,
    h.handles.imp fun handle reached name _ _ hstands => ?_, h.apart,
    fun number identity hnone => ?_,
    h.unused⟩
  · exact hentries.trans (TotalMap.entries_congr fun identity => (if_neg (hold _ _ hknown)).symm)
  · refine TotalMap.eq_entries hordered fun identity => ?_
    have hvalue : (map.loaded ledger).value (.document map.known.length identity)
        = ledger.entry identity := if_pos rfl
    rw [hvalue, entry]
    cases hfind : Keyed.find? identity ledger.entries with
    | none => rw [if_neg (by rw [hkeys, Has, hfind]; simp)]
    | some value => rw [if_pos (by rw [hkeys, Has, hfind]; rfl), Option.getD_some]
  · refine stands_mono hstands (fun number known hknown => ⟨known, ?_, subset_rfl⟩)
      fun number index l _ hl hcell => ⟨l, ?_, hcell⟩
    · exact (List.getElem?_append_left (List.getElem?_eq_some_iff.1 hknown).1).trans hknown
    · exact (List.getElem?_append_left (List.getElem?_eq_some_iff.1 hl).1).trans hl
  · by_cases hnumber : number = map.known.length
    · subst hnumber
      have hmissing : ¬ ledger.Has identity := fun hhas =>
        hnone _ (by simp [TotalMap.loaded]) ((hkeys identity).2 hhas)
      rw [Has, Option.not_isSome_iff_eq_none] at hmissing
      exact (if_pos rfl).trans (by rw [entry, hmissing]; rfl)
    · refine (if_neg hnumber).trans (h.unknown number identity fun known hknown => ?_)
      refine hnone known ((List.getElem?_append_left ?_).trans hknown)
      exact (List.getElem?_eq_some_iff.1 hknown).1

/-- A cell of its own for a handle of the empty identity. -/
theorem entryFor_empty (h : Models process map) {number : Nat} {ledger : Ledger}
    (hledger : process.ledgers[number]? = some ledger) :
    Models
      ⟨process.ledgers.set number { ledger with cells := ledger.cells ++ [{}] },
        process.handles ++ [(number, .cell ledger.cells.length)]⟩
      { map with handles := map.handles ++ [.disposable map.handles.length] } := by
  have hlt : number < process.ledgers.length := (List.getElem?_eq_some_iff.1 hledger).1
  have hself : (process.ledgers.set number { ledger with cells := ledger.cells ++ [{}] })[number]?
      = some { ledger with cells := ledger.cells ++ [{}] } := by
    rw [List.getElem?_set, if_pos rfl, if_pos hlt]
  -- no handle has a cell that is yet to be made
  have hfresh : ∀ k : Nat,
      process.handles[k]? ≠ some (number, Handle.cell ledger.cells.length) := by
    intro k hk
    obtain ⟨hreached, -⟩ | ⟨_, name, hreached, -, hstands⟩ := h.handles.get k
    · rw [hk] at hreached
      cases hreached
    · rw [hk] at hreached
      cases hreached
      cases hstands with
      | disposable hl hcell =>
          rw [hledger] at hl
          cases hl
          simp at hcell
  refine ⟨h.ledgers.set_left (fun known hknown => ?_) fun n l known _ hentries => hentries,
    (h.handles.imp fun handle reached name _ _ hstands => ?_).concat ?_,
    fun k k' n index hk hk' => ?_, h.unknown, fun handle hle => h.unused handle ?_⟩
  · have hentries : ledger.entries = map.entries number known :=
      h.ledgers.2 _ _ _ hledger hknown
    exact hentries
  · refine stands_mono hstands (fun n known hknown => ⟨known, hknown, subset_rfl⟩)
      fun n index l _ hl hcell => ?_
    by_cases hn : number = n
    · subst hn
      rw [hledger] at hl
      cases hl
      refine ⟨_, hself, (List.getElem?_append_left ?_).trans hcell⟩
      exact (List.getElem?_eq_some_iff.1 hcell).1
    · exact ⟨l, by rw [List.getElem?_set, if_neg hn, hl], hcell⟩
  · refine .disposable hself ?_
    rw [h.unused _ le_rfl]
    simp
  · simp only [List.getElem?_append, List.getElem?_singleton] at hk hk'
    grind [h.apart]
  · simp only [List.length_append] at hle
    omega

/-- A handle of a document, which is known from then on. -/
theorem entryFor_document (h : Models process map) {number : Nat} {ledger : Ledger}
    {known : Finset String} (hledger : process.ledgers[number]? = some ledger)
    (hknown : map.known[number]? = some known) (identity : String) :
    Models
      ⟨process.ledgers.set number { ledger with
          entries := Keyed.set identity (ledger.entry identity) ledger.entries },
        process.handles ++ [(number, .document identity)]⟩
      { map with
        known := map.known.set number (insert identity known)
        handles := map.handles ++ [.document number identity] } := by
  have hlt : number < map.known.length := (List.getElem?_eq_some_iff.1 hknown).1
  have hself : (map.known.set number (insert identity known))[number]?
      = some (insert identity known) := by
    rw [List.getElem?_set, if_pos rfl, if_pos hlt]
  refine ⟨h.ledgers.set ?_, (h.handles.imp fun handle reached name _ _ hstands => ?_).concat ?_,
    fun k k' n index hk hk' => ?_, fun n i hnone => h.unknown n i fun known' hknown' => ?_,
    fun handle hle => h.unused handle ?_⟩
  · show Keyed.set identity (ledger.entry identity) ledger.entries = _
    rw [h.ledgers.2 _ _ _ hledger hknown, h.entry_eq hledger hknown]
    exact TotalMap.set_entries rfl fun _ _ => rfl
  · refine stands_mono hstands (fun n known' hknown' => ?_) fun n index l _ hl hcell => ?_
    · by_cases hn : number = n
      · subst hn
        rw [hknown] at hknown'
        cases hknown'
        exact ⟨_, hself, Finset.subset_insert identity known⟩
      · exact ⟨known', by rw [List.getElem?_set, if_neg hn, hknown'], subset_rfl⟩
    · by_cases hn : number = n
      · subst hn
        rw [hledger] at hl
        cases hl
        exact ⟨_, List.getElem?_set_self (List.getElem?_eq_some_iff.1 hledger).1, hcell⟩
      · exact ⟨l, by rw [List.getElem?_set, if_neg hn, hl], hcell⟩
  · exact .document hself (Finset.mem_insert_self identity known)
  · simp only [List.getElem?_append, List.getElem?_singleton] at hk hk'
    grind [h.apart]
  · by_cases hn : number = n
    · subst hn
      rw [hknown] at hknown'
      cases hknown'
      exact fun hmem => hnone _ hself (Finset.mem_insert_of_mem hmem)
    · exact hnone known' (by rw [List.getElem?_set, if_neg hn, hknown'])
  · simp only [List.length_append] at hle
    omega

/-- The entry of a document is committed through one of its handles. -/
theorem commit_document (h : Models process map) {number : Nat} {ledger : Ledger}
    {known : Finset String} {identity : String}
    (hledger : process.ledgers[number]? = some ledger)
    (hknown : map.known[number]? = some known) (hmem : identity ∈ known) (value : Entry) :
    Models
      { process with
        ledgers := process.ledgers.set number (ledger.commit (.document identity) value) }
      (map.commit (.document number identity) value) := by
  have hupdate : ∀ (n : Nat) (i : String), n ≠ number ∨ i ≠ identity →
      (map.commit (.document number identity) value).value (.document n i)
        = map.value (.document n i) := by
    intro n i hne
    refine TotalMap.value_commit_of_ne (fun heq => ?_) value
    cases heq
    exact hne.elim (· rfl) (· rfl)
  refine ⟨h.ledgers.set_left (fun known' hknown' => ?_) fun n l known' hn hentries => ?_,
    h.handles.imp fun handle reached name _ _ hstands => ?_, h.apart, fun n i hnone => ?_, h.unused⟩
  · rw [hknown] at hknown'
    cases hknown'
    show Keyed.set identity value ledger.entries = _
    rw [h.ledgers.2 _ _ _ hledger hknown, TotalMap.set_entries (TotalMap.value_commit_self ..)
      fun i hi => hupdate number i (Or.inr hi), Finset.insert_eq_of_mem hmem]
  · exact hentries.trans (TotalMap.entries_congr fun i => (hupdate n i (Or.inl hn)).symm)
  · refine stands_mono hstands (fun n known' hknown' => ⟨known', hknown', subset_rfl⟩)
      fun n index l _ hl hcell => ?_
    by_cases hn : number = n
    · subst hn
      rw [hledger] at hl
      cases hl
      exact ⟨_, List.getElem?_set_self (List.getElem?_eq_some_iff.1 hledger).1, hcell⟩
    · exact ⟨l, by rw [List.getElem?_set, if_neg hn, hl], hcell⟩
  · refine (hupdate n i ?_).trans (h.unknown n i hnone)
    by_contra! heq
    obtain ⟨rfl, rfl⟩ := heq
    exact hnone known hknown hmem

/-- The cell of a handle of the empty identity is committed. -/
theorem commit_disposable (h : Models process map) {number index handle : Nat} {ledger : Ledger}
    (hreached : process.handles[handle]? = some (number, .cell index))
    (hname : map.handles[handle]? = some (.disposable handle))
    (hledger : process.ledgers[number]? = some ledger) (hindex : index < ledger.cells.length)
    (value : Entry) :
    Models
      { process with ledgers := process.ledgers.set number (ledger.commit (.cell index) value) }
      (map.commit (.disposable handle) value) := by
  have hlt : number < process.ledgers.length := (List.getElem?_eq_some_iff.1 hledger).1
  have hself : (process.ledgers.set number (ledger.commit (.cell index) value))[number]?
      = some (ledger.commit (.cell index) value) := List.getElem?_set_self hlt
  have hupdate : ∀ k : Nat, k ≠ handle →
      (map.commit (.disposable handle) value).value (.disposable k)
        = map.value (.disposable k) := fun k hk =>
    TotalMap.value_commit_of_ne (fun heq => hk (Name.disposable.inj heq)) value
  have hdocuments : ∀ (n : Nat) (i : String),
      (map.commit (.disposable handle) value).value (.document n i) = map.value (.document n i) :=
    fun n i => TotalMap.value_commit_of_ne (by simp) value
  refine ⟨h.ledgers.set_left (fun known hknown => ?_) fun n l known _ hentries => ?_,
    h.handles.imp fun k reached name hk hname hstands => ?_, h.apart, fun n i hnone => ?_,
    fun k hle => ?_⟩
  · have hentries : ledger.entries = map.entries number known :=
      h.ledgers.2 _ _ _ hledger hknown
    exact hentries.trans (TotalMap.entries_congr fun i => (hdocuments number i).symm)
  · exact hentries.trans (TotalMap.entries_congr fun i => (hdocuments n i).symm)
  · refine stands_mono hstands (fun n known hknown => ⟨known, hknown, subset_rfl⟩)
      fun n i l heq hl hcell => ?_
    subst heq
    by_cases hkeep : k = handle
    · subst hkeep
      rw [hreached] at hk
      cases hk
      exact ⟨_, hself, (List.getElem?_set_self hindex).trans
        (congrArg some (TotalMap.value_commit_self ..).symm)⟩
    · rw [hupdate k hkeep]
      by_cases hn : number = n
      · subst hn
        rw [hledger] at hl
        cases hl
        have hi : index ≠ i := by
          rintro rfl
          exact hkeep (h.apart k handle number index hk hreached)
        exact ⟨_, hself, (List.getElem?_set_ne hi).trans hcell⟩
      · exact ⟨l, by rw [List.getElem?_set, if_neg hn, hl], hcell⟩
  · exact (hdocuments n i).trans (h.unknown n i hnone)
  · refine (hupdate k fun heq => ?_).trans (h.unused k hle)
    subst heq
    exact absurd (List.getElem?_eq_some_iff.1 hname).1 (not_lt.2 hle)

end Models

/-- Whatever is asked of it, a process goes on keeping one map and shows what the map says. -/
theorem inProcess_refines : Refines inProcess totalMap Models where
  load h fs path := h.load (ascending_load fs path)
  entryFor {process map} h number identity := by
    obtain ⟨hledger, hknown⟩ | ⟨ledger, known, hledger, hknown, -⟩ := h.ledgers.get number
    · simp only [inProcess, totalMap, hledger, hknown]
      exact .none
    · by_cases hidentity : identity = ""
      · subst hidentity
        simp only [inProcess, totalMap, hledger, hknown]
        exact .some (h.entryFor_empty hledger)
      · simp only [inProcess, totalMap, hledger, hknown, entryFor_of_named hidentity,
          Option.bind_eq_bind, Option.bind_some, if_neg hidentity]
        exact .some (h.entryFor_document hledger hknown identity)
  entry {process map} h handle := by
    obtain ⟨hreached, hname⟩ | ⟨reached, name, hreached, hname, hstands⟩ := h.handles.get handle
    · simp [inProcess, totalMap, hreached, hname]
    · cases hstands with
      | document hknown hmem =>
          obtain ⟨-, hnone⟩ | ⟨ledger, _, hledger, -, -⟩ := h.ledgers.get _
          · rw [hnone] at hknown
            cases hknown
          · simp [inProcess, totalMap, hreached, hname, hledger, read,
              h.entry_eq hledger hknown]
      | disposable hledger hcell =>
          simp [inProcess, totalMap, hreached, hname, hledger, read, List.getD_eq_getElem?_getD,
            hcell]
  commit {process map} h handle value := by
    obtain ⟨hreached, hname⟩ | ⟨reached, name, hreached, hname, hstands⟩ := h.handles.get handle
    · simp only [inProcess, totalMap, hreached, hname]
      exact .none
    · cases hstands with
      | document hknown hmem =>
          obtain ⟨-, hnone⟩ | ⟨ledger, _, hledger, -, -⟩ := h.ledgers.get _
          · rw [hnone] at hknown
            cases hknown
          · simp only [inProcess, totalMap, hreached, hname, hledger, Option.bind_eq_bind,
              Option.bind_some]
            exact .some (h.commit_document hledger hknown hmem value)
      | disposable hledger hcell =>
          simp only [inProcess, totalMap, hreached, hname, hledger, Option.bind_eq_bind,
            Option.bind_some]
          exact .some (h.commit_disposable hreached hname hledger
            (List.getElem?_eq_some_iff.1 hcell).1 value)
  snapshot {process map} h number := by
    obtain ⟨hledger, hknown⟩ | ⟨ledger, known, hledger, hknown, hentries⟩ := h.ledgers.get number
    · simp [inProcess, totalMap, hledger, hknown]
    · simp [inProcess, totalMap, hledger, hknown, hentries]
  length {process map} h number := by
    obtain ⟨hledger, hknown⟩ | ⟨ledger, known, hledger, hknown, hentries⟩ := h.ledgers.get number
    · simp [inProcess, totalMap, hledger, hknown]
    · simp [inProcess, totalMap, hledger, hknown, hentries, TotalMap.length_entries]
  isEmpty {process map} h number := by
    obtain ⟨hledger, hknown⟩ | ⟨ledger, known, hledger, hknown, hentries⟩ := h.ledgers.get number
    · simp [inProcess, totalMap, hledger, hknown]
    · simp [inProcess, totalMap, hledger, hknown, hentries, TotalMap.isEmpty_entries]

end WikiPress.Ledger
