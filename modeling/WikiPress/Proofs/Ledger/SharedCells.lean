import WikiPress.Proofs.Ledger.TotalMap

/-!
# WikiPress.Proofs.Ledger.SharedCells

Entries in cells that handles share.

A ledger can be kept as a table of addresses: every entry is in a cell, a handle is the address
of one, and all handles of an identity have the same. A cell is made when its identity is first
asked for, and a snapshot copies what the cells hold at that time. Such ledgers, too, are one
total map, so they cannot be told from those a process keeps.

Design points:

* Cells are given names (`Maps`), no two the same. A table is then told by the names: an identity
  has the address of the cell that is called after it.
* The names of the cells are a list beside the state and no part of it. It grows at the end
  alone, as the cells do.
-/

namespace WikiPress.Ledger

open WikiPress.Files (FileSystem)

/-- Cells with entries in them, and the ledgers and handles that are addresses of cells. -/
structure Cells where
  contents : List Entry := []
  /-- The addresses of the identities of each ledger. -/
  tables : List (Keyed Nat) := []
  handles : List Nat := []

/-- The addresses of entries that are put into new cells one after another. -/
def addresses (first : Nat) (entries : Entries) : Keyed Nat :=
  (entries.zipIdx first).map fun (pair, address) => (pair.1, address)

/-- The cells with those of a ledger that is loaded. -/
def Cells.loaded (cells : Cells) (entries : Entries) : Cells where
  contents := cells.contents ++ entries.map Prod.snd
  tables := cells.tables ++ [addresses cells.contents.length entries]
  handles := cells.handles

/-- Ledgers as tables of shared cells. -/
def sharedCells : Keeper Cells where
  load fs path cells := cells.loaded (load fs path).ledger.entries
  entryFor number identity cells := do
    let table ← cells.tables[number]?
    let fresh := cells.contents.length
    if identity = "" then
      return { cells with
        contents := cells.contents ++ [{}]
        handles := cells.handles ++ [fresh] }
    else match Keyed.find? identity table with
      | some address => return { cells with handles := cells.handles ++ [address] }
      | none =>
          return {
            contents := cells.contents ++ [{}]
            tables := cells.tables.set number (Keyed.set identity fresh table)
            handles := cells.handles ++ [fresh] }
  entry handle cells := do
    let address ← cells.handles[handle]?
    cells.contents[address]?
  commit handle value cells := do
    let address ← cells.handles[handle]?
    return { cells with contents := cells.contents.set address value }
  snapshot number cells := do
    let table ← cells.tables[number]?
    return table.map fun (identity, address) => (identity, cells.contents.getD address {})
  length number cells := do
    let table ← cells.tables[number]?
    return table.length
  isEmpty number cells := do
    let table ← cells.tables[number]?
    return table.isEmpty

theorem map_fst_addresses (first : Nat) (entries : Entries) :
    (addresses first entries).map Prod.fst = entries.map Prod.fst := by
  have hpairs : entries.map Prod.fst = ((entries.zipIdx first).map Prod.fst).map Prod.fst := by
    rw [List.zipIdx_map_fst]
  rw [hpairs, addresses, List.map_map, List.map_map]
  rfl

theorem ascending_addresses {entries : Entries} (h : Keyed.Ascending entries) (first : Nat) :
    Keyed.Ascending (addresses first entries) := by
  have hkeys := List.pairwise_map.2 h
  rw [← map_fst_addresses first] at hkeys
  exact List.pairwise_map.1 hkeys

/-- The entry of an identity is in the cell of its place. -/
theorem find?_addresses {entries : Entries} (h : Keyed.Ascending entries) {first address : Nat}
    {identity : String} : Keyed.find? identity (addresses first entries) = some address
      ↔ first ≤ address ∧ (entries.map Prod.fst)[address - first]? = some identity := by
  rw [Keyed.find?_eq_some_iff (ascending_addresses h first), addresses, List.mem_map,
    List.getElem?_map]
  constructor
  · rintro ⟨⟨pair, _⟩, hmem, heq⟩
    obtain ⟨hle, hget⟩ := List.mk_mem_zipIdx_iff_le_and_getElem?_sub.1 hmem
    cases heq
    exact ⟨hle, by rw [hget]; rfl⟩
  · rintro ⟨hle, hget⟩
    obtain ⟨pair, hpair, rfl⟩ := Option.map_eq_some_iff.1 hget
    exact ⟨(pair, address), List.mk_mem_zipIdx_iff_le_and_getElem?_sub.2 ⟨hle, hpair⟩, rfl⟩

/-! ## Rows -/

section Rows

variable {α : Type} {row : List α} {n : Nat} {a : α}

theorem getElem?_append_of_not_mem {more : List α} (h : a ∉ more) :
    (row ++ more)[n]? = some a ↔ row[n]? = some a := by
  rcases Nat.lt_or_ge n row.length with hlt | hle
  · rw [List.getElem?_append_left hlt]
  · rw [List.getElem?_append_right hle, List.getElem?_eq_none hle]
    exact ⟨fun hmore => absurd (List.mem_of_getElem? hmore) h, fun hnone => by cases hnone⟩

theorem getElem?_concat_of_ne (h : n ≠ row.length) : (row ++ [a])[n]? = row[n]? := by
  rcases Nat.lt_or_gt_of_ne h with hlt | hgt
  · exact List.getElem?_append_left hlt
  · rw [List.getElem?_eq_none (Nat.le_of_lt hgt), List.getElem?_eq_none]
    simpa using Nat.succ_le_of_lt hgt

theorem getElem?_concat_of_not_mem (h : a ∉ row) :
    (row ++ [a])[n]? = some a ↔ n = row.length := by
  refine ⟨fun hget => ?_, fun hlast => hlast ▸ List.getElem?_concat_length⟩
  by_contra hne
  rw [getElem?_concat_of_ne hne] at hget
  exact h (List.mem_of_getElem? hget)

theorem set_of_getElem? (h : row[n]? = some a) : row.set n a = row := by
  refine List.ext_getElem? fun i => ?_
  rw [List.getElem?_set]
  split
  · next heq =>
      subst heq
      rw [if_pos (List.getElem?_eq_some_iff.1 h).1, h]
  · rfl

end Rows

/-! ## Names of cells -/

/-- What a table says of an identity. -/
def Cells.address (cells : Cells) (number : Nat) (identity : String) : Option Nat :=
  cells.tables[number]?.bind (Keyed.find? identity)

/-- Cells that hold the entries of one map, each that of its name. -/
structure Maps (names : List Name) (cells : Cells) (map : TotalMap) : Prop where
  apart : names.Nodup
  contents : cells.contents = names.map map.value
  handles : Alongside (fun _ address name => names[address]? = some name)
    cells.handles map.handles
  tables : Alongside (fun _ table known => Keyed.Ascending table
      ∧ ∀ identity, identity ∈ known ↔ (Keyed.find? identity table).isSome)
    cells.tables map.known
  /-- A table leads to the cell that is called after the identity. -/
  addresses : ∀ (number : Nat) (identity : String) (address : Nat),
    cells.address number identity = some address
      ↔ names[address]? = some (.document number identity)
  /-- The names of handles that are yet to be asked for are free. -/
  unused : ∀ handle, map.handles.length ≤ handle → Name.disposable handle ∉ names
  /-- What has no cell is empty. -/
  others : ∀ name, name ∉ names → map.value name = {}

namespace Maps

variable {names : List Name} {cells : Cells} {map : TotalMap}

theorem start : Maps [] {} {} :=
  ⟨.nil, rfl, .nil, .nil, by simp [Cells.address], by simp, fun _ _ => rfl⟩

/-- The entry in a cell is that of its name. -/
theorem contents_eq (h : Maps names cells map) {address : Nat} {name : Name}
    (hname : names[address]? = some name) : cells.contents[address]? = some (map.value name) := by
  rw [h.contents, List.getElem?_map, hname]
  rfl

theorem length_eq (h : Maps names cells map) : cells.contents.length = names.length := by
  rw [h.contents, List.length_map]

/-- The table of a ledger is the map restricted to what the ledger knows. -/
theorem snapshot_eq (h : Maps names cells map) {number : Nat} {table : Keyed Nat}
    {known : Finset String} (htable : cells.tables[number]? = some table)
    (hknown : map.known[number]? = some known) :
    table.map (fun pair => (pair.1, cells.contents.getD pair.2 {})) = map.entries number known := by
  obtain ⟨hordered, hmem⟩ := h.tables.2 _ _ _ htable hknown
  refine TotalMap.eq_entries (List.pairwise_map.2 hordered) fun identity => ?_
  rw [Keyed.find?_map fun _ address => cells.contents.getD address {}]
  cases hfind : Keyed.find? identity table with
  | none => rw [if_neg (by rw [hmem, hfind]; simp)]; rfl
  | some address =>
      have hname : names[address]? = some (.document number identity) :=
        (h.addresses number identity address).1 (by rw [Cells.address, htable]; exact hfind)
      rw [if_pos (by rw [hmem, hfind]; rfl), Option.map_some, List.getD_eq_getElem?_getD,
        h.contents_eq hname, Option.getD_some]

/-- A document has no cell before its ledger is loaded. -/
theorem document_not_mem (h : Maps names cells map) {number : Nat}
    (hnumber : map.known.length ≤ number) (identity : String) :
    Name.document number identity ∉ names := by
  intro hmem
  obtain ⟨address, hname⟩ := List.mem_iff_getElem?.1 hmem
  have haddress := (h.addresses number identity address).2 hname
  rw [Cells.address, List.getElem?_eq_none (h.tables.1 ▸ hnumber)] at haddress
  cases haddress

theorem load (h : Maps names cells map) {ledger : Ledger}
    (hordered : Keyed.Ascending ledger.entries) :
    Maps (names ++ (ledger.entries.map Prod.fst).map (.document map.known.length))
      (cells.loaded ledger.entries) (map.loaded ledger) := by
  have hfresh : ∀ identity, Name.document map.known.length identity ∉ names :=
    h.document_not_mem le_rfl
  have hold : ∀ name ∈ names, (map.loaded ledger).value name = map.value name := by
    rintro (⟨number, identity⟩ | handle) hmem
    · refine if_neg ?_
      rintro rfl
      exact hfresh identity hmem
    · rfl
  have hvalue : ∀ pair ∈ ledger.entries,
      (map.loaded ledger).value (.document map.known.length pair.1) = pair.2 := by
    intro pair hpair
    refine (if_pos rfl).trans ?_
    rw [entry, (Keyed.find?_eq_some_iff hordered).2 hpair, Option.getD_some]
  refine ⟨List.nodup_append.2 ⟨h.apart, hordered.nodup.map fun _ _ heq => (Name.document.inj heq).2,
    ?_⟩, ?_, ?_, h.tables.concat ⟨ascending_addresses hordered _, fun identity => ?_⟩,
    fun number identity address => ?_, fun handle hle => ?_, fun name hname => ?_⟩
  · rintro name hname _ hnew rfl
    obtain ⟨identity, -, rfl⟩ := List.mem_map.1 hnew
    exact hfresh _ hname
  · show cells.contents ++ ledger.entries.map Prod.snd = _
    rw [List.map_append, h.contents, List.map_map, List.map_map, List.map_congr_left hold]
    exact congrArg _ (List.map_congr_left fun pair hpair => (hvalue pair hpair).symm)
  · refine h.handles.imp fun _ address name _ _ hname => ?_
    exact (List.getElem?_append_left (List.getElem?_eq_some_iff.1 hname).1).trans hname
  · rw [Keyed.isSome_find?, map_fst_addresses, List.mem_toFinset]
  · by_cases hlast : number = map.known.length
    · subst hlast
      have htable : (cells.tables ++ [WikiPress.Ledger.addresses cells.contents.length
          ledger.entries])[map.known.length]?
          = some (WikiPress.Ledger.addresses cells.contents.length ledger.entries) := by
        rw [← h.tables.1, List.getElem?_concat_length]
      rw [Cells.address, Cells.loaded, htable, Option.bind_some, find?_addresses hordered,
        h.length_eq]
      by_cases hle : names.length ≤ address
      · simp [List.getElem?_append_right hle, hle]
      · rw [List.getElem?_append_left (Nat.lt_of_not_le hle)]
        refine ⟨fun hin => absurd hin.1 hle, fun hname => ?_⟩
        exact absurd (List.mem_of_getElem? hname) (hfresh identity)
    · have hnew : Name.document number identity
          ∉ (ledger.entries.map Prod.fst).map (Name.document map.known.length) := by
        simp [Ne.symm hlast]
      rw [getElem?_append_of_not_mem hnew, ← h.addresses, Cells.address, Cells.address,
        Cells.loaded, getElem?_concat_of_ne (h.tables.1 ▸ hlast)]
  · rw [List.mem_append, not_or]
    exact ⟨h.unused handle hle, by simp⟩
  · rw [List.mem_append, not_or] at hname
    rcases name with ⟨number, identity⟩ | handle
    · by_cases hnumber : number = map.known.length
      · subst hnumber
        have hmissing : Keyed.find? identity ledger.entries = none := by
          rw [← Option.not_isSome_iff_eq_none, Keyed.isSome_find?]
          exact fun hmem => hname.2 (List.mem_map_of_mem hmem)
        exact (if_pos rfl).trans (by rw [entry, hmissing]; rfl)
      · exact (if_neg hnumber).trans (h.others _ hname.1)
    · exact h.others _ hname.1

/-- Where a new cell is called by a name that was free, the cells hold the entries of the map. -/
theorem concat_contents (h : Maps names cells map) {name : Name} (hname : name ∉ names) :
    (names ++ [name]).Nodup ∧ cells.contents ++ [({} : Entry)] = (names ++ [name]).map map.value
      ∧ ∀ other, other ∉ names ++ [name] → map.value other = {} := by
  refine ⟨List.nodup_append.2 ⟨h.apart, List.nodup_singleton name, ?_⟩, ?_, fun other hother => ?_⟩
  · rintro other hother _ hlast rfl
    exact hname (List.mem_singleton.1 hlast ▸ hother)
  · rw [List.map_append, h.contents, List.map_singleton, h.others name hname]
  · exact h.others other fun hmem => hother (List.mem_append_left _ hmem)

theorem entryFor_empty (h : Maps names cells map) :
    Maps (names ++ [.disposable map.handles.length])
      { cells with
        contents := cells.contents ++ [{}]
        handles := cells.handles ++ [cells.contents.length] }
      { map with handles := map.handles ++ [.disposable map.handles.length] } := by
  obtain ⟨hapart, hcontents, hothers⟩ := h.concat_contents (h.unused _ le_rfl)
  refine ⟨hapart, hcontents,
    (h.handles.imp fun _ address name _ _ hname => ?_).concat (by simp [h.length_eq]), h.tables,
    fun number identity address => ?_, fun handle hle => ?_, hothers⟩
  · exact (List.getElem?_append_left (List.getElem?_eq_some_iff.1 hname).1).trans hname
  · rw [getElem?_append_of_not_mem (by simp)]
    exact h.addresses number identity address
  · simp only [List.length_append, List.length_singleton] at hle
    rw [List.mem_append, not_or]
    exact ⟨h.unused handle (by omega), by simp; omega⟩

/-- An identity that was not known is given a new cell. -/
theorem entryFor_new (h : Maps names cells map) {number : Nat} {table : Keyed Nat}
    {known : Finset String} {identity : String} (htable : cells.tables[number]? = some table)
    (hknown : map.known[number]? = some known) (hfind : Keyed.find? identity table = none) :
    Maps (names ++ [.document number identity])
      { contents := cells.contents ++ [{}]
        tables := cells.tables.set number (Keyed.set identity cells.contents.length table)
        handles := cells.handles ++ [cells.contents.length] }
      { map with
        known := map.known.set number (insert identity known)
        handles := map.handles ++ [.document number identity] } := by
  obtain ⟨hordered, hmem⟩ := h.tables.2 _ _ _ htable hknown
  have hfresh : Name.document number identity ∉ names := by
    intro hin
    obtain ⟨address, hname⟩ := List.mem_iff_getElem?.1 hin
    have haddress := (h.addresses number identity address).2 hname
    rw [Cells.address, htable, Option.bind_some, hfind] at haddress
    cases haddress
  obtain ⟨hapart, hcontents, hothers⟩ := h.concat_contents hfresh
  refine ⟨hapart, hcontents,
    (h.handles.imp fun _ address name _ _ hname => ?_).concat (by simp [h.length_eq]),
    h.tables.set ⟨Keyed.ascending_set hordered _ _, fun other => ?_⟩,
    fun n other address => ?_, fun handle hle => ?_, hothers⟩
  · exact (List.getElem?_append_left (List.getElem?_eq_some_iff.1 hname).1).trans hname
  · rw [Keyed.isSome_find?_set, Finset.mem_insert, hmem, or_comm]
  · by_cases hn : number = n
    · subst hn
      rw [Cells.address, List.getElem?_set_self (List.getElem?_eq_some_iff.1 htable).1,
        Option.bind_some]
      by_cases hother : other = identity
      · subst hother
        rw [Keyed.find?_set_self, getElem?_concat_of_not_mem hfresh, h.length_eq, Option.some_inj,
          eq_comm]
      · rw [Keyed.find?_set_of_ne hother, getElem?_append_of_not_mem (by simp [hother]),
          ← h.addresses, Cells.address, htable, Option.bind_some]
    · rw [getElem?_append_of_not_mem (by simp [Ne.symm hn]), ← h.addresses, Cells.address,
        Cells.address, List.getElem?_set_ne hn]
  · simp only [List.length_append, List.length_singleton] at hle
    rw [List.mem_append, not_or]
    exact ⟨h.unused handle (by omega), by simp⟩

/-- An identity that is known keeps its cell. -/
theorem entryFor_known (h : Maps names cells map) {number address : Nat} {table : Keyed Nat}
    {known : Finset String} {identity : String} (htable : cells.tables[number]? = some table)
    (hknown : map.known[number]? = some known)
    (hfind : Keyed.find? identity table = some address) :
    Maps names { cells with handles := cells.handles ++ [address] }
      { map with
        known := map.known.set number (insert identity known)
        handles := map.handles ++ [.document number identity] } := by
  have hmem : identity ∈ known := by
    rw [(h.tables.2 _ _ _ htable hknown).2, hfind]
    rfl
  have hname : names[address]? = some (.document number identity) :=
    (h.addresses number identity address).1 (by rw [Cells.address, htable]; exact hfind)
  rw [Finset.insert_eq_of_mem hmem, set_of_getElem? hknown]
  refine ⟨h.apart, h.contents, h.handles.concat hname, h.tables, h.addresses,
    fun handle hle => h.unused handle ?_, h.others⟩
  simp only [List.length_append, List.length_singleton] at hle
  omega

theorem commit (h : Maps names cells map) {address : Nat} {name : Name}
    (hname : names[address]? = some name) (value : Entry) :
    Maps names { cells with contents := cells.contents.set address value }
      (map.commit name value) := by
  refine ⟨h.apart, ?_, h.handles, h.tables, h.addresses, h.unused, fun other hother => ?_⟩
  · rw [h.contents]
    refine List.ext_getElem? fun i => ?_
    rw [List.getElem?_set, List.length_map, List.getElem?_map, List.getElem?_map]
    split
    · next heq =>
        subst heq
        rw [if_pos (List.getElem?_eq_some_iff.1 hname).1, hname, Option.map_some,
          TotalMap.value_commit_self]
    · next hne =>
        cases hother : names[i]? with
        | none => rfl
        | some other =>
            have hapart : other ≠ name := by
              rintro rfl
              exact hne ((List.getElem?_inj (List.getElem?_eq_some_iff.1 hname).1 h.apart).1
                (hname.trans hother.symm))
            rw [Option.map_some, Option.map_some, TotalMap.value_commit_of_ne hapart]
  · have hne : other ≠ name := by
      rintro rfl
      exact hother (List.mem_of_getElem? hname)
    rw [TotalMap.value_commit_of_ne hne, h.others other hother]

end Maps

/-- Whatever is asked of them, shared cells go on holding one map and show what the map says. -/
theorem sharedCells_refines :
    Refines sharedCells totalMap fun cells map => ∃ names, Maps names cells map where
  load := by
    rintro cells map ⟨names, h⟩ fs path
    exact ⟨_, h.load (ascending_load fs path)⟩
  entryFor := by
    rintro cells map ⟨names, h⟩ number identity
    obtain ⟨htable, hknown⟩ | ⟨table, known, htable, hknown, -⟩ := h.tables.get number
    · simp only [sharedCells, totalMap, htable, hknown]
      exact .none
    · by_cases hidentity : identity = ""
      · simp only [sharedCells, totalMap, htable, hknown, Option.bind_eq_bind, Option.bind_some,
          if_pos hidentity]
        exact .some ⟨_, h.entryFor_empty⟩
      · cases hfind : Keyed.find? identity table with
        | none =>
            simp only [sharedCells, totalMap, htable, hknown, Option.bind_eq_bind,
              Option.bind_some, if_neg hidentity, hfind]
            exact .some ⟨_, h.entryFor_new htable hknown hfind⟩
        | some address =>
            simp only [sharedCells, totalMap, htable, hknown, Option.bind_eq_bind,
              Option.bind_some, if_neg hidentity, hfind]
            exact .some ⟨_, h.entryFor_known htable hknown hfind⟩
  entry := by
    rintro cells map ⟨names, h⟩ handle
    obtain ⟨haddress, hname⟩ | ⟨address, name, haddress, hname, hcell⟩ := h.handles.get handle
    · simp [sharedCells, totalMap, haddress, hname]
    · simp [sharedCells, totalMap, haddress, hname, h.contents_eq hcell]
  commit := by
    rintro cells map ⟨names, h⟩ handle value
    obtain ⟨haddress, hname⟩ | ⟨address, name, haddress, hname, hcell⟩ := h.handles.get handle
    · simp only [sharedCells, totalMap, haddress, hname]
      exact .none
    · simp only [sharedCells, totalMap, haddress, hname, Option.bind_eq_bind, Option.bind_some]
      exact .some ⟨_, h.commit hcell value⟩
  snapshot := by
    rintro cells map ⟨names, h⟩ number
    obtain ⟨htable, hknown⟩ | ⟨table, known, htable, hknown, -⟩ := h.tables.get number
    · simp [sharedCells, totalMap, htable, hknown]
    · simp only [sharedCells, totalMap, htable, hknown, Option.bind_eq_bind, Option.bind_some,
        Option.map_some]
      exact congrArg some (h.snapshot_eq htable hknown)
  length := by
    rintro cells map ⟨names, h⟩ number
    obtain ⟨htable, hknown⟩ | ⟨table, known, htable, hknown, -⟩ := h.tables.get number
    · simp [sharedCells, totalMap, htable, hknown]
    · have hlength := congrArg List.length (h.snapshot_eq htable hknown)
      rw [List.length_map, TotalMap.length_entries] at hlength
      simp [sharedCells, totalMap, htable, hknown, hlength]
  isEmpty := by
    rintro cells map ⟨names, h⟩ number
    obtain ⟨htable, hknown⟩ | ⟨table, known, htable, hknown, -⟩ := h.tables.get number
    · simp [sharedCells, totalMap, htable, hknown]
    · have hisEmpty := congrArg List.isEmpty (h.snapshot_eq htable hknown)
      rw [List.isEmpty_map, TotalMap.isEmpty_entries] at hisEmpty
      simp [sharedCells, totalMap, htable, hknown, hisEmpty]

/-- **Ledgers behave as one total map.** Whatever is asked of the ledgers of a process, in any
order and through handles obtained at any time before, the answers are those of one map from
names to entries: what was last committed through a handle of a name, or what the ledger was
loaded with, is what every handle of that name and every snapshot shows. The same answers come
from entries in cells that handles share. -/
theorem answers_eq_totalMap (requests : List Request) :
    inProcess.answers {} requests = totalMap.answers {} requests
      ∧ sharedCells.answers {} requests = totalMap.answers {} requests :=
  ⟨inProcess_refines.answers Models.start requests,
    sharedCells_refines.answers ⟨[], Maps.start⟩ requests⟩

end WikiPress.Ledger
