import Mathlib.Data.String.Basic
import WikiPress.Keyed

/-!
# WikiPress.Proofs.Keyed

Finite maps: what a lookup finds after a change, and how a map is built up again.

Design points:

* `set` stops at the first greater key, so a lookup after it is right only in a map whose
  keys ascend (`Ascending`). Every map that starts empty stays so.
* The pairs of an ascending map, set one after another, give the map itself
  (`foldl_set`).
-/

namespace WikiPress.Keyed

variable {α : Type}

/-- The keys of a map ascend. -/
def Ascending (map : Keyed α) : Prop := map.Pairwise fun a b => a.1 < b.1

instance (map : Keyed α) : Decidable (Ascending map) :=
  inferInstanceAs (Decidable (List.Pairwise ..))

theorem ascending_nil : Ascending ([] : Keyed α) := List.Pairwise.nil

@[simp] theorem find?_nil (key : String) : find? key ([] : Keyed α) = none := rfl

theorem find?_cons (key k : String) (value : α) (rest : Keyed α) :
    find? key ((k, value) :: rest) = if k = key then some value else find? key rest := rfl

theorem mem_of_find? {key : String} {value : α} {map : Keyed α}
    (h : find? key map = some value) : (key, value) ∈ map := by
  induction map with
  | nil => cases h
  | cons first rest ih =>
      obtain ⟨k, old⟩ := first
      rw [find?_cons] at h
      split at h
      · next hk =>
          cases h
          exact hk ▸ List.mem_cons_self
      · exact List.mem_cons_of_mem _ (ih h)

theorem Ascending.nodup {map : Keyed α} (h : Ascending map) : (map.map Prod.fst).Nodup :=
  List.pairwise_map.2 (h.imp fun hlt => ne_of_lt hlt)

/-- Where keys come once, a lookup finds every pair. -/
theorem find?_eq_some_iff_of_nodup {key : String} {value : α} {map : Keyed α}
    (h : (map.map Prod.fst).Nodup) : find? key map = some value ↔ (key, value) ∈ map := by
  refine ⟨mem_of_find?, fun hmem => ?_⟩
  induction map with
  | nil => cases hmem
  | cons first rest ih =>
      obtain ⟨k, old⟩ := first
      obtain ⟨hfirst, hrest⟩ := List.nodup_cons.1 h
      rw [find?_cons]
      rcases List.mem_cons.1 hmem with heq | hlater
      · cases heq
        rw [if_pos rfl]
      · have hne : k ≠ key := by
          rintro rfl
          exact hfirst (List.mem_map.2 ⟨_, hlater, rfl⟩)
        rw [if_neg hne, ih hrest hlater]

theorem find?_eq_some_iff {key : String} {value : α} {map : Keyed α} (h : Ascending map) :
    find? key map = some value ↔ (key, value) ∈ map :=
  find?_eq_some_iff_of_nodup h.nodup

/-- A key with a value is one of the map's. -/
theorem isSome_find? {key : String} {map : Keyed α} :
    (find? key map).isSome ↔ key ∈ map.map Prod.fst := by
  induction map with
  | nil => simp
  | cons first rest ih =>
      obtain ⟨k, old⟩ := first
      rw [find?_cons, List.map_cons, List.mem_cons, ← ih]
      by_cases h : k = key
      · simp [h]
      · simp [h, Ne.symm h]

/-- A key has one value. -/
theorem eq_of_mem {key : String} {value other : α} {map : Keyed α} (h : (map.map Prod.fst).Nodup)
    (hmem : (key, value) ∈ map) (hother : (key, other) ∈ map) : value = other := by
  rw [← find?_eq_some_iff_of_nodup h] at hmem hother
  exact Option.some.inj (hmem.symm.trans hother)

/-- Two maps in which every key has the same value are one. -/
theorem ext {map other : Keyed α} (h : Ascending map) (h' : Ascending other)
    (hfind : ∀ key, find? key map = find? key other) : map = other := by
  have hmem : ∀ pair, pair ∈ map ↔ pair ∈ other := by
    rintro ⟨key, value⟩
    rw [← find?_eq_some_iff h, ← find?_eq_some_iff h', hfind]
  have hnodup : ∀ {m : Keyed α}, Ascending m → m.Nodup := fun hm =>
    List.Pairwise.imp (fun hlt heq => ne_of_lt hlt (congrArg Prod.fst heq)) hm
  have hperm : map.Perm other := (List.perm_ext_iff_of_nodup (hnodup h) (hnodup h')).2 hmem
  exact hperm.eq_of_pairwise (fun a b _ _ hab hba => absurd hba (lt_asymm hab)) h h'

/-- Values that are changed by key. -/
theorem find?_map {β : Type} (change : String → α → β) (key : String) (map : Keyed α) :
    find? key (map.map fun pair => (pair.1, change pair.1 pair.2))
      = (find? key map).map (change key) := by
  induction map with
  | nil => rfl
  | cons pair rest ih =>
      obtain ⟨k, value⟩ := pair
      rw [List.map_cons, find?_cons, find?_cons]
      split
      · next hk => rw [hk]; rfl
      · exact ih

/-- A key that is not there may be in front of a greater one only. -/
theorem mem_set {key : String} {value : α} {map : Keyed α} {pair : String × α}
    (h : pair ∈ set key value map) : pair = (key, value) ∨ pair ∈ map := by
  induction map with
  | nil => exact Or.inl (List.mem_singleton.1 h)
  | cons first rest ih =>
      obtain ⟨k, old⟩ := first
      rw [set] at h
      split at h
      · rcases List.mem_cons.1 h with rfl | h
        · exact Or.inl rfl
        · exact Or.inr (List.mem_cons_of_mem _ h)
      · split at h
        · rcases List.mem_cons.1 h with rfl | h
          · exact Or.inl rfl
          · exact Or.inr h
        · rcases List.mem_cons.1 h with rfl | h
          · exact Or.inr List.mem_cons_self
          · rcases ih h with rfl | h
            · exact Or.inl rfl
            · exact Or.inr (List.mem_cons_of_mem _ h)

theorem ascending_set {map : Keyed α} (h : Ascending map) (key : String) (value : α) :
    Ascending (set key value map) := by
  induction map with
  | nil => exact List.pairwise_singleton _ _
  | cons first rest ih =>
      obtain ⟨k, old⟩ := first
      obtain ⟨hfirst, hrest⟩ := List.pairwise_cons.1 h
      rw [set]
      split
      · next hk =>
          subst hk
          exact List.pairwise_cons.2 ⟨hfirst, hrest⟩
      · next hne =>
          split
          · next hlt =>
              refine List.pairwise_cons.2 ⟨fun pair hpair => ?_, h⟩
              rcases List.mem_cons.1 hpair with rfl | hpair
              · exact hlt
              · exact lt_trans hlt (hfirst pair hpair)
          · next hge =>
              refine List.pairwise_cons.2 ⟨fun pair hpair => ?_, ih hrest⟩
              rcases mem_set hpair with rfl | hpair
              · exact lt_of_le_of_ne (not_lt.1 hge) hne
              · exact hfirst pair hpair

theorem find?_set_self (key : String) (value : α) (map : Keyed α) :
    find? key (set key value map) = some value := by
  induction map with
  | nil => simp [set, find?_cons]
  | cons first rest ih =>
      obtain ⟨k, old⟩ := first
      rw [set]
      split
      · rw [find?_cons, if_pos rfl]
      · next hne =>
          split
          · rw [find?_cons, if_pos rfl]
          · rw [find?_cons, if_neg hne, ih]

theorem find?_set_of_ne {key other : String} (hne : other ≠ key) (value : α) (map : Keyed α) :
    find? other (set key value map) = find? other map := by
  induction map with
  | nil => simp [set, find?_cons, hne.symm]
  | cons first rest ih =>
      obtain ⟨k, old⟩ := first
      rw [set]
      split
      · next hk =>
          subst hk
          rw [find?_cons, find?_cons, if_neg hne.symm, if_neg hne.symm]
      · split
        · rw [find?_cons, if_neg hne.symm]
        · rw [find?_cons, find?_cons, ih]

/-- Setting a key makes it one of the map's, and leaves the others there. -/
theorem isSome_find?_set {key other : String} {value : α} {map : Keyed α} :
    (find? other (set key value map)).isSome ↔ (find? other map).isSome ∨ other = key := by
  by_cases h : other = key
  · rw [h, find?_set_self]
    simp
  · rw [find?_set_of_ne h]
    simp [h]

/-- A key that is given the value it has changes nothing. -/
theorem set_of_find? {key : String} {value : α} {map : Keyed α} (h : Ascending map)
    (hfind : find? key map = some value) : set key value map = map := by
  induction map with
  | nil => cases hfind
  | cons first rest ih =>
      obtain ⟨k, old⟩ := first
      obtain ⟨hfirst, hrest⟩ := List.pairwise_cons.1 h
      rw [find?_cons] at hfind
      rw [set]
      split at hfind
      · next hk =>
          cases hfind
          rw [if_pos hk, hk]
      · next hne =>
          -- the key is further on, so it is greater than the first
          have hmem : (key, value) ∈ rest := mem_of_find? hfind
          rw [if_neg hne, if_neg (lt_asymm (hfirst _ hmem)), ih hrest hfind]

theorem find?_erase_self (key : String) (map : Keyed α) : find? key (erase key map) = none := by
  rw [← Option.not_isSome_iff_eq_none, isSome_find?, erase]
  simp

theorem find?_erase_of_ne {key other : String} (hne : other ≠ key) (map : Keyed α) :
    find? other (erase key map) = find? other map := by
  induction map with
  | nil => rfl
  | cons first rest ih =>
      obtain ⟨k, old⟩ := first
      rw [erase] at ih ⊢
      rw [List.filter_cons]
      by_cases hk : k = key
      · rw [if_neg (by simp [hk]), ih, find?_cons, if_neg (hk ▸ hne.symm)]
      · rw [if_pos (by simp [hk]), find?_cons, find?_cons, ih]

/-- A key greater than all others goes to the end. -/
theorem set_of_forall_lt {key : String} {value : α} {map : Keyed α}
    (h : ∀ pair ∈ map, pair.1 < key) : set key value map = map ++ [(key, value)] := by
  induction map with
  | nil => rfl
  | cons first rest ih =>
      obtain ⟨k, old⟩ := first
      obtain ⟨hfirst, hrest⟩ := List.forall_mem_cons.1 h
      have hlt : k < key := hfirst
      rw [set, if_neg (ne_of_lt hlt), if_neg (lt_asymm hlt), ih hrest]
      rfl

/-- The pairs of an ascending map, set behind those of another. -/
theorem foldl_set {done map : Keyed α} (h : Ascending (done ++ map)) :
    map.foldl (fun m pair => set pair.1 pair.2 m) done = done ++ map := by
  induction map generalizing done with
  | nil => rw [List.append_nil]; rfl
  | cons pair rest ih =>
      -- the pairs that are set already have smaller keys
      have hlt : ∀ p ∈ done, p.1 < pair.1 := fun p hp =>
        (List.pairwise_append.1 h).2.2 p hp pair List.mem_cons_self
      have happend : done ++ pair :: rest = (done ++ [pair]) ++ rest := by simp
      rw [List.foldl_cons, set_of_forall_lt hlt, happend]
      exact ih (by rw [← happend]; exact h)

/-! ## Pairs in any order -/

theorem insert_perm (pair : String × α) (pairs : List (String × α)) :
    (insert pair pairs).Perm (pair :: pairs) := by
  induction pairs with
  | nil => exact List.Perm.refl _
  | cons first rest ih =>
      rw [insert]
      split
      · exact (ih.cons first).trans (List.Perm.swap pair first rest)
      · exact List.Perm.refl _

theorem sorted_perm (pairs : List (String × α)) : (sorted pairs).Perm pairs := by
  induction pairs with
  | nil => exact List.Perm.refl _
  | cons pair rest ih => exact (insert_perm pair (sorted rest)).trans (ih.cons pair)

theorem mem_sorted {pairs : List (String × α)} {pair : String × α} :
    pair ∈ sorted pairs ↔ pair ∈ pairs :=
  (sorted_perm pairs).mem_iff

theorem pairwise_insert {pair : String × α} {pairs : List (String × α)}
    (h : pairs.Pairwise fun a b => a.1 ≤ b.1) :
    (insert pair pairs).Pairwise fun a b => a.1 ≤ b.1 := by
  induction pairs with
  | nil => exact List.pairwise_singleton _ _
  | cons first rest ih =>
      obtain ⟨hfirst, hrest⟩ := List.pairwise_cons.1 h
      rw [insert]
      split
      · next hlt =>
          refine List.pairwise_cons.2 ⟨fun other hother => ?_, ih hrest⟩
          rcases List.mem_cons.1 ((insert_perm pair rest).mem_iff.1 hother) with rfl | hlater
          · exact le_of_lt hlt
          · exact hfirst other hlater
      · next hle =>
          refine List.pairwise_cons.2 ⟨fun other hother => ?_, h⟩
          rcases List.mem_cons.1 hother with rfl | hlater
          · exact not_lt.1 hle
          · exact le_trans (not_lt.1 hle) (hfirst other hlater)

theorem pairwise_sorted (pairs : List (String × α)) :
    (sorted pairs).Pairwise fun a b => a.1 ≤ b.1 := by
  induction pairs with
  | nil => exact List.Pairwise.nil
  | cons pair rest ih => exact pairwise_insert ih

theorem nodup_sorted {pairs : List (String × α)} (h : (pairs.map Prod.fst).Nodup) :
    ((sorted pairs).map Prod.fst).Nodup :=
  ((sorted_perm pairs).map Prod.fst).nodup_iff.2 h

/-- Where keys come once, the pairs in order are a map. -/
theorem ascending_sorted {pairs : List (String × α)} (h : (pairs.map Prod.fst).Nodup) :
    Ascending (sorted pairs) :=
  (pairwise_sorted pairs).imp₂ (fun _ _ hle hne => lt_of_le_of_ne hle hne)
    (List.pairwise_map.1 (nodup_sorted h))

theorem find?_sorted {pairs : List (String × α)} (h : (pairs.map Prod.fst).Nodup) (key : String) :
    find? key (sorted pairs) = find? key pairs :=
  Option.ext fun value => by
    rw [find?_eq_some_iff_of_nodup (nodup_sorted h), find?_eq_some_iff_of_nodup h, mem_sorted]

/-- Where every key has the same in two lists of pairs, so have the maps of them. -/
theorem map_sorted_congr {β : Type} (view : String → α → β) {pairs others : List (String × α)}
    (hpairs : (pairs.map Prod.fst).Nodup) (hothers : (others.map Prod.fst).Nodup)
    (h : ∀ key, (find? key pairs).map (view key) = (find? key others).map (view key)) :
    (sorted pairs).map (fun pair => (pair.1, view pair.1 pair.2))
      = (sorted others).map fun pair => (pair.1, view pair.1 pair.2) := by
  have hascending : ∀ {list : List (String × α)}, (list.map Prod.fst).Nodup →
      Ascending ((sorted list).map fun pair => (pair.1, view pair.1 pair.2)) := fun hlist =>
    List.pairwise_map.2 (ascending_sorted hlist)
  refine ext (hascending hpairs) (hascending hothers) fun key => ?_
  rw [find?_map, find?_map, find?_sorted hpairs, find?_sorted hothers, h]

end WikiPress.Keyed
