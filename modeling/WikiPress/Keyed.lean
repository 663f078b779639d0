/-!
# WikiPress.Keyed

Finite maps from texts, as lists of pairs in ascending order of their keys.

Design points:

* A map built with `set` and `erase` from the empty list has each key once and its keys
  in order, so two such maps with the same pairs are the same list.
* Pairs from elsewhere may come in any order, and with one key more than once. `sorted` puts
  them in order and keeps them all.
* Keys are ordered by their characters, as texts are.
-/

namespace WikiPress

/-- A finite map from texts. -/
abbrev Keyed (α : Type) := List (String × α)

namespace Keyed

variable {α : Type}

/-- The value of a key. -/
def find? (key : String) : Keyed α → Option α
  | [] => none
  | (k, value) :: rest => if k = key then some value else find? key rest

/-- Gives a value to a key, in place of the one it had. -/
def set (key : String) (value : α) : Keyed α → Keyed α
  | [] => [(key, value)]
  | (k, old) :: rest =>
      if k = key then (key, value) :: rest
      else if key < k then (key, value) :: (k, old) :: rest
      else (k, old) :: set key value rest

/-- Takes a key out. -/
def erase (key : String) (map : Keyed α) : Keyed α :=
  map.filter fun pair => pair.1 ≠ key

/-- Puts a pair in front of those whose keys are not smaller. -/
def insert (pair : String × α) : List (String × α) → List (String × α)
  | [] => [pair]
  | first :: rest =>
      if first.1 < pair.1 then first :: insert pair rest else pair :: first :: rest

/-- Pairs in the order of their keys. Pairs of one key keep their order. -/
def sorted : List (String × α) → List (String × α)
  | [] => []
  | pair :: rest => insert pair (sorted rest)

end Keyed

end WikiPress
