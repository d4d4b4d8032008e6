/-
  Names and their canonical form.

  Names of commands, queues, scripts and stored objects are compared without
  regard to case: `Key.normalize` is the upper-case form that stands for all
  spellings of a name.  `Index` is a finite map from texts, with one value for
  a name; `names` lists its names in ascending order of code points.
-/
import Cuelist.Text.Case

namespace Cuelist

/-- The canonical form of a name: upper case. -/
def Key.normalize (name : String) : String :=
  String.ofList (Text.upper name.toList)

/-- A finite map from names. -/
structure Index (α : Type) where
  pairs : List (String × α) := []
deriving Repr

namespace Index

variable {α : Type}

/-- The map without names. -/
def empty : Index α := {}

/-- The value under a name, spelled exactly so. -/
def get? (x : Index α) (name : String) : Option α :=
  x.pairs.lookup name

/-- Whether a name, spelled exactly so, has a value. -/
def contains (x : Index α) (name : String) : Bool :=
  (x.get? name).isSome

/-- The map without a name. -/
def erase (x : Index α) (name : String) : Index α where
  pairs := x.pairs.filter fun p => p.1 != name

/-- The map with a value put under a name. -/
def insert (x : Index α) (name : String) (value : α) : Index α where
  pairs := (name, value) :: (x.erase name).pairs

/-- How many names have a value. -/
def size (x : Index α) : Nat :=
  x.pairs.length

/-- Whether no name has a value. -/
def isEmpty (x : Index α) : Bool :=
  x.pairs.isEmpty

/-- The names that have a value, in ascending order. -/
def names (x : Index α) : List String :=
  (x.pairs.map Prod.fst).mergeSort fun a b => !decide (b < a)

/-- The map of a list of pairs, where a later pair wins. -/
def ofList (ps : List (String × α)) : Index α :=
  ps.foldl (fun x p => x.insert p.1 p.2) empty

/-! ### Lookups -/

theorem lookup_cons_ne {name m : String} (a : α) (ps : List (String × α)) (h : m ≠ name) :
    List.lookup m ((name, a) :: ps) = List.lookup m ps := by
  simp only [List.lookup_cons, beq_false_of_ne h]

theorem get?_erase (x : Index α) (name m : String) :
    (x.erase name).get? m = if m = name then none else x.get? m := by
  obtain ⟨ps⟩ := x
  simp only [get?, erase]
  induction ps with
  | nil => simp
  | cons p ps ih =>
    obtain ⟨n, a⟩ := p
    by_cases hn : n = name
    · rw [List.filter_cons_of_neg (by simpa using hn), ih]
      split
      next => rfl
      next hm => rw [lookup_cons_ne a ps (hn ▸ hm)]
    · rw [List.filter_cons_of_pos (by simpa using hn)]
      by_cases hm : m = n
      · rw [hm, List.lookup_cons_self, List.lookup_cons_self, if_neg hn]
      · rw [lookup_cons_ne a _ hm, lookup_cons_ne a _ hm, ih]

theorem get?_insert (x : Index α) (name m : String) (a : α) :
    (x.insert name a).get? m = if m = name then some a else x.get? m := by
  split
  next hm => rw [hm]; exact List.lookup_cons_self
  next hm =>
    have herase := x.get?_erase name m
    rw [if_neg hm] at herase
    exact (lookup_cons_ne a _ hm).trans herase

end Index

end Cuelist
