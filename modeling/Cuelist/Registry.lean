/-
  Registries: things under names whose case does not count.

  A later registration of a name replaces the earlier one.  A registry is a
  value, so what was taken from it once does not change with it.
-/
import Cuelist.Failure
import Cuelist.Key

namespace Cuelist

/-- Things under names. -/
structure Registry (α : Type) where
  index : Index α := {}

namespace Registry

variable {α : Type}

/-- The registry without names. -/
def empty : Registry α := {}

/-- The registry with a thing under a name. -/
def register (r : Registry α) (name : String) (a : α) : Registry α where
  index := r.index.insert (Key.normalize name) a

/-- The registry without a name. -/
def unregister (r : Registry α) (name : String) : Registry α where
  index := r.index.erase (Key.normalize name)

/-- The registry of a list of pairs, where a later pair wins. -/
def ofList (ps : List (String × α)) : Registry α :=
  ps.foldl (fun r p => r.register p.1 p.2) empty

/-- Whether there is something under a name. -/
def has (r : Registry α) (name : String) : Bool :=
  r.index.contains (Key.normalize name)

/-- What is under a name. -/
def lookup (r : Registry α) (name : String) : Except CommandError α :=
  match r.index.get? (Key.normalize name) with
  | some a => .ok a
  | none => .error (.unknownCommand (Key.normalize name))

/-- A thing that is looked up is one of those that are there. -/
theorem mem_of_lookup {r : Registry α} {name : String} {a : α} (h : r.lookup name = .ok a) :
    ∃ key, (key, a) ∈ r.index.pairs := by
  unfold lookup at h
  split at h
  next found hf =>
    obtain rfl := Except.ok.inj h
    obtain ⟨before, after, hp, -⟩ := List.lookup_eq_some_iff.1 hf
    exact ⟨_, hp ▸ List.mem_append_right before (List.mem_cons_self ..)⟩
  next => cases h

/-- A name without a thing is unknown. -/
theorem lookup_of_has_eq_false {r : Registry α} {name : String} (h : r.has name = false) :
    r.lookup name = .error (.unknownCommand (Key.normalize name)) := by
  have hnone : r.index.get? (Key.normalize name) = none :=
    Option.isNone_iff_eq_none.1 (Option.isSome_eq_false_iff.1 h)
  rw [lookup, hnone]

/-- What is there after a registration is the new thing or was there before. -/
theorem mem_register {r : Registry α} {name : String} {a : α} {p : String × α}
    (h : p ∈ (r.register name a).index.pairs) : p.2 = a ∨ p ∈ r.index.pairs := by
  rcases List.mem_cons.1 h with rfl | hp
  · exact .inl rfl
  · exact .inr (List.mem_filter.1 hp).1

/-- The names in canonical form, in ascending order. -/
def names (r : Registry α) : List String := r.index.names

/-- How many names there are. -/
def size (r : Registry α) : Nat := r.index.size

/-- Whether there are no names. -/
def isEmpty (r : Registry α) : Bool := r.index.isEmpty

end Registry

end Cuelist
