/-
  What a history leaves under a name.

  * `Since sets ends acts`: some act of a history sets a thing, and none after it ends that.
    `since_nil` and `since_concat` say what one more act makes of this.
  * `Index.Distinct`: an index has one value for a name; this is kept by all changes.
  * `Index.mem_names`, `Index.names_ascending`, `Index.length_names`: then the list of the names
    is strictly ascending, and has the names with a value, each once.
-/
import Mathlib.Data.List.Nodup
import Cuelist.Key

namespace Cuelist

/-! ## Histories -/

section
variable {α : Type} {sets ends : α → Prop}

/-- Whether a thing was set in a history, and nothing since then ended that. -/
def Since (sets ends : α → Prop) (acts : List α) : Prop :=
  ∃ before a after, acts = before ++ a :: after ∧ sets a ∧ ∀ b ∈ after, ¬ends b

theorem since_nil : ¬Since sets ends [] := by
  rintro ⟨before, a, after, hnil, -⟩
  simp at hnil

/-- After one more act, a thing is set if the act sets it, or if it was and the act does not
    end that. -/
theorem since_concat {acts : List α} {a : α} :
    Since sets ends (acts ++ [a]) ↔ sets a ∨ ¬ends a ∧ Since sets ends acts := by
  constructor
  · rintro ⟨before, b, after, hacts, hb, hafter⟩
    rcases List.eq_nil_or_concat after with rfl | ⟨after, b', rfl⟩
    · obtain ⟨-, hlast⟩ := List.append_inj' hacts rfl
      obtain rfl := List.singleton_inj.1 hlast
      exact .inl hb
    · rw [List.concat_eq_append, ← List.cons_append, ← List.append_assoc] at hacts
      obtain ⟨rfl, hlast⟩ := List.append_inj' hacts rfl
      obtain rfl := List.singleton_inj.1 hlast
      rw [List.concat_eq_append] at hafter
      exact .inr ⟨hafter a (by simp), before, b, after, rfl, hb,
        fun b' hb' => hafter b' (List.mem_append_left _ hb')⟩
  · rintro (ha | ⟨ha, before, b, after, rfl, hb, hafter⟩)
    · exact ⟨acts, a, [], rfl, ha, fun _ h => nomatch h⟩
    · refine ⟨before, b, after ++ [a], by simp, hb, fun b' hb' => ?_⟩
      rcases List.mem_append.1 hb' with hb' | hb'
      · exact hafter b' hb'
      · rwa [List.mem_singleton.1 hb']

end

/-! ## Names of an index -/

namespace Index
variable {α : Type} {x : Index α} {name : String}

/-- Whether an index has one value for a name. -/
def Distinct (x : Index α) : Prop :=
  (x.pairs.map Prod.fst).Nodup

theorem distinct_empty : (empty : Index α).Distinct := .nil

theorem Distinct.erase (h : x.Distinct) (name : String) : (x.erase name).Distinct :=
  h.sublist (List.filter_sublist.map _)

theorem Distinct.insert (h : x.Distinct) (name : String) (a : α) : (x.insert name a).Distinct := by
  refine List.nodup_cons.2 ⟨fun hmem => ?_, h.erase name⟩
  obtain ⟨p, hp, hname⟩ := List.mem_map.1 hmem
  simpa [hname] using (List.mem_filter.1 hp).2

/-- **The listed names are those that have a value.** -/
theorem mem_names : name ∈ x.names ↔ (x.get? name).isSome = true := by
  rw [names, List.mem_mergeSort, get?]
  induction x.pairs with
  | nil => simp
  | cons p ps ih =>
    obtain ⟨n, a⟩ := p
    rw [List.map_cons, List.mem_cons, ih]
    by_cases h : name = n
    · simp [h]
    · rw [lookup_cons_ne a ps h]
      simp [h]

/-- **The listed names are strictly ascending.** -/
theorem Distinct.names_ascending (h : x.Distinct) : x.names.Pairwise (· < ·) := by
  let le (a b : String) : Bool := !decide (b < a)
  have hle : ∀ a b, le a b = true ↔ a ≤ b := by
    simp only [le, Bool.not_eq_true', decide_eq_false_iff_not, String.not_lt, implies_true]
  have htrans : ∀ a b c, le a b = true → le b c = true → le a c = true := by
    simp only [hle]
    exact fun _ _ _ => String.le_trans
  have htotal : ∀ a b, (le a b || le b a) = true := by
    simp only [Bool.or_eq_true, hle]
    exact String.le_total
  have hsorted : x.names.Pairwise fun a b => le a b = true :=
    List.pairwise_mergeSort htrans htotal _
  have hnodup : x.names.Nodup := (List.mergeSort_perm _ _).nodup_iff.2 h
  refine hsorted.imp₂ (fun a b hab hne => ?_) hnodup
  exact String.not_le.1 fun hge => hne (String.le_antisymm ((hle a b).1 hab) hge)

theorem length_names (x : Index α) : x.names.length = x.size := by
  rw [names, List.length_mergeSort, List.length_map, size]

end Index

end Cuelist
