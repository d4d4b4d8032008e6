/-
  Filters of reports and the names of scripts.

  A filter names a script, and so does a text that is looked up in a library; both may have the
  mark of scripts in front.  The library compares names by the full upper case, the filter without
  regard to the case of ASCII letters.

  * `Script.Made`: whether a constructor made a script; then it is named canonically.
  * `Entry.passesFilter_iff`: a filter names the script of an entry iff it has the name in its
    canonical form and is in upper case beyond ASCII.
  * `filters_and_lookup`: hence a filter that names a script finds it, and a text that finds it
    names it as far as it is in upper case beyond ASCII; and what is shown of its entries.
  * `filter_misses_accent`: a script that the spelling of its own name does not filter.
-/
import Cuelist.Proofs.Names
import Cuelist.Proofs.Text.Ascii
import Cuelist.Report

namespace Cuelist

variable {e : Entry} {s : Script}

/-- Whether a constructor made the script, with its reports turned on or off since. -/
def Script.Made (s : Script) : Prop :=
  ∃ name debug, s = (Script.task name).withDebug debug ∨
    ∃ template, s = (Script.format name template).withDebug debug

theorem Script.Made.canonical (h : s.Made) : Key.Canonical s.name := by
  obtain ⟨name, debug, rfl | ⟨template, rfl⟩⟩ := h
  · exact Script.canonical_task name debug
  · exact Script.canonical_format name template debug

/-- What a library of one script finds. -/
theorem Library.get?_single (s : Script) (name : String) :
    (Library.insert {} s).get? name = some s ↔ Key.normalize (Script.unmarked name) = s.name := by
  rw [get?_insert]
  split
  next h => exact iff_of_true rfl h
  next h => exact iff_of_false (fun hget => nomatch hget) h

/-- **Which filters name a script** that is named canonically. -/
theorem Entry.passesFilter_iff (he : e.script = some s) (hs : Key.Canonical s.name)
    (filter : String) :
    e.passesFilter filter = true ↔
      Key.normalize (Script.unmarked filter) = s.name ∧
        Text.UpperBeyondAscii (Script.unmarked filter).toList := by
  have hupper : Text.upper s.name.toList = s.name.toList := by
    have := congrArg String.toList hs
    rwa [Key.normalize, String.toList_ofList] at this
  have hname : Key.normalize (Script.unmarked filter) = s.name ↔
      Text.upper (Script.unmarked filter).toList = s.name.toList := by
    rw [Key.normalize, ← String.toList_inj, String.toList_ofList]
  simp only [passesFilter, he]
  rw [Text.sameIgnoringAsciiCase_iff hupper, hname]

/-- **Filters find what they name, and name what they find in upper case beyond ASCII.**  For a
    script that a constructor made: a library that holds only the script finds it under the texts
    that, without the mark of scripts, have the canonical form of its name.  A filter names the
    script iff it finds it and all its characters beyond ASCII are in upper case already.  What is
    reported of the entries of the script follows from this. -/
theorem filters_and_lookup (hs : s.Made) (he : e.script = some s) :
    let found (text : String) := (Library.insert {} s).get? text = some s
    let settled (text : String) := Text.UpperBeyondAscii (Script.unmarked text).toList
    (∀ text, found text ↔ Key.normalize (Script.unmarked text) = s.name) ∧
    (∀ filter, e.passesFilter filter = true ↔ found filter ∧ settled filter) ∧
    ∀ filters, Reporter.admits true filters e = true ↔
      s.debug = true ∧ (filters = [] ∨ ∃ filter ∈ filters, found filter ∧ settled filter) := by
  intro found settled
  have hfound : ∀ text, found text ↔ Key.normalize (Script.unmarked text) = s.name :=
    Library.get?_single s
  have hpasses : ∀ filter, e.passesFilter filter = true ↔ found filter ∧ settled filter := by
    intro filter
    rw [hfound]
    exact Entry.passesFilter_iff he hs.canonical filter
  refine ⟨hfound, hpasses, ?_⟩
  intro filters
  simp only [Reporter.admits, Entry.shouldDebug, he, Bool.true_and, Bool.and_eq_true,
    Bool.or_eq_true, List.isEmpty_iff, List.any_eq_true, hpasses]

/-- A script whose name is longer in its canonical form. -/
theorem filters_and_lookup_street :
    let s := (Script.task "Straße").withDebug true
    let e := Entry.make ⟨0⟩ .normal "NARRATE" ["hello"] (some s)
    e.passesFilter "s@strasse" = true ∧ e.passesFilter "Straße" = false ∧
      Reporter.admits true ["other", "STRASSE"] e = true := by
  intro s e
  have hs : s.Made := ⟨"Straße", true, .inl rfl⟩
  obtain ⟨hfound, hpasses, hadmits⟩ := filters_and_lookup (e := e) hs rfl
  refine ⟨(hpasses _).2 ⟨(hfound _).2 (by decide), by decide⟩, ?_, ?_⟩
  · rw [← Bool.not_eq_true, hpasses]
    exact fun h => absurd h.2 (by decide)
  · refine (hadmits _).2 ⟨rfl, .inr ⟨"STRASSE", by simp, ?_⟩⟩
    exact ⟨(hfound _).2 (by decide), by decide⟩

/-- A script that is found under the spelling of its name, and under the one with the mark, but
    that neither of them filters. -/
theorem filter_misses_accent :
    let s := Script.task "café"
    let e := Entry.make ⟨0⟩ .normal "NARRATE" ["hello"] (some s)
    ∀ text ∈ ["café", "s@café"], Key.normalize (Script.unmarked text) = s.name ∧
      (Library.insert {} s).get? text = some s ∧ e.passesFilter text = false ∧
        Reporter.admits true [text] e = false := by
  decide

end Cuelist
