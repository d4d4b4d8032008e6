/-
  Labels of arguments and the names that are declared for them.

  A label is put into lower case by the full mapping, and then compared with the declared names
  without regard to the case of ASCII letters.

  * `Argument.parse_labelled`, `Argument.parse_bare`: what an argument is read as with a label and
    without one; `Argument.hasLabel_parse` says which arguments have one.
  * `Argument.labelIn_parse`: the spelling of a label does not count, only its lower case does.  A
    label is among the names iff one of them has this lower case as its lower case of ASCII.
  * `Argument.label_in_any_case`: hence a declared name is matched by all of its spellings if it is
    in lower case beyond ASCII.  If it is not, then none of them matches it, its own included
    (`Argument.capital_not_matched`).
-/
import Cuelist.Argument
import Cuelist.Proofs.Text.Ascii

namespace Cuelist.Argument

/-! ## Names -/

/-- The names of a list of labels. -/
def names (list : String) : List (List Char) :=
  (Text.splitOn ',' list.toList).map Text.trim

/-- The names of a list of labels, in lower case. -/
def lowerNames (names : String) : List (List Char) :=
  (Text.splitOn ',' names.toList).map fun name => Text.asciiLower (Text.trim name)

theorem lowerNames_eq (list : String) : lowerNames list = (names list).map Text.asciiLower :=
  (List.map_map ..).symm

theorem labelIn_iff {a : Argument} {names : String} : a.labelIn names = true ↔
    ∃ label, a.label = some label ∧ Text.asciiLower label.toList ∈ lowerNames names := by
  unfold labelIn
  cases a.label with
  | none => simp
  | some label => simp [lowerNames, Text.sameIgnoringAsciiCase]

/-! ## Labels -/

/-- Whether a text can be a label: it has no colon and no blank, and is not empty. -/
structure IsLabel (label : List Char) : Prop where
  nonempty : label ≠ []
  colon : ':' ∉ label
  blank : ∀ c ∈ label, Text.isBlank c = false

instance (label : List Char) : Decidable (IsLabel label) :=
  decidable_of_iff (label ≠ [] ∧ ':' ∉ label ∧ label.any Text.isBlank = false)
    ⟨fun h => ⟨h.1, h.2.1, by simpa using h.2.2⟩, fun h => ⟨h.1, h.2, by simpa using h.3⟩⟩

/-- Texts with the same lower case can be labels alike. -/
theorem IsLabel.of_lower_eq {s t : List Char} (h : IsLabel s)
    (hcase : Text.lower t = Text.lower s) :
    IsLabel t where
  nonempty := by
    rintro rfl
    exact h.nonempty (Text.lower_eq_nil.1 hcase.symm)
  colon hmem := by
    have hmark : Text.isMark ':' = true := by decide
    have hlower := (Text.mem_lower_iff hmark).2 hmem
    rw [hcase] at hlower
    exact h.colon ((Text.mem_lower_iff hmark).1 hlower)
  blank c hmem := by
    cases hblank : Text.isBlank c with
    | false => rfl
    | true =>
      have hmark := Text.isMark_of_isBlank hblank
      have hlower := (Text.mem_lower_iff hmark).2 hmem
      rw [hcase] at hlower
      rw [← h.blank c ((Text.mem_lower_iff hmark).1 hlower), hblank]

/-- An argument that is spelled with a label. -/
theorem parse_labelled {label : String} (h : IsLabel label.toList) (value : String) :
    parse (label ++ ":" ++ value) =
      ⟨label ++ ":" ++ value, some (String.ofList (Text.lower label.toList)), value⟩ := by
  have htext : (label ++ ":" ++ value).toList = label.toList ++ ':' :: value.toList := by simp
  have hempty : label.toList.isEmpty = false := List.isEmpty_eq_false_iff.2 h.nonempty
  have hblank : label.toList.any Text.isBlank = false := by
    rw [List.any_eq_false]
    intro c hc
    simp [h.blank c hc]
  rw [parse, htext, Text.cut_append h.colon]
  simp [hempty, hblank]

/-- An argument without a label. -/
theorem parse_bare {raw : String} (h : (parse raw).hasLabel = false) :
    parse raw = ⟨raw, none, raw⟩ := by
  revert h
  unfold parse
  split
  next =>
    split
    next => exact fun _ => rfl
    next => exact nofun
  next => exact fun _ => rfl

/-- What stands before the colon is a label, if the argument has one. -/
theorem exists_label {raw : String} (h : (parse raw).hasLabel = true) :
    ∃ label value : String, IsLabel label.toList ∧ raw = label ++ ":" ++ value := by
  unfold parse at h
  split at h
  next label value hcut =>
    split at h
    next => cases h
    next hlabel =>
      simp only [Bool.or_eq_true, List.isEmpty_iff, List.any_eq_true, not_or, not_exists,
        not_and, Bool.not_eq_true] at hlabel
      refine ⟨String.ofList label, String.ofList value, ?_, ?_⟩
      · rw [String.toList_ofList]
        exact ⟨hlabel.1, Text.notMem_of_cut hcut, hlabel.2⟩
      · rw [← String.toList_inj, Text.eq_of_cut hcut]
        simp
  next => cases h

/-- Which arguments have a label. -/
theorem hasLabel_parse {raw : String} : (parse raw).hasLabel = true ↔
    ∃ label value : String, IsLabel label.toList ∧ raw = label ++ ":" ++ value := by
  constructor
  · exact exists_label
  · rintro ⟨label, value, hlabel, rfl⟩
    rw [parse_labelled hlabel]
    rfl

theorem raw_parse (raw : String) : (parse raw).raw = raw := by
  cases hhas : (parse raw).hasLabel with
  | false => rw [parse_bare hhas]
  | true =>
    obtain ⟨label, value, hlabel, rfl⟩ := exists_label hhas
    rw [parse_labelled hlabel]

/-- The label of an argument that is spelled with one. -/
theorem label_parse {label : String} (h : IsLabel label.toList) (value : String) :
    (parse (label ++ ":" ++ value)).label = some (String.ofList (Text.lower label.toList)) := by
  rw [parse_labelled h]

section
variable {name spelling : String}

/-- **Which names a label is among.**  Of its spelling only the lower case counts. -/
theorem labelIn_parse (h : IsLabel name.toList)
    (hcase : Text.lower spelling.toList = Text.lower name.toList) (list value : String) :
    (parse (spelling ++ ":" ++ value)).labelIn list = true ↔
      ∃ declared ∈ names list, Text.asciiLower declared = Text.lower name.toList := by
  rw [labelIn_iff, label_parse (h.of_lower_eq hcase), hcase, lowerNames_eq]
  simp only [Option.some.injEq, exists_eq_left', String.toList_ofList, Text.asciiLower_lower,
    List.mem_map]

/-- **Declared names are matched in any case, if they are in lower case beyond ASCII.**  An
    argument whose label is a spelling of a name is taken for one with a label of the list iff a
    name of the list has, with its ASCII capitals made small, the lower case of the name.  So it
    is if the list has the name and the name is in lower case beyond ASCII; and if the list has no
    other name, then only so. -/
theorem label_in_any_case (h : IsLabel name.toList)
    (hcase : Text.lower spelling.toList = Text.lower name.toList) (list value : String) :
    let a := parse (spelling ++ ":" ++ value)
    (a.labelIn list = true ↔
      ∃ declared ∈ names list, Text.asciiLower declared = Text.lower name.toList) ∧
    (name.toList ∈ names list → Text.LowerBeyondAscii name.toList → a.labelIn list = true) ∧
    (names list = [name.toList] →
      (a.labelIn list = true ↔ Text.LowerBeyondAscii name.toList)) := by
  intro a
  have hmatch : a.labelIn list = true ↔
      ∃ declared ∈ names list, Text.asciiLower declared = Text.lower name.toList :=
    labelIn_parse h hcase list value
  refine ⟨hmatch, ?_, ?_⟩
  · intro hdeclared hlower
    exact hmatch.2 ⟨name.toList, hdeclared, ((Text.lower_eq_asciiLower_iff _).2 hlower).symm⟩
  · intro halone
    rw [hmatch, halone, ← Text.lower_eq_asciiLower_iff]
    simp [eq_comm]

end

/-- A name with an umlaut, which is spelled with a capital one. -/
theorem label_in_any_case_umlaut :
    (parse ("Für" ++ ":" ++ "steve|alex")).labelIn "to, für" = true ∧
      (parse ("FÜR" ++ ":" ++ "a: b")).labelIn "für" = true := by
  have hlabel : IsLabel "für".toList := by decide
  have hlower : Text.LowerBeyondAscii "für".toList := by decide
  constructor
  · exact (label_in_any_case hlabel (by decide) "to, für" "steve|alex").2.1
      (by decide) hlower
  · exact ((label_in_any_case hlabel (by decide) "für" "a: b").2.2
      (by decide)).2 hlower

/-- A name with a capital umlaut is not matched, as it is spelled or otherwise. -/
theorem capital_not_matched :
    let name := "ÜBER"
    IsLabel name.toList ∧ ',' ∉ name.toList ∧ name.toList ∈ names name ∧
      Text.lower "über".toList = Text.lower name.toList ∧
      (parse (name ++ ":" ++ "steve")).labelIn name = false ∧
        (parse ("über" ++ ":" ++ "steve")).labelIn name = false := by
  decide

end Cuelist.Argument
