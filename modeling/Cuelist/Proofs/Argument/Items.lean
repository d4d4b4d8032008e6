/-
  Arguments are read exactly, and lists are read back.

  `Row pieces items` says which items stand in texts with bars between them, without a word on
  how they are cut and trimmed: an item may have blanks around it, and a text of blanks alone,
  the empty one among them, has no item.

  * `Argument.list_eq_iff`: the list of an argument is the items of a row that spells its value;
  * `Argument.items_read_back`: what every text is read as, with a label and without one, and
    that items are read as they were written behind a label.  Items that are only joined by bars
    are read back iff each of them `IsItem`; such items are also read if blanks stand around the
    bars and empty texts between them.
-/
import Cuelist.Proofs.Argument
import Cuelist.Proofs.Text.Pieces

namespace Cuelist.Argument

/-! ## Rows -/

/-- Whether a text can be an item of a list: it has no bar, is not empty, and does not start or
    end with a blank. -/
structure IsItem (item : List Char) : Prop where
  nonempty : item ≠ []
  bar : '|' ∉ item
  trimmed : Text.trim item = item

instance (item : List Char) : Decidable (IsItem item) :=
  decidable_of_iff (item ≠ [] ∧ '|' ∉ item ∧ Text.trim item = item)
    ⟨fun h => ⟨h.1, h.2.1, h.2.2⟩, fun h => ⟨h.1, h.2, h.3⟩⟩

/-- The texts between the bars of a list, and the items that stand in them. -/
inductive Row : (pieces items : List String) → Prop
  | nil : Row [] []
  | gap {gap : String} {pieces items : List String} (hg : Text.Blanks gap.toList)
      (h : Row pieces items) : Row (gap :: pieces) items
  | item {before item after : String} {pieces items : List String}
      (hb : Text.Blanks before.toList) (hi : IsItem item.toList) (ha : Text.Blanks after.toList)
      (h : Row pieces items) : Row ((before ++ item ++ after) :: pieces) (item :: items)

section
variable {pieces items : List String}

/-- Items are a row of themselves. -/
theorem row_self (h : ∀ item ∈ items, IsItem item.toList) : Row items items := by
  induction items with
  | nil => exact .nil
  | cons item items ih =>
    have hrest : Row items items := ih fun other hm => h other (List.mem_cons_of_mem _ hm)
    have hrow : Row (("" ++ item ++ "") :: items) (item :: items) :=
      .item Text.blanks_nil (h item List.mem_cons_self) Text.blanks_nil hrest
    rwa [String.append_empty, String.empty_append] at hrow

theorem Row.isItem (h : Row pieces items) : ∀ item ∈ items, IsItem item.toList := by
  induction h with
  | nil => exact nofun
  | gap _ _ ih => exact ih
  | item _ hi _ _ ih => exact List.forall_mem_cons.2 ⟨hi, ih⟩

theorem bar_notMem_of_blanks {s : List Char} (h : Text.Blanks s) : '|' ∉ s := fun hm => by
  have hbar : Text.isBlank '|' = false := by decide
  rw [h _ hm] at hbar
  cases hbar

/-- No piece of a row has a bar. -/
theorem Row.bar (h : Row pieces items) : ∀ piece ∈ pieces, '|' ∉ piece.toList := by
  induction h with
  | nil => exact nofun
  | gap hg _ ih => exact List.forall_mem_cons.2 ⟨bar_notMem_of_blanks hg, ih⟩
  | item hb hi ha _ ih =>
    refine List.forall_mem_cons.2 ⟨?_, ih⟩
    simp [bar_notMem_of_blanks hb, hi.bar, bar_notMem_of_blanks ha]

end

/-! ## Items of a value -/

/-- The items in the pieces of a value. -/
def itemsIn (pieces : List (List Char)) : List String :=
  ((pieces.map Text.trim).filter (!·.isEmpty)).map String.ofList

theorem list_eq (a : Argument) : a.list = itemsIn (Text.splitOn '|' a.value.toList) := rfl

theorem itemsIn_cons_gap {piece : List Char} (h : Text.Blanks piece)
    (pieces : List (List Char)) : itemsIn (piece :: pieces) = itemsIn pieces := by
  simp [itemsIn, Text.trim_eq_nil.2 h]

theorem itemsIn_cons_item {piece : List Char} (h : Text.trim piece ≠ [])
    (pieces : List (List Char)) :
    itemsIn (piece :: pieces) = String.ofList (Text.trim piece) :: itemsIn pieces := by
  simp [itemsIn, h]

/-- What is read from the pieces of a row. -/
theorem Row.itemsIn_eq {pieces items : List String} (h : Row pieces items) :
    itemsIn (pieces.map String.toList) = items := by
  induction h with
  | nil => rfl
  | gap hg _ ih =>
    rw [List.map_cons, itemsIn_cons_gap hg, ih]
  | @item before item after pieces items hb hi ha _ ih =>
    have htrim : Text.trim (before ++ item ++ after).toList = item.toList := by
      rw [String.toList_append, String.toList_append, Text.trim_between hb ha, hi.trimmed]
    have hne : Text.trim (before ++ item ++ after).toList ≠ [] := by
      rw [htrim]
      exact hi.nonempty
    rw [List.map_cons, itemsIn_cons_item hne, htrim, String.ofList_toList, ih]

/-- What is left of a piece by trimming is an item, unless nothing is. -/
theorem isItem_trim {piece : List Char} (hbar : '|' ∉ piece) (hne : Text.trim piece ≠ []) :
    IsItem (Text.trim piece) where
  nonempty := hne
  bar hm := by
    obtain ⟨before, after, -, -, hpiece⟩ := Text.exists_blanks piece
    rw [hpiece] at hbar
    exact hbar (by simp [hm])
  trimmed := Text.trim_trim piece

/-- Texts without bars are a row of what is read from them. -/
theorem row_itemsIn {pieces : List (List Char)} (h : ∀ piece ∈ pieces, '|' ∉ piece) :
    Row (pieces.map String.ofList) (itemsIn pieces) := by
  induction pieces with
  | nil => exact .nil
  | cons piece pieces ih =>
    obtain ⟨hbar, hrest⟩ := List.forall_mem_cons.1 h
    have hrow : Row (pieces.map String.ofList) (itemsIn pieces) := ih hrest
    by_cases hnone : Text.trim piece = []
    · have hblanks : Text.Blanks piece := Text.trim_eq_nil.1 hnone
      rw [itemsIn_cons_gap hblanks]
      exact .gap (by rwa [String.toList_ofList]) hrow
    · obtain ⟨before, after, hb, ha, hpiece⟩ := Text.exists_blanks piece
      have hspelled : String.ofList piece =
          String.ofList before ++ String.ofList (Text.trim piece) ++ String.ofList after := by
        rw [← String.ofList_append, ← String.ofList_append, ← hpiece]
      rw [itemsIn_cons_item hnone, List.map_cons, hspelled]
      refine .item ?_ ?_ ?_ hrow
      · rwa [String.toList_ofList]
      · rw [String.toList_ofList]
        exact isItem_trim hbar hnone
      · rwa [String.toList_ofList]

theorem toList_bars (pieces : List String) :
    (Text.joinStrings "|" pieces).toList = Text.joinWith ['|'] (pieces.map String.toList) :=
  String.toList_ofList

/-- **Which items are read.**  They are those of a row, and the value is its pieces with bars
    between them. -/
theorem list_eq_iff {a : Argument} {items : List String} :
    a.list = items ↔ ∃ pieces, Row pieces items ∧ a.value = Text.joinStrings "|" pieces := by
  constructor
  · rintro rfl
    refine ⟨(Text.splitOn '|' a.value.toList).map String.ofList,
      row_itemsIn fun piece hm => Text.notMem_of_mem_splitOn hm, ?_⟩
    have hpieces : ((Text.splitOn '|' a.value.toList).map String.ofList).map String.toList =
        Text.splitOn '|' a.value.toList := by
      simp [Function.comp_def]
    rw [← String.toList_inj, toList_bars, hpieces, Text.joinWith_splitOn]
  · rintro ⟨pieces, hrow, hvalue⟩
    rw [list_eq, hvalue, toList_bars]
    by_cases hnone : pieces = []
    · -- No pieces write the empty text, which is cut into one empty piece.
      subst hnone
      cases hrow
      rfl
    · rw [Text.splitOn_joinWith (by simpa using hnone) (by simpa using hrow.bar),
        hrow.itemsIn_eq]

/-! ## Reading back -/

/-- **Arguments are read exactly, and lists are read back.**  The text of an argument is kept.
    If there is a label before the first colon, then this label in lower case and all behind the
    colon are its parts; otherwise it has no label, and its value is the text.

    Items that are written behind a label, with bars between them, are read back in their order
    iff all of them can be items.  They are also read back if there are blanks around the bars and
    if texts without an item, empty or of blanks, stand among them. -/
theorem items_read_back :
    (∀ raw : String,
      let a := parse raw
      a.raw = raw ∧
      (a.hasLabel = true ↔
        ∃ label value : String, IsLabel label.toList ∧ raw = label ++ ":" ++ value) ∧
      (∀ label value : String, IsLabel label.toList → raw = label ++ ":" ++ value →
        a.label = some (String.ofList (Text.lower label.toList)) ∧ a.value = value) ∧
      (a.hasLabel = false → a.label = none ∧ a.value = raw)) ∧
    ∀ label : String, IsLabel label.toList → ∀ items : List String,
      ((parse (label ++ ":" ++ Text.joinStrings "|" items)).list = items ↔
        ∀ item ∈ items, IsItem item.toList) ∧
      ∀ pieces : List String, Row pieces items →
        (parse (label ++ ":" ++ Text.joinStrings "|" pieces)).list = items := by
  constructor
  · intro raw a
    refine ⟨raw_parse raw, hasLabel_parse, fun label value hlabel hraw => ?_, fun hnone => ?_⟩
    · have hparse := parse_labelled hlabel value
      rw [← hraw] at hparse
      exact ⟨congrArg Argument.label hparse, congrArg Argument.value hparse⟩
    · have hparse : parse raw = ⟨raw, none, raw⟩ := parse_bare hnone
      exact ⟨congrArg Argument.label hparse, congrArg Argument.value hparse⟩
  · intro label hlabel items
    have hvalue : ∀ pieces : List String,
        (parse (label ++ ":" ++ Text.joinStrings "|" pieces)).value =
          Text.joinStrings "|" pieces := fun pieces => by
      rw [parse_labelled hlabel]
    refine ⟨⟨fun hlist => ?_, fun hitems => ?_⟩, fun pieces hrow => ?_⟩
    · obtain ⟨pieces, hrow, -⟩ := list_eq_iff.1 hlist
      exact hrow.isItem
    · exact list_eq_iff.2 ⟨items, row_self hitems, hvalue items⟩
    · exact list_eq_iff.2 ⟨pieces, hrow, hvalue pieces⟩

/-- Items with colons and blanks in them, and wide blanks around the bars. -/
theorem items_read_back_gate :
    let pieces := [" " ++ "10:00" ++ "", "", "" ++ "the gate  opens" ++ "\u3000", "\t"]
    let items := ["10:00", "the gate  opens"]
    IsLabel "Notes".toList ∧ Row pieces items ∧ (∀ item ∈ items, IsItem item.toList) ∧
      Text.joinStrings "|" pieces = " 10:00||the gate  opens\u3000|\t" ∧
      (parse ("Notes" ++ ":" ++ Text.joinStrings "|" pieces)).list = items ∧
      (parse ("Notes" ++ ":" ++ Text.joinStrings "|" items)).list = items := by
  intro pieces items
  have hlabel : IsLabel "Notes".toList := by decide
  have hitems : ∀ item ∈ items, IsItem item.toList := by decide
  have hrow : Row pieces items :=
    .item (by decide) (by decide) (by decide) (.gap (by decide)
      (.item (by decide) (by decide) (by decide) (.gap (by decide) .nil)))
  have hread := items_read_back.2 "Notes" hlabel items
  exact ⟨hlabel, hrow, hitems, by decide, hread.2 pieces hrow, hread.1.2 hitems⟩

end Cuelist.Argument
