/-
  Pieces of texts, and the blanks around them.

  `splitOn` and `joinWith` are the library's functions on lists (`splitOn_eq`, `joinWith_eq`), so
  one undoes the other: what is cut at a character and joined by it is the text again
  (`joinWith_splitOn`), and pieces without the character are found again (`splitOn_joinWith`).

  A text is what trimming leaves of it with blanks on both sides (`exists_blanks`), and blanks on
  both sides do not change what is left (`trim_between`).
-/
import Cuelist.Text.Blank
import Cuelist.Text.Split
import Mathlib.Data.List.TakeWhile

namespace Cuelist.Text

/-! ## Pieces -/

theorem splitOn_eq (c : Char) (s : List Char) : splitOn c s = s.splitOn c := by
  induction s with
  | nil => rfl
  | cons d rest ih =>
    rw [splitOn, ih, List.splitOn_cons_eq_if_modifyHead]
    split
    next hd => simp [hd]
    next hd =>
      cases hrest : rest.splitOn c with
      | nil => exact absurd hrest (List.splitOn_ne_nil c rest)
      | cons piece pieces => simp [hd]

theorem joinWith_eq (sep : List Char) (pieces : List (List Char)) :
    joinWith sep pieces = sep.intercalate pieces := by
  fun_induction joinWith sep pieces with
  | case1 => rfl
  | case2 piece => rw [List.intercalate_singleton]
  | case3 piece pieces hmore ih =>
    have hne : pieces ≠ [] := hmore
    rw [ih, List.intercalate_cons_of_ne_nil hne]

/-- A text is its pieces with the character between them. -/
theorem joinWith_splitOn (c : Char) (s : List Char) : joinWith [c] (splitOn c s) = s := by
  rw [splitOn_eq, joinWith_eq, List.intercalate_splitOn]

/-- Pieces without the character are found again, if there is one at all. -/
theorem splitOn_joinWith {c : Char} {pieces : List (List Char)} (hne : pieces ≠ [])
    (h : ∀ piece ∈ pieces, c ∉ piece) : splitOn c (joinWith [c] pieces) = pieces := by
  rw [splitOn_eq, joinWith_eq, List.splitOn_intercalate c h hne]

/-- No piece has the character. -/
theorem notMem_of_mem_splitOn {c : Char} {s piece : List Char} (h : piece ∈ splitOn c s) :
    c ∉ piece := by
  fun_induction splitOn c s generalizing piece with
  | case1 =>
    rw [List.mem_singleton.1 h]
    exact List.not_mem_nil
  | case2 rest ih =>
    rcases List.mem_cons.1 h with rfl | h
    · exact List.not_mem_nil
    · exact ih h
  | case3 d rest hd first pieces hsplit ih =>
    rcases List.mem_cons.1 h with rfl | h
    · have hfirst : c ∉ first := ih (by simp [hsplit])
      simp [hfirst, Ne.symm hd]
    · exact ih (by simp [hsplit, h])
  | case4 d rest hd hsplit ih =>
    rw [List.mem_singleton.1 h]
    simp [Ne.symm hd]

/-! ## Blanks -/

/-- Whether a text consists of blanks; it may be empty. -/
def Blanks (s : List Char) : Prop := ∀ c ∈ s, isBlank c = true

instance (s : List Char) : Decidable (Blanks s) :=
  decidable_of_iff (s.all isBlank = true) List.all_eq_true

theorem blanks_nil : Blanks [] := nofun

theorem trimEnd_append {after : List Char} (ha : Blanks after) (s : List Char) :
    trimEnd (s ++ after) = trimEnd s := by
  have hreverse : ∀ c ∈ after.reverse, isBlank c = true := fun c hc =>
    ha c (List.mem_reverse.1 hc)
  rw [trimEnd, trimEnd, List.reverse_append, List.dropWhile_append_of_pos hreverse]

/-- **Blanks at its ends do not change what trimming leaves of a text.** -/
theorem trim_between {before after : List Char} (hb : Blanks before) (ha : Blanks after)
    (s : List Char) : trim (before ++ s ++ after) = trim s := by
  have hstart : trimStart (before ++ s ++ after) = trimStart (s ++ after) := by
    rw [trimStart, trimStart, List.append_assoc, List.dropWhile_append_of_pos hb]
  rw [trim, trim, hstart, trimStart, trimStart, List.dropWhile_append]
  split
  next hnone =>
    -- The text is blank too, and nothing is left on either side.
    rw [List.isEmpty_iff.1 hnone, List.dropWhile_eq_nil_iff.2 ha]
  next => exact trimEnd_append ha _

/-- **Trimming takes away blanks at the two ends and nothing else.** -/
theorem exists_blanks (s : List Char) :
    ∃ before after, Blanks before ∧ Blanks after ∧ s = before ++ trim s ++ after := by
  have hstart : s.takeWhile isBlank ++ trimStart s = s := List.takeWhile_append_dropWhile
  have hend : trim s ++ ((trimStart s).reverse.takeWhile isBlank).reverse = trimStart s := by
    rw [trim, trimEnd, ← List.reverse_append, List.takeWhile_append_dropWhile,
      List.reverse_reverse]
  refine ⟨s.takeWhile isBlank, ((trimStart s).reverse.takeWhile isBlank).reverse, ?_, ?_, ?_⟩
  · exact fun c hc => List.mem_takeWhile_imp hc
  · exact fun c hc => List.mem_takeWhile_imp (List.mem_reverse.1 hc)
  · rw [List.append_assoc, hend, hstart]

/-- Nothing is left of blanks, and only of them. -/
theorem trim_eq_nil {s : List Char} : trim s = [] ↔ Blanks s := by
  constructor
  · intro hnone
    obtain ⟨before, after, hb, ha, hs⟩ := exists_blanks s
    rw [hs, hnone, List.append_nil]
    exact List.forall_mem_append.2 ⟨hb, ha⟩
  · intro h
    have hempty : trim (s ++ [] ++ []) = trim [] := trim_between h blanks_nil []
    rwa [List.append_nil, List.append_nil] at hempty

theorem trim_trim (s : List Char) : trim (trim s) = trim s := by
  obtain ⟨before, after, hb, ha, hs⟩ := exists_blanks s
  calc trim (trim s) = trim (before ++ trim s ++ after) := (trim_between hb ha (trim s)).symm
    _ = trim s := by rw [← hs]

end Cuelist.Text
