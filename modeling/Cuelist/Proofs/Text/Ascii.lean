/-
  The case of ASCII letters and the case of all letters.

  Two comparisons of texts meet here: one that knows the case of the ASCII letters only, and one
  by the full mappings.  They agree on texts whose other characters are in the case of the full
  mapping already (`UpperBeyondAscii`, `LowerBeyondAscii`).

  * `sameIgnoringAsciiCase_iff`: a text in upper case is the same as another one but for the case
    of ASCII letters iff it is the upper case of the other one, which is in upper case beyond
    ASCII.
  * `lower_eq_asciiLower_iff`: a text has the lower case of ASCII for its lower case iff it is in
    lower case beyond ASCII.
  * `asciiLower_lower`: a text in lower case has no ASCII capitals.
  * `mem_lower_iff`: blanks and colons stay where they are, and no letter becomes one.
-/
import Cuelist.Proofs.Text.Case
import Cuelist.Text.Blank

namespace Cuelist.Text

/-! ## ASCII -/

theorem toNat_asciiLowerChar (c : Char) : (asciiLowerChar c).toNat =
    if 65 ≤ c.toNat ∧ c.toNat ≤ 90 then c.toNat + 32 else c.toNat := by
  unfold asciiLowerChar
  by_cases h : 'A' ≤ c ∧ c ≤ 'Z'
  · have hcapital : 65 ≤ c.toNat ∧ c.toNat ≤ 90 := h
    rw [if_pos h, if_pos hcapital]
    exact toNat_ofNat (.inl (by omega))
  · have hcapital : ¬(65 ≤ c.toNat ∧ c.toNat ≤ 90) := h
    rw [if_neg h, if_neg hcapital]

theorem toNat_asciiUpperChar (c : Char) : (asciiUpperChar c).toNat =
    if 97 ≤ c.toNat ∧ c.toNat ≤ 122 then c.toNat - 32 else c.toNat := by
  unfold asciiUpperChar
  by_cases h : 'a' ≤ c ∧ c ≤ 'z'
  · have hsmall : 97 ≤ c.toNat ∧ c.toNat ≤ 122 := h
    rw [if_pos h, if_pos hsmall]
    exact toNat_ofNat (.inl (by omega))
  · have hsmall : ¬(97 ≤ c.toNat ∧ c.toNat ≤ 122) := h
    rw [if_neg h, if_neg hsmall]

theorem asciiLowerChar_of_not_capital {c : Char} (h : ¬(65 ≤ c.toNat ∧ c.toNat ≤ 90)) :
    asciiLowerChar c = c :=
  if_neg h

theorem asciiLowerChar_of_beyond {c : Char} (hc : ¬c.toNat < 128) : asciiLowerChar c = c :=
  asciiLowerChar_of_not_capital (by omega)

theorem asciiLowerChar_ascii {c : Char} (hc : c.toNat < 128) : (asciiLowerChar c).toNat < 128 := by
  rw [toNat_asciiLowerChar]
  split <;> omega

theorem asciiUpperChar_asciiLowerChar (c : Char) :
    asciiUpperChar (asciiLowerChar c) = asciiUpperChar c := by
  rw [← Char.toNat_inj, toNat_asciiUpperChar, toNat_asciiUpperChar, toNat_asciiLowerChar]
  repeat' split
  all_goals omega

theorem asciiLowerChar_asciiUpperChar (c : Char) :
    asciiLowerChar (asciiUpperChar c) = asciiLowerChar c := by
  rw [← Char.toNat_inj, toNat_asciiLowerChar, toNat_asciiLowerChar, toNat_asciiUpperChar]
  repeat' split
  all_goals omega

/-- Only ASCII letters have one as their lower case. -/
theorem eq_of_asciiLowerChar {c d : Char} (h : asciiLowerChar d = c) (hc : ¬c.toNat < 128) :
    d = c := by
  by_cases hd : d.toNat < 128
  · exact absurd (asciiLowerChar_ascii hd) (h ▸ hc)
  · rw [← h, asciiLowerChar_of_beyond hd]

/-! ## Upper case -/

/-- Whether all characters beyond ASCII are in upper case. -/
def UpperBeyondAscii (s : List Char) : Prop :=
  ∀ c ∈ s, c.toNat < 128 ∨ upperChar c = [c]

-- by name, as another instance would try all characters there are
instance (s : List Char) : Decidable (UpperBeyondAscii s) :=
  List.decidableBAll ..

theorem upperChar_asciiLowerChar (c : Char) : upperChar (asciiLowerChar c) = upperChar c := by
  by_cases hc : c.toNat < 128
  · rw [upperChar, upperChar, if_pos (asciiLowerChar_ascii hc), if_pos hc,
      asciiUpperChar_asciiLowerChar]
  · rw [asciiLowerChar_of_beyond hc]

/-- Making ASCII capitals small does not change the upper case. -/
theorem upper_asciiLower (s : List Char) : upper (asciiLower s) = upper s := by
  simp only [upper, asciiLower, List.flatMap_map, upperChar_asciiLowerChar]

theorem upper_eq_of_same {s t : List Char} (h : sameIgnoringAsciiCase s t = true) :
    upper s = upper t := by
  rw [← upper_asciiLower s, ← upper_asciiLower t, beq_iff_eq.1 h]

theorem asciiLower_upperChar {c : Char} (h : c.toNat < 128 ∨ upperChar c = [c]) :
    asciiLower (upperChar c) = [asciiLowerChar c] := by
  rcases h with hc | hc
  · rw [upperChar, if_pos hc, asciiLower, List.map_singleton, asciiLowerChar_asciiUpperChar]
  · rw [hc]
    rfl

theorem asciiLower_upper {s : List Char} (h : UpperBeyondAscii s) :
    asciiLower (upper s) = asciiLower s := by
  induction s with
  | nil => rfl
  | cons c s ih =>
    obtain ⟨hc, hs⟩ := List.forall_mem_cons.1 h
    have hsplit : asciiLower (upper (c :: s)) = asciiLower (upperChar c) ++ asciiLower (upper s) :=
      List.map_append
    rw [hsplit, asciiLower_upperChar hc, ih hs]
    rfl

/-- **What is the same as a text in upper case**, but for the case of ASCII letters. -/
theorem sameIgnoringAsciiCase_iff {s t : List Char} (hs : upper s = s) :
    sameIgnoringAsciiCase s t = true ↔ upper t = s ∧ UpperBeyondAscii t := by
  constructor
  · intro hsame
    refine ⟨by rw [← upper_eq_of_same hsame, hs], fun c hc => ?_⟩
    by_cases hascii : c.toNat < 128
    · exact .inl hascii
    -- beyond ASCII the two texts have the same characters, and those of `s` are in upper case
    have hmem : c ∈ asciiLower s := by
      rw [beq_iff_eq.1 hsame, ← asciiLowerChar_of_beyond hascii]
      exact List.mem_map_of_mem hc
    obtain ⟨d, hd, hdc⟩ := List.mem_map.1 hmem
    rw [eq_of_asciiLowerChar hdc hascii, ← hs] at hd
    obtain ⟨b, -, hb⟩ := List.mem_flatMap.1 hd
    exact .inr (upperChar_of_upper (upper_of_mem_upperChar hb))
  · rintro ⟨rfl, ht⟩
    exact beq_iff_eq.2 (asciiLower_upper ht)

/-! ## Lower case -/

/-- Whether all characters beyond ASCII are in lower case. -/
def LowerBeyondAscii (s : List Char) : Prop :=
  ∀ c ∈ s, c.toNat < 128 ∨ lowerChar c = [c]

instance (s : List Char) : Decidable (LowerBeyondAscii s) :=
  List.decidableBAll ..

/-- The lower-case form of a character between two texts, the first of which is given in
    reverse. -/
def lowerBetween (before : List Char) (c : Char) (rest : List Char) : List Char :=
  if c = 'Σ' then [if meetsLetter before && !meetsLetter rest then 'ς' else 'σ'] else lowerChar c

theorem lowerChar_sigma : lowerChar 'Σ' = ['σ'] := by
  decide

theorem lowerAfter_cons (before : List Char) (c : Char) (rest : List Char) :
    lowerAfter before (c :: rest) = lowerBetween before c rest ++ lowerAfter (c :: before) rest :=
  rfl

/-- The neighbours of a character matter to a sigma only, which may be final. -/
theorem lowerBetween_cases (before : List Char) (c : Char) (rest : List Char) :
    lowerBetween before c rest = lowerChar c ∨ c = 'Σ' ∧ lowerBetween before c rest = ['ς'] := by
  unfold lowerBetween
  split
  next hc =>
    subst hc
    split
    · exact .inr ⟨rfl, rfl⟩
    · exact .inl lowerChar_sigma.symm
  next => exact .inl rfl

theorem lowerChar_ne_nil (c : Char) : lowerChar c ≠ [] := by
  unfold lowerChar
  split
  · exact List.cons_ne_nil _ _
  split
  · exact List.cons_ne_nil _ _
  split <;> exact List.cons_ne_nil _ _

theorem lowerBetween_ne_nil (before : List Char) (c : Char) (rest : List Char) :
    lowerBetween before c rest ≠ [] := by
  rcases lowerBetween_cases before c rest with h | ⟨-, h⟩
  · rw [h]
    exact lowerChar_ne_nil c
  · rw [h]
    exact List.cons_ne_nil _ _

/-- A character comes to its lower case of ASCII iff it is of ASCII or in lower case. -/
theorem lowerBetween_eq_iff (before : List Char) (c : Char) (rest : List Char) :
    lowerBetween before c rest = [asciiLowerChar c] ↔ c.toNat < 128 ∨ lowerChar c = [c] := by
  by_cases hc : c.toNat < 128
  · have hsigma : c ≠ 'Σ' := by
      rintro rfl
      exact absurd hc (by decide)
    simp [lowerBetween, lowerChar, hsigma, hc]
  · rw [asciiLowerChar_of_beyond hc]
    simp only [hc, false_or]
    rcases lowerBetween_cases before c rest with h | ⟨rfl, h⟩
    · rw [h]
    · rw [h, lowerChar_sigma]
      decide

theorem length_le_lowerAfter (before s : List Char) :
    s.length ≤ (lowerAfter before s).length := by
  induction s generalizing before with
  | nil => exact Nat.le_refl 0
  | cons c s ih =>
    have hpos := List.length_pos_iff.2 (lowerBetween_ne_nil before c s)
    have := ih (c :: before)
    rw [lowerAfter_cons, List.length_append, List.length_cons]
    omega

theorem lowerAfter_eq_asciiLower_iff (before s : List Char) :
    lowerAfter before s = asciiLower s ↔ LowerBeyondAscii s := by
  induction s generalizing before with
  | nil => exact iff_of_true rfl (fun _ h => nomatch h)
  | cons c s ih =>
    have hsplit : asciiLower (c :: s) = [asciiLowerChar c] ++ asciiLower s := rfl
    rw [LowerBeyondAscii, List.forall_mem_cons, ← LowerBeyondAscii, ← ih (c :: before),
      ← lowerBetween_eq_iff before c s, lowerAfter_cons, hsplit]
    constructor
    · intro h
      -- no part is empty, so each of them is one character long
      have hone : (lowerBetween before c s).length = [asciiLowerChar c].length := by
        have htotal := congrArg List.length h
        have hpos := List.length_pos_iff.2 (lowerBetween_ne_nil before c s)
        have hrest := length_le_lowerAfter (c :: before) s
        simp only [List.length_append, List.length_singleton, asciiLower, List.length_map] at *
        omega
      exact List.append_inj h hone
    · rintro ⟨hc, hs⟩
      rw [hc, hs]

/-- **When the lower case is that of ASCII.** -/
theorem lower_eq_asciiLower_iff (s : List Char) :
    lower s = asciiLower s ↔ LowerBeyondAscii s :=
  lowerAfter_eq_asciiLower_iff [] s

/-- What a lower case is made of. -/
theorem exists_of_mem_lowerAfter {before s : List Char} {d : Char}
    (h : d ∈ lowerAfter before s) : ∃ c ∈ s, d ∈ lowerChar c ∨ d = 'ς' := by
  induction s generalizing before with
  | nil => cases h
  | cons c s ih =>
    rw [lowerAfter_cons, List.mem_append] at h
    rcases h with hd | hd
    · refine ⟨c, .head _, ?_⟩
      rcases lowerBetween_cases before c s with hc | ⟨-, hc⟩
      · exact .inl (hc ▸ hd)
      · rw [hc] at hd
        exact .inr (List.mem_singleton.1 hd)
    · obtain ⟨b, hb, hdb⟩ := ih hd
      exact ⟨b, .tail _ hb, hdb⟩

/-! ## Characters without case -/

/-- What lies between the ranges lies in none of them. -/
theorem inRanges_of_apart {rs : List (Nat × Nat)} {lo hi n : Nat}
    (h : ∀ r ∈ rs, hi < r.1 ∨ r.2 < lo) (hlo : lo ≤ n) (hhi : n ≤ hi) : inRanges rs n = false := by
  rw [inRanges, List.any_eq_false]
  intro r hr
  have := h r hr
  simp
  omega

/-- The colon and the blanks. -/
def markRanges : List (Nat × Nat) := (0x3A, 0x3A) :: blankRanges

/-- Whether a character is a colon or a blank. -/
def isMark (c : Char) : Bool := inRanges markRanges c.toNat

theorem isMark_of_isBlank {c : Char} (h : isBlank c = true) : isMark c = true := by
  rw [isMark, markRanges, inRanges, List.any_cons]
  exact Bool.or_eq_true_iff.2 (.inr h)

/-- A mark is no capital of ASCII. -/
theorem asciiLowerChar_of_isMark {c : Char} (h : isMark c = true) : asciiLowerChar c = c := by
  refine asciiLowerChar_of_not_capital fun hc => ?_
  have hapart : ∀ r ∈ markRanges, 0x5A < r.1 ∨ r.2 < 0x41 := by decide
  rw [isMark, inRanges_of_apart hapart hc.1 hc.2] at h
  cases h

/-- The marks and the capitals of ASCII: no mapping beyond ASCII starts or ends at one. -/
def secludedRanges : List (Nat × Nat) := (0x41, 0x5A) :: markRanges

/-- The small letters of ASCII are none of them. -/
theorem asciiLowerChar_of_secluded {c : Char}
    (h : inRanges secludedRanges (asciiLowerChar c).toNat = true) : asciiLowerChar c = c := by
  refine asciiLowerChar_of_not_capital fun hc => ?_
  have hapart : ∀ r ∈ secludedRanges, 0x7A < r.1 ∨ r.2 < 0x61 := by decide
  rw [toNat_asciiLowerChar, if_pos hc, inRanges_of_apart hapart (by omega) (by omega)] at h
  cases h

theorem lowerShifts_miss : ∀ s ∈ lowerShifts, ∀ r ∈ secludedRanges,
    (s.last < r.1 ∨ r.2 < s.first) ∧ (s.target s.last < r.1 ∨ r.2 < s.target s.first) := by
  decide +kernel

theorem secluded_of_shifted {n m : Nat} (h : shifted? lowerShifts n = some m) :
    inRanges secludedRanges n = false ∧ inRanges secludedRanges m = false := by
  obtain ⟨s, hfind, rfl⟩ := Option.map_eq_some_iff.1 h
  have hcovers := List.find?_some hfind
  have hmiss := lowerShifts_miss s (List.mem_of_find?_eq_some hfind)
  obtain ⟨hfirst, hlast, -⟩ := Shift.covers_iff.1 hcovers
  obtain ⟨hlo, hhi⟩ := Shift.target_bounds hcovers
  exact ⟨inRanges_of_apart (fun r hr => (hmiss r hr).1) hfirst hlast,
    inRanges_of_apart (fun r hr => (hmiss r hr).2) hlo hhi⟩

theorem secluded_ofNat {n : Nat} (h : inRanges secludedRanges n = false) :
    inRanges secludedRanges (Char.ofNat n).toNat = false := by
  rcases toNat_ofNat_cases n with hn | hn
  · rwa [hn]
  · rw [hn]
    decide

/-- A mark or an ASCII capital is the lower case of itself at most. -/
theorem eq_of_secluded {c d : Char} (hd : inRanges secludedRanges d.toNat = true)
    (h : d ∈ lowerChar c) : d = c ∧ asciiLowerChar d = d := by
  unfold lowerChar at h
  split at h
  next hc =>
    obtain rfl := List.mem_singleton.1 h
    have hsame := asciiLowerChar_of_secluded hd
    exact ⟨hsame, by rw [hsame, hsame]⟩
  next hc =>
    split at h
    next =>
      rcases List.mem_pair.1 h with rfl | rfl
      · exact absurd hd (by decide)
      · exact absurd hd (by decide)
    next =>
      split at h
      next m hm =>
        rw [List.mem_singleton.1 h, secluded_ofNat (secluded_of_shifted hm).2] at hd
        cases hd
      next =>
        obtain rfl := List.mem_singleton.1 h
        exact ⟨rfl, asciiLowerChar_of_beyond hc⟩

theorem asciiLowerChar_of_mem_lower {s : List Char} {d : Char} (h : d ∈ lower s) :
    asciiLowerChar d = d := by
  cases hd : inRanges secludedRanges d.toNat with
  | true =>
    obtain ⟨c, -, hc | hc⟩ := exists_of_mem_lowerAfter h
    · exact (eq_of_secluded hd hc).2
    · exact absurd (hc ▸ hd) (by decide)
  | false =>
    unfold asciiLowerChar
    rw [if_neg]
    rintro ⟨hlo, hhi⟩
    have hlo : 0x41 ≤ d.toNat := hlo
    have hhi : d.toNat ≤ 0x5A := hhi
    simp [inRanges, secludedRanges, hlo, hhi] at hd

/-- **A text in lower case has no ASCII capitals.** -/
theorem asciiLower_lower (s : List Char) : asciiLower (lower s) = lower s :=
  (List.map_congr_left fun _ hd => asciiLowerChar_of_mem_lower hd).trans (List.map_id' _)

theorem lowerChar_of_isMark {c : Char} (h : isMark c = true) : lowerChar c = [c] := by
  unfold lowerChar
  split
  next => rw [asciiLowerChar_of_isMark h]
  next =>
    split
    next hc => exact absurd (hc ▸ h) (by decide)
    next =>
      split
      next m hm =>
        have hapart := (secluded_of_shifted hm).1
        rw [secludedRanges, inRanges, List.any_cons, Bool.or_eq_false_iff] at hapart
        exact absurd h (Bool.eq_false_iff.1 hapart.2)
      next => rfl

theorem mem_lowerAfter {before s : List Char} {c : Char} (hc : isMark c = true) (h : c ∈ s) :
    c ∈ lowerAfter before s := by
  induction s generalizing before with
  | nil => cases h
  | cons d s ih =>
    rw [lowerAfter_cons, List.mem_append]
    rcases List.mem_cons.1 h with rfl | hs
    · left
      rcases lowerBetween_cases before c s with h | ⟨rfl, -⟩
      · rw [h, lowerChar_of_isMark hc]
        exact .head _
      · exact absurd hc (by decide)
    · exact .inr (ih hs)

/-- **Blanks and colons stay, and nothing becomes one.** -/
theorem mem_lower_iff {s : List Char} {c : Char} (hc : isMark c = true) : c ∈ lower s ↔ c ∈ s := by
  constructor
  · intro h
    obtain ⟨d, hd, hcd | rfl⟩ := exists_of_mem_lowerAfter h
    · have hsecluded : inRanges secludedRanges c.toNat = true := by
        rw [secludedRanges, inRanges, List.any_cons]
        exact Bool.or_eq_true_iff.2 (.inr hc)
      exact (eq_of_secluded hsecluded hcd).1 ▸ hd
    · exact absurd hc (by decide)
  · exact mem_lowerAfter hc

theorem lower_eq_nil {s : List Char} : lower s = [] ↔ s = [] := by
  constructor
  · intro h
    have := length_le_lowerAfter [] s
    rw [← lower, h] at this
    exact List.eq_nil_of_length_eq_zero (Nat.le_zero.1 this)
  · rintro rfl
    rfl

end Cuelist.Text
