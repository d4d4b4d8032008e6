/-
  Cutting texts at characters.

  `cut` takes a text apart at the first occurrence of a character, `splitOn` at
  every one; `joinWith` puts pieces together again.  `replaceAll` substitutes
  each occurrence of a pattern, from the left and without overlap.
-/
namespace Cuelist.Text

/-- The parts of a text before and after the first `c`, if there is one. -/
def cut (c : Char) : List Char → Option (List Char × List Char)
  | [] => none
  | d :: rest => if d = c then some ([], rest) else (cut c rest).map fun p => (d :: p.1, p.2)

/-- A cut loses the character it cuts at and nothing else. -/
theorem eq_of_cut {c : Char} {s before after : List Char} (h : cut c s = some (before, after)) :
    s = before ++ c :: after := by
  induction s generalizing before with
  | nil => simp [cut] at h
  | cons d rest ih =>
    unfold cut at h
    split at h
    · rename_i hd
      cases h
      rw [hd, List.nil_append]
    · obtain ⟨p, hp, he⟩ := Option.map_eq_some_iff.1 h
      cases he
      rw [List.cons_append, ← ih hp]

/-- What comes before a cut does not have the character. -/
theorem notMem_of_cut {c : Char} {s before after : List Char} (h : cut c s = some (before, after)) :
    c ∉ before := by
  induction s generalizing before with
  | nil => simp [cut] at h
  | cons d rest ih =>
    unfold cut at h
    split at h
    · cases h
      exact List.not_mem_nil
    next hd =>
      obtain ⟨p, hp, he⟩ := Option.map_eq_some_iff.1 h
      cases he
      simp only [List.mem_cons, not_or]
      exact ⟨fun hc => hd hc.symm, ih hp⟩

/-- A text is cut behind a part that does not have the character. -/
theorem cut_append {c : Char} {before : List Char} (h : c ∉ before) (after : List Char) :
    cut c (before ++ c :: after) = some (before, after) := by
  induction before with
  | nil => simp [cut]
  | cons d rest ih =>
    simp only [List.mem_cons, not_or] at h
    simp [cut, Ne.symm h.1, ih h.2]

/-- A text is not cut only if it does not have the character. -/
theorem cut_eq_none {c : Char} {s : List Char} : cut c s = none ↔ c ∉ s := by
  induction s with
  | nil => simp [cut]
  | cons d rest ih =>
    unfold cut
    split
    next hd => simp [hd]
    next hd => simp [ih, Ne.symm hd]

/-- Where two characters stand in a text: in the same place, or one before the other. -/
theorem append_cons_cases {a b x y : List Char} {c d : Char} (h : a ++ c :: b = x ++ d :: y) :
    a = x ∧ c = d ∧ b = y ∨ (∃ m, a = x ++ d :: m ∧ y = m ++ c :: b) ∨
      ∃ m, x = a ++ c :: m ∧ b = m ++ d :: y := by
  rcases List.append_eq_append_iff.1 h with ⟨m, hx, hm⟩ | ⟨m, ha, hm⟩
  · cases m with
    | nil =>
      obtain ⟨hc, hb⟩ := List.cons.inj hm
      exact .inl ⟨by simpa using hx.symm, hc, hb⟩
    | cons e m =>
      obtain ⟨rfl, hb⟩ := List.cons.inj hm
      exact .inr (.inr ⟨m, hx, hb⟩)
  · cases m with
    | nil =>
      obtain ⟨hd, hy⟩ := List.cons.inj hm
      exact .inl ⟨by simpa using ha, hd.symm, hy.symm⟩
    | cons e m =>
      obtain ⟨rfl, hy⟩ := List.cons.inj hm
      exact .inr (.inl ⟨m, ha, hy⟩)

/-- What a cut leaves behind the character is shorter than the text. -/
theorem length_after_cut {c : Char} {s before after : List Char}
    (h : cut c s = some (before, after)) : after.length < s.length := by
  have := congrArg List.length (eq_of_cut h)
  simp at this
  omega

/-- The pieces of a text between the occurrences of `c`; always at least one. -/
def splitOn (c : Char) : List Char → List (List Char)
  | [] => [[]]
  | d :: rest =>
    if d = c then [] :: splitOn c rest
    else match splitOn c rest with
      | piece :: pieces => (d :: piece) :: pieces
      | [] => [[d]]

/-- The pieces with a separator between neighbours. -/
def joinWith (sep : List Char) : List (List Char) → List Char
  | [] => []
  | [piece] => piece
  | piece :: pieces => piece ++ sep ++ joinWith sep pieces

/-- What follows the start `p` of a text, if the text starts so. -/
def after? : (p s : List Char) → Option (List Char)
  | [], s => some s
  | _ :: _, [] => none
  | c :: p, d :: s => if c = d then after? p s else none

/-- What comes before the end `p` of a text, if the text ends so. -/
def before? (p s : List Char) : Option (List Char) :=
  (after? p.reverse s.reverse).map List.reverse

/-- A text with every occurrence of the pattern `p` replaced; `skip` counts the
    characters of an occurrence that are still to be passed over. -/
def replaceFrom (p new : List Char) : (skip : Nat) → List Char → List Char
  | _, [] => []
  | skip + 1, _ :: rest => replaceFrom p new skip rest
  | 0, c :: rest =>
    if (after? p (c :: rest)).isSome then new ++ replaceFrom p new (p.length - 1) rest
    else c :: replaceFrom p new 0 rest

/-- A text with every occurrence of a non-empty pattern replaced, found from the
    left and without overlap. -/
def replaceAll (p new s : List Char) : List Char :=
  replaceFrom p new 0 s

/-- Strings put together with a separator. -/
def joinStrings (sep : String) (pieces : List String) : String :=
  String.ofList (joinWith sep.toList (pieces.map String.toList))

end Cuelist.Text
