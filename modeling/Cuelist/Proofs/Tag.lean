/-
  What filling an argument comes to.

  An argument consists of tags and of plain characters.  `IsReading s parts` says how a text
  is made of them, without a word on how it is scanned: the parts write the text, the names
  of the tags have no marks in them, and every such name between marks in the text is one of
  the tags.  Marks may be left over as plain characters.

  * `IsReading.unique`: a text has at most one reading;
  * `fill_eq_none`: there is no result exactly for a text that is `Nested`;
  * `reading_of_fill`: otherwise there is a reading, and the result is the text with each tag
    filled on its own;
  * `resolve_reading` puts these together for arguments.
-/
import Cuelist.Tag

namespace Cuelist.Tag

/-! ## Readings -/

/-- A part of an argument. -/
inductive Part where
  | plain (c : Char)
  | tag (name : List Char)
deriving DecidableEq

namespace Part

/-- The part as it is written. -/
def written : Part → List Char
  | plain c => [c]
  | tag name => marked name

/-- The part with the value of the tag in its place, if there is one. -/
def filled (scope : Scope) : Part → List Char
  | plain c => [c]
  | tag name => ((lookup scope name).map String.toList).getD (marked name)

/-- A tag without a value, as it is written. -/
def unfilled? (scope : Scope) : Part → Option (List Char)
  | plain _ => none
  | tag name => if (lookup scope name).isSome then none else some (marked name)

theorem written_ne_nil (p : Part) : p.written ≠ [] := by
  cases p <;> simp [written, marked]

end Part

/-- What parts write. -/
def write (parts : List Part) : List Char := parts.flatMap Part.written

/-- Whether a name has no marks in it. -/
def Bare (name : List Char) : Prop := '<' ∉ name ∧ '>' ∉ name

/-- Whether a text consists of these parts. -/
structure IsReading (s : List Char) (parts : List Part) : Prop where
  writes : write parts = s
  bare : ∀ name, .tag name ∈ parts → Bare name
  /-- Every bare name between marks is one of the tags, in its place. -/
  tags : ∀ before name after, Bare name → s = before ++ marked name ++ after →
    ∃ ps qs, parts = ps ++ .tag name :: qs ∧ write ps = before

/-- Whether a mark opens a tag inside another one: there is no closing mark between the two,
    and one behind them. -/
def Nested (s : List Char) : Prop :=
  ∃ before outer inner after,
    s = before ++ '<' :: outer ++ '<' :: inner ++ '>' :: after ∧ '>' ∉ outer

/-- Whether no mark that opens a tag has a closing one behind it. -/
def Unclosed (s : List Char) : Prop :=
  ∀ before after, s = before ++ '<' :: after → '>' ∉ after

/-! ## Readings are unique -/

theorem write_eq_nil {parts : List Part} : write parts = [] ↔ parts = [] := by
  cases parts with
  | nil => simp [write]
  | cons p ps => simp [write, p.written_ne_nil]

theorem write_plain (s : List Char) : write (s.map .plain) = s := by
  induction s with
  | nil => rfl
  | cons c s ih => exact congrArg (c :: ·) ih

section
variable {s : List Char} {p q : Part} {ps qs : List Part}

/-- A reading without its first part. -/
theorem IsReading.tail (h : IsReading s (p :: ps)) :
    ∃ rest, s = p.written ++ rest ∧ IsReading rest ps := by
  refine ⟨write ps, h.writes.symm, rfl, fun name hn => h.bare name (.tail _ hn), ?_⟩
  intro before name after hbare hrest
  have hs : s = p.written ++ before ++ marked name ++ after := by
    rw [← h.writes, List.append_assoc, List.append_assoc, ← List.append_assoc before, ← hrest]
    rfl
  obtain ⟨ps', qs', hparts, hwrite⟩ := h.tags _ name after hbare hs
  cases ps' with
  | nil =>
    have hnil : p.written ++ before = [] := hwrite.symm
    exact absurd (List.append_eq_nil_iff.1 hnil).1 p.written_ne_nil
  | cons p' ps' =>
    obtain ⟨rfl, rfl⟩ := List.cons.inj hparts
    exact ⟨ps', qs', rfl, List.append_cancel_left hwrite⟩

/-- If a reading begins with a tag, so does every other one. -/
theorem IsReading.head_tag {name : List Char} (h : IsReading s (.tag name :: ps))
    (h' : IsReading s (q :: qs)) : q = .tag name := by
  have hs : s = [] ++ marked name ++ write ps := h.writes.symm
  obtain ⟨ps', qs', hparts, hwrite⟩ := h'.tags [] name _ (h.bare name (.head _)) hs
  rw [write_eq_nil.1 hwrite] at hparts
  exact (List.cons.inj hparts).1

theorem IsReading.head (h : IsReading s (p :: ps)) (h' : IsReading s (q :: qs)) : p = q := by
  cases p with
  | tag name => exact (h.head_tag h').symm
  | plain c =>
    cases q with
    | tag name => exact h'.head_tag h
    | plain d =>
      have hs : c :: write ps = d :: write qs := h.writes.trans h'.writes.symm
      rw [(List.cons.inj hs).1]

/-- **A text has at most one reading.** -/
theorem IsReading.unique (h : IsReading s ps) (h' : IsReading s qs) : ps = qs := by
  induction ps generalizing s qs with
  | nil => exact (write_eq_nil.1 (h'.writes.trans h.writes.symm)).symm
  | cons p ps ih =>
    cases qs with
    | nil => exact write_eq_nil.1 (h.writes.trans h'.writes.symm)
    | cons q qs =>
      obtain rfl := h.head h'
      obtain ⟨rest, rfl, htail⟩ := h.tail
      obtain ⟨rest', hrest, htail'⟩ := h'.tail
      obtain rfl := List.append_cancel_left hrest
      rw [ih htail htail']

end

/-! ## The first tag of a text -/

section
variable {before name after s : List Char}

/-- Where a mark stands that opens a tag: it is the first one, or it is behind the first
    tag. -/
theorem opening_cases {before' rest : List Char} (hb : '<' ∉ before) (hn : '<' ∉ name)
    (h : before' ++ '<' :: rest = before ++ marked name ++ after) :
    before' = before ∧ rest = name ++ '>' :: after ∨
      ∃ gap, before' = before ++ marked name ++ gap ∧ after = gap ++ '<' :: rest := by
  simp only [marked, List.append_assoc, List.cons_append, List.nil_append] at h
  rcases Text.append_cons_cases h with ⟨rfl, -, hrest⟩ | ⟨m, rfl, hm⟩ | ⟨m, rfl, -⟩
  · exact .inl ⟨rfl, hrest⟩
  · rcases Text.append_cons_cases hm with ⟨-, hc, -⟩ | ⟨k, rfl, -⟩ | ⟨k, rfl, hk⟩
    · simp at hc
    · simp at hn
    · exact .inr ⟨k, by simp [marked], hk⟩
  · simp at hb

/-- Where a tag stands: it is the first one, or it is behind that. -/
theorem tag_cases {before' name' after' : List Char} (hb : '<' ∉ before) (hn : Bare name)
    (hn' : Bare name') (h : before' ++ marked name' ++ after' = before ++ marked name ++ after) :
    before' = before ∧ name' = name ∧ after' = after ∨
      ∃ gap, before' = before ++ marked name ++ gap ∧ after = gap ++ marked name' ++ after' := by
  have hopen : before' ++ '<' :: (name' ++ '>' :: after') = before ++ marked name ++ after := by
    rw [← h]
    simp [marked]
  rcases opening_cases hb hn.1 hopen with ⟨rfl, hrest⟩ | ⟨gap, rfl, hgap⟩
  · have hcut := congrArg (Text.cut '>') hrest
    rw [Text.cut_append hn'.2, Text.cut_append hn.2] at hcut
    obtain ⟨rfl, rfl⟩ := Prod.mk.inj (Option.some.inj hcut)
    exact .inl ⟨rfl, rfl, rfl⟩
  · exact .inr ⟨gap, rfl, by simpa [marked] using hgap⟩

/-- A text with a tag in it is nested if what follows the tag is. -/
theorem nested_append (hb : '<' ∉ before) (hn : '<' ∉ name) :
    Nested (before ++ marked name ++ after) ↔ Nested after := by
  constructor
  · rintro ⟨before', outer, inner, after', h, houter⟩
    have hopen : before' ++ '<' :: (outer ++ '<' :: inner ++ '>' :: after') =
        before ++ marked name ++ after := by
      rw [h]
      simp
    rcases opening_cases hb hn hopen with ⟨-, hrest⟩ | ⟨gap, -, hgap⟩
    · -- The tag ends before a second mark opens one.
      rw [List.append_assoc, List.cons_append] at hrest
      rcases Text.append_cons_cases hrest with ⟨-, hc, -⟩ | ⟨k, rfl, -⟩ | ⟨k, rfl, -⟩
      · simp at hc
      · simp at houter
      · simp at hn
    · exact ⟨gap, outer, inner, after', by simpa using hgap, houter⟩
  · rintro ⟨gap, outer, inner, after', rfl, houter⟩
    exact ⟨before ++ marked name ++ gap, outer, inner, after', by simp, houter⟩

/-- A first tag in front of a reading. -/
theorem IsReading.tag {parts : List Part} (hb : '<' ∉ before) (hn : Bare name)
    (h : IsReading after parts) :
    IsReading (before ++ marked name ++ after) (before.map .plain ++ .tag name :: parts) where
  writes := by
    simp only [write, List.flatMap_append, List.flatMap_cons, List.append_assoc]
    rw [← write, ← write, write_plain, h.writes, Part.written]
  bare name' hm := by
    rcases List.mem_append.1 hm with hm | hm
    · simp at hm
    · rcases List.mem_cons.1 hm with heq | hm
      · rwa [Part.tag.inj heq]
      · exact h.bare name' hm
  tags before' name' after' hn' hs := by
    rcases tag_cases hb hn hn' hs.symm with ⟨rfl, rfl, -⟩ | ⟨gap, rfl, hgap⟩
    · exact ⟨before'.map .plain, parts, rfl, write_plain before'⟩
    · obtain ⟨ps, qs, rfl, hwrite⟩ := h.tags gap name' after' hn' hgap
      refine ⟨before.map .plain ++ .tag name :: ps, qs, by simp, ?_⟩
      simp only [write, List.flatMap_append, List.flatMap_cons, List.append_assoc]
      rw [← write, ← write, write_plain, hwrite, Part.written]

end

/-! ## Texts without a tag -/

section
variable {s : List Char}

theorem unclosed_of_notMem (h : '<' ∉ s) : Unclosed s := by
  rintro before after rfl
  simp at h

theorem unclosed_append {before after : List Char} (hb : '<' ∉ before) (ha : '>' ∉ after) :
    Unclosed (before ++ '<' :: after) := by
  intro before' after' h
  rcases Text.append_cons_cases h with ⟨-, -, rfl⟩ | ⟨m, rfl, -⟩ | ⟨m, -, rfl⟩
  · exact ha
  · simp at hb
  · simp only [List.mem_append, List.mem_cons, not_or] at ha
    exact ha.2.2

theorem Unclosed.not_nested (h : Unclosed s) : ¬Nested s := by
  rintro ⟨before, outer, inner, after, rfl, -⟩
  exact h before (outer ++ '<' :: inner ++ '>' :: after) (by simp) (by simp)

theorem Unclosed.reading (h : Unclosed s) : IsReading s (s.map .plain) where
  writes := write_plain s
  bare name hn := by simp at hn
  tags before name after _ hs :=
    absurd (by simp) (h before (name ++ '>' :: after) (by simp [hs, marked]))

end

/-! ## Filling -/

section
variable {scope : Scope} {s : List Char}

theorem filled_plain (s : List Char) : (s.map .plain).flatMap (Part.filled scope) = s := by
  induction s with
  | nil => rfl
  | cons c s ih => exact congrArg (c :: ·) ih

theorem unfilled_plain (s : List Char) : (s.map .plain).filterMap (Part.unfilled? scope) = [] := by
  induction s with
  | nil => rfl
  | cons c s ih => exact ih

/-- **There is no result exactly if a tag is opened inside another one.** -/
theorem fill_eq_none : fill scope s = none ↔ Nested s := by
  fun_induction fill scope s with
  | case1 s hopen =>
    have hs := unclosed_of_notMem (Text.cut_eq_none.1 hopen)
    simpa using hs.not_nested
  | case2 s before rest hopen hclose =>
    rw [Text.eq_of_cut hopen]
    have hs := unclosed_append (Text.notMem_of_cut hopen) (Text.cut_eq_none.1 hclose)
    simpa using hs.not_nested
  | case3 s before rest hopen tag after hclose hm =>
    rw [Text.eq_of_cut hopen, Text.eq_of_cut hclose]
    obtain ⟨outer, inner, rfl⟩ := List.append_of_mem hm
    have hno := Text.notMem_of_cut hclose
    simp only [List.mem_append, not_or] at hno
    simpa using ⟨before, outer, inner, after, by simp, hno.1⟩
  | case4 s before rest hopen tag after hclose hm ih =>
    have hs : s = before ++ marked tag ++ after := by
      rw [Text.eq_of_cut hopen, Text.eq_of_cut hclose]
      simp [marked]
    rw [Option.map_eq_none_iff, ih, hs, nested_append (Text.notMem_of_cut hopen) hm]

/-- **The result is the text with each tag filled on its own.** -/
theorem reading_of_fill {filled : List Char × List (List Char)} (h : fill scope s = some filled) :
    ∃ parts, IsReading s parts ∧
      filled = (parts.flatMap (Part.filled scope), parts.filterMap (Part.unfilled? scope)) := by
  fun_induction fill scope s generalizing filled with
  | case1 s hopen =>
    refine ⟨s.map .plain, (unclosed_of_notMem (Text.cut_eq_none.1 hopen)).reading, ?_⟩
    rw [filled_plain, unfilled_plain, Option.some.inj h]
  | case2 s before rest hopen hclose =>
    refine ⟨s.map .plain, ?_, by rw [filled_plain, unfilled_plain, Option.some.inj h]⟩
    rw [Text.eq_of_cut hopen]
    exact (unclosed_append (Text.notMem_of_cut hopen) (Text.cut_eq_none.1 hclose)).reading
  | case3 => cases h
  | case4 s before rest hopen tag after hclose hm ih =>
    obtain ⟨filled', hfill, rfl⟩ := Option.map_eq_some_iff.1 h
    obtain ⟨parts, hparts, rfl⟩ := ih hfill
    have hs : s = before ++ marked tag ++ after := by
      rw [Text.eq_of_cut hopen, Text.eq_of_cut hclose]
      simp [marked]
    refine ⟨before.map .plain ++ .tag tag :: parts, ?_, ?_⟩
    · rw [hs]
      exact hparts.tag (Text.notMem_of_cut hopen) ⟨hm, Text.notMem_of_cut hclose⟩
    · simp only [List.flatMap_append, List.filterMap_append, List.flatMap_cons,
        List.filterMap_cons, filled_plain, unfilled_plain, List.nil_append]
      cases hv : lookup scope tag with
      | none => simp [Part.filled, Part.unfilled?, hv]
      | some v => simp [Part.filled, Part.unfilled?, hv]

theorem unfilled_eq_nil {parts : List Part} : parts.filterMap (Part.unfilled? scope) = [] ↔
    ∀ name, .tag name ∈ parts → (lookup scope name).isSome := by
  rw [List.filterMap_eq_nil_iff]
  constructor
  · intro h name hm
    have hnone := h _ hm
    simp only [Part.unfilled?] at hnone
    split at hnone
    next hv => exact hv
    next => cases hnone
  · intro h p hm
    cases p with
    | plain c => rfl
    | tag name => simp [Part.unfilled?, h name hm]

/-- **What becomes of an argument.**  It is malformed exactly if a tag is opened inside
    another one that is closed later on.

    Otherwise the argument has one reading.  The text is what the reading writes with the
    value of each tag in its place; a tag without a value stays as it is written, and values
    are not looked at again.  This text is the result exactly if all tags have values;
    otherwise it comes with the tags that have none, in their order and each as often as it
    is there. -/
theorem resolve_reading (scope : Scope) (argument : String) :
    (resolve scope argument = .error (.malformed argument) ↔ Nested argument.toList) ∧
      (¬Nested argument.toList → ∃ parts, IsReading argument.toList parts ∧
        (∀ others, IsReading argument.toList others → others = parts) ∧
          let text := String.ofList (parts.flatMap (Part.filled scope))
          let kept := (parts.filterMap (Part.unfilled? scope)).map String.ofList
          let full := ∀ name, .tag name ∈ parts → (lookup scope name).isSome
          (resolve scope argument = .ok text ↔ full) ∧
            (¬full → resolve scope argument = .error (.unresolved text kept))) := by
  cases hfill : fill scope argument.toList with
  | none =>
    have hnested := fill_eq_none.1 hfill
    exact ⟨by simp [resolve, hfill, hnested], fun hn => absurd hnested hn⟩
  | some filled =>
    have hnested : ¬Nested argument.toList := fun hn => by
      rw [fill_eq_none.2 hn] at hfill
      cases hfill
    obtain ⟨parts, hparts, rfl⟩ := reading_of_fill hfill
    have hmalformed : resolve scope argument ≠ .error (.malformed argument) := by
      simp only [resolve, hfill]
      split <;> simp_all
    refine ⟨by simp [hmalformed, hnested], fun _ => ⟨parts, hparts, fun _ h => h.unique hparts, ?_⟩⟩
    intro text kept full
    have hfull : parts.filterMap (Part.unfilled? scope) = [] ↔ full := unfilled_eq_nil
    cases hkept : parts.filterMap (Part.unfilled? scope) with
    | nil =>
      have hr : resolve scope argument = .ok text := by simp only [resolve, hfill, hkept, text]
      exact ⟨by simp [hr, hfull.1 hkept], fun hn => absurd (hfull.1 hkept) hn⟩
    | cons tag tags =>
      have hr : resolve scope argument = .error (.unresolved text kept) := by
        simp only [resolve, hfill, hkept, text, kept]
      have hopen : ¬full := by
        rw [← hfull, hkept]
        exact List.cons_ne_nil tag tags
      exact ⟨by simp [hr, hopen], fun _ => hr⟩

example : resolve ⟨Store.insert {} "who" (.ofText "<you>"), none, none, none⟩ "a <b <who>" =
    .error (.malformed "a <b <who>") := by
  cbv

end

end Cuelist.Tag
