/-
  Reading what spells a value.

  Every text that spells a value is read as this value, with blanks around it
  (`readGlyphs?_spelled`).  So what is written is read back (`readBytes?_pretty`).

  A number ends where it cannot go on (`Ends`); everything else ends by itself.  A step of
  the reader into a value, an item or a member passes at least one character, so the
  length of the text is fuel enough.
-/
import Cuelist.Json.Reader
import Cuelist.Proofs.Json.Spelling

namespace Cuelist.Json

/-! ## Blanks and words -/

@[simp] theorem glyphs_nil : glyphs [] = [] := rfl

@[simp] theorem glyphs_cons (c : Char) (s : List Char) :
    glyphs (c :: s) = .char c :: glyphs s := rfl

@[simp] theorem glyphs_append (s t : List Char) : glyphs (s ++ t) = glyphs s ++ glyphs t :=
  List.map_append

theorem skipBlanks_gap {gap : List Char} (hg : Gap gap) (s : List Glyph) :
    skipBlanks (glyphs gap ++ s) = skipBlanks s := by
  induction gap with
  | nil => rfl
  | cons c gap ih =>
    have hc := hg c List.mem_cons_self
    have ih := ih fun d hd => hg d (List.mem_cons_of_mem c hd)
    simp only [isGap, Bool.or_eq_true, decide_eq_true_eq] at hc
    rcases hc with ((rfl | rfl) | rfl) | rfl <;> exact ih

theorem skipBlanks_char {c : Char} (hc : isGap c = false) (s : List Glyph) :
    skipBlanks (.char c :: s) = .char c :: s := by
  simp only [isGap, Bool.or_eq_false_iff, decide_eq_false_iff_not] at hc
  obtain ⟨⟨⟨h₁, h₂⟩, h₃⟩, h₄⟩ := hc
  unfold skipBlanks
  split <;> simp_all

@[simp] theorem skipBlanks_skipBlanks (s : List Glyph) :
    skipBlanks (skipBlanks s) = skipBlanks s := by
  fun_induction skipBlanks s with
  | case1 rest ih | case2 rest ih | case3 rest ih | case4 rest ih => exact ih
  | case5 rest h₁ h₂ h₃ h₄ =>
    unfold skipBlanks
    split <;> simp_all

/-! ## Strings -/

theorem hex4?_control {n : Nat} (h : n < 0x20) :
    hex4? '0' '0' (Nat.digitChar (n / 16)) (Nat.digitChar (n % 16)) = some n := by
  have hall : ∀ n < 0x20,
      hex4? '0' '0' (Nat.digitChar (n / 16)) (Nat.digitChar (n % 16)) = some n := by decide
  exact hall n h

/-- A control is a unit that stands for itself. -/
theorem textOfUnits?_unit {n : Nat} (h : n < 0xD800) (units : List Unit16) :
    textOfUnits? (.unit n :: units) = (textOfUnits? units).map (Char.ofNat n :: ·) := by
  cases units with
  | nil => simp [textOfUnits?]; omega
  | cons u units =>
    cases u with
    | unit low => simp [textOfUnits?, Nat.not_le.2 h]; omega
    | char c => simp [textOfUnits?]; omega
    | stray => simp [textOfUnits?]

theorem stringUnits?_plain {c : Char} (hq : c ≠ '"') (hb : c ≠ '\\') (hc : ¬ c.toNat < 0x20)
    (s : List Glyph) :
    stringUnits? (.char c :: s) = (stringUnits? s).map fun p => (.char c :: p.1, p.2) := by
  rw [stringUnits?]
  · rw [if_neg hc]
  all_goals simp_all

/-- The characters that have a short escape. -/
def shortEscapes : List Char := ['"', '\\', '\x08', '\x0c', '\n', '\r', '\t']

theorem escapeChar_of_short {c : Char} (hc : c ∈ shortEscapes) (s : List Glyph) :
    stringUnits? (glyphs (escapeChar c) ++ s) =
      (stringUnits? s).map fun p => (.char c :: p.1, p.2) := by
  simp only [shortEscapes, List.mem_cons, List.not_mem_nil, or_false] at hc
  rcases hc with rfl | rfl | rfl | rfl | rfl | rfl | rfl <;> simp [escapeChar, stringUnits?]

theorem escapeChar_of_control {c : Char} (hs : c ∉ shortEscapes) (hc : c.toNat < 0x20) :
    escapeChar c =
      ['\\', 'u', '0', '0', Nat.digitChar (c.toNat / 16), Nat.digitChar (c.toNat % 16)] := by
  simp only [shortEscapes, List.mem_cons, List.not_mem_nil, or_false, not_or] at hs
  simp [escapeChar, hs, hc]

theorem escapeChar_of_plain {c : Char} (hs : c ∉ shortEscapes) (hc : ¬ c.toNat < 0x20) :
    escapeChar c = [c] := by
  simp only [shortEscapes, List.mem_cons, List.not_mem_nil, or_false, not_or] at hs
  simp [escapeChar, hs, hc]

/-- **One character of a string is read back** before others. -/
theorem stringUnits?_escapeChar (c : Char) (s : List Glyph) :
    ∃ u, stringUnits? (glyphs (escapeChar c) ++ s) =
        (stringUnits? s).map (fun p => (u :: p.1, p.2)) ∧
      ∀ units, textOfUnits? (u :: units) = (textOfUnits? units).map (c :: ·) := by
  by_cases hs : c ∈ shortEscapes
  · exact ⟨.char c, escapeChar_of_short hs s, fun _ => rfl⟩
  by_cases hc : c.toNat < 0x20
  · refine ⟨.unit c.toNat, ?_, fun units => ?_⟩
    · rw [escapeChar_of_control hs hc]
      simp only [glyphs_cons, glyphs_nil, List.cons_append, List.nil_append]
      rw [stringUnits?, hex4?_control hc]
    · rw [textOfUnits?_unit (by omega), Char.ofNat_toNat]
  · rw [escapeChar_of_plain hs hc]
    simp only [shortEscapes, List.mem_cons, not_or] at hs
    exact ⟨.char c, stringUnits?_plain hs.1 hs.2.1 hc s, fun _ => rfl⟩

/-- **A string is read back.** -/
theorem readString?_writeText (s : List Char) (rest : List Glyph) :
    readString? (glyphs (s.flatMap escapeChar) ++ .char '"' :: rest) =
      some (some (String.ofList s), rest) := by
  have hunits : ∃ units, stringUnits? (glyphs (s.flatMap escapeChar) ++ .char '"' :: rest) =
      some (units, rest) ∧ textOfUnits? units = some s := by
    induction s with
    | nil => exact ⟨[], by simp [stringUnits?], rfl⟩
    | cons c s ih =>
      obtain ⟨units, hread, htext⟩ := ih
      obtain ⟨u, hu, hc⟩ := stringUnits?_escapeChar c
        (glyphs (s.flatMap escapeChar) ++ .char '"' :: rest)
      refine ⟨u :: units, ?_, ?_⟩
      · rw [List.flatMap_cons, glyphs_append, List.append_assoc, hu, hread]
        rfl
      · rw [hc, htext]
        rfl
  obtain ⟨units, hread, htext⟩ := hunits
  rw [readString?, hread, Option.map_some, htext, Option.map_some]

/-! ## Numbers -/

/-- Whether a character could carry on a number. -/
def goesOn (c : Char) : Bool := Decimal.isDigit c || c = '.' || c = 'e' || c = 'E'

/-- Whether a number ends before a text. -/
def Ends (s : List Glyph) : Prop := ∀ c rest, s = .char c :: rest → goesOn c = false

theorem ends_char {c : Char} (hc : goesOn c = false) (s : List Glyph) : Ends (.char c :: s) := by
  rintro d rest h
  obtain ⟨h, -⟩ := List.cons.inj h
  rwa [← Glyph.char.inj h]

theorem ends_gap {gap : List Char} (hg : Gap gap) {s : List Glyph} (hs : Ends s) :
    Ends (glyphs gap ++ s) := by
  cases gap with
  | nil => exact hs
  | cons c gap =>
    have hc := hg c List.mem_cons_self
    simp only [isGap, Bool.or_eq_true, decide_eq_true_eq] at hc
    refine ends_char ?_ _
    rcases hc with ((rfl | rfl) | rfl) | rfl <;> decide

/-- Whether a row of digits ends before a text. -/
def NoDigit (s : List Glyph) : Prop := ∀ c rest, s = .char c :: rest → Decimal.isDigit c = false

theorem noDigit_char {c : Char} (hc : Decimal.isDigit c = false) (s : List Glyph) :
    NoDigit (.char c :: s) := by
  rintro d rest h
  obtain ⟨h, -⟩ := List.cons.inj h
  rwa [← Glyph.char.inj h]

theorem Ends.noDigit {s : List Glyph} (hs : Ends s) : NoDigit s := fun c rest h => by
  have hc := hs c rest h
  simp only [goesOn, Bool.or_eq_false_iff] at hc
  exact hc.1.1.1

/-- Digits end before what is no digit. -/
theorem spanDigits_append {ds : List Char} (hd : ∀ c ∈ ds, Decimal.isDigit c = true)
    {s : List Glyph} (hs : NoDigit s) : spanDigits (glyphs ds ++ s) = (ds, s) := by
  induction ds with
  | nil =>
    rw [glyphs_nil, List.nil_append]
    unfold spanDigits
    split
    next c rest => rw [if_neg (by simp [hs c rest rfl])]
    next => rfl
  | cons c ds ih =>
    have ih := ih fun d hd' => hd d (List.mem_cons_of_mem c hd')
    simp [spanDigits, hd c List.mem_cons_self, ih]

section
variable {s : List Glyph}

theorem readWhole?_append {ds : List Char} (hw : Whole ds) (hs : NoDigit s) :
    readWhole? (glyphs ds ++ s) = some (ds, s) := by
  obtain ⟨⟨hne, hd⟩, hzero⟩ := hw
  rw [readWhole?, spanDigits_append hd hs]
  split
  next h => exact absurd (Prod.mk.inj h).1 hne
  next h => obtain ⟨rfl, rfl⟩ := Prod.mk.inj h; rfl
  next hone h =>
    obtain ⟨rfl, rfl⟩ := Prod.mk.inj h
    exact absurd (hzero rfl) (by simpa using hone)
  next h => obtain ⟨rfl, rfl⟩ := Prod.mk.inj h; rfl

theorem readFraction?_append {f : List Char} (hf : Fraction f) (hs : NoDigit s)
    (hp : ∀ rest, s ≠ .char '.' :: rest) : readFraction? (glyphs f ++ s) = some (f, s) := by
  cases hf with
  | none =>
    rw [glyphs_nil, List.nil_append]
    unfold readFraction?
    split
    next rest => exact absurd rfl (hp rest)
    next => rfl
  | @digits ds h =>
    rw [glyphs_cons, List.cons_append, readFraction?, spanDigits_append h.2 hs]
    obtain ⟨d, ds, rfl⟩ := List.exists_cons_of_ne_nil h.1
    rfl

theorem readPower?_append (e : Char) {sign ds : List Char}
    (hsign : sign = [] ∨ sign = ['+'] ∨ sign = ['-']) (hd : Digits ds) (hs : NoDigit s) :
    readPower? e (glyphs (sign ++ ds) ++ s) = some (e :: sign ++ ds, s) := by
  obtain ⟨d, ds, rfl⟩ := List.exists_cons_of_ne_nil hd.1
  have hdigits : ∀ sign, readPower?.digits e sign (glyphs (d :: ds) ++ s) =
      some (e :: sign ++ d :: ds, s) := fun sign => by
    rw [readPower?.digits, spanDigits_append hd.2 hs]
  rcases hsign with rfl | rfl | rfl
  · have hfirst := hd.2 d List.mem_cons_self
    rw [List.nil_append]
    unfold readPower?
    split
    next h => obtain rfl : d = '+' := Glyph.char.inj (List.cons.inj h).1; cases hfirst
    next h => obtain rfl : d = '-' := Glyph.char.inj (List.cons.inj h).1; cases hfirst
    next => exact hdigits []
  · exact hdigits ['+']
  · exact hdigits ['-']

theorem readExponent?_append {e : List Char} (he : Exponent e) (hs : Ends s) :
    readExponent? (glyphs e ++ s) = some (e, s) := by
  cases he with
  | none =>
    rw [glyphs_nil, List.nil_append]
    unfold readExponent?
    split
    next rest => cases hs _ _ rfl
    next rest => cases hs _ _ rfl
    next => rfl
  | @digits e sign ds he hsign hd =>
    rcases he with rfl | rfl
    · exact readPower?_append 'e' hsign hd hs.noDigit
    · exact readPower?_append 'E' hsign hd hs.noDigit

/-- No exponent, and nothing behind it, looks like the rest of the digits or a fraction. -/
theorem exponent_front {e : List Char} (he : Exponent e) (hs : Ends s) :
    NoDigit (glyphs e ++ s) ∧ ∀ rest, glyphs e ++ s ≠ .char '.' :: rest := by
  cases he with
  | none =>
    refine ⟨hs.noDigit, fun rest h => ?_⟩
    cases hs _ _ h
  | digits he =>
    rcases he with rfl | rfl
    · exact ⟨noDigit_char rfl _, fun rest h => by cases h⟩
    · exact ⟨noDigit_char rfl _, fun rest h => by cases h⟩

/-- **A number is read back.** -/
theorem readNumber?_append {cs : List Char} (hn : Number cs) (hs : Ends s) :
    readNumber? (glyphs cs ++ s) = some (cs, s) := by
  obtain @⟨sign, whole, fraction, exponent, hsign, hw, hf, he⟩ := hn
  obtain ⟨hdigit, hpoint⟩ := exponent_front he hs
  have hfront : NoDigit (glyphs fraction ++ (glyphs exponent ++ s)) := by
    cases hf with
    | none => exact hdigit
    | digits => exact noDigit_char rfl _
  have hwhole := readWhole?_append hw hfront
  have hfraction := readFraction?_append hf hdigit hpoint
  have hexponent := readExponent?_append he hs
  simp only [glyphs_append, List.append_assoc]
  rcases hsign with rfl | rfl
  · obtain ⟨d, ds, rfl⟩ := List.exists_cons_of_ne_nil hw.1.1
    have hfirst : d ≠ '-' := by
      rintro rfl
      cases hw.1.2 _ List.mem_cons_self
    have hsign : ∀ rest, glyphs (d :: ds) ++ (glyphs fraction ++ (glyphs exponent ++ s)) ≠
        .char '-' :: rest := fun rest h => hfirst (Glyph.char.inj (List.cons.inj h).1)
    rw [glyphs_nil, List.nil_append]
    unfold readNumber?
    split
    next h =>
      split at h
      next hminus => exact absurd hminus (hsign _)
      next =>
        obtain ⟨rfl, rfl⟩ := Prod.mk.inj h
        simp only [hwhole, hfraction, hexponent, Option.bind_eq_bind, Option.bind_some]
        simp
  · rw [glyphs_cons, glyphs_nil, List.cons_append, List.nil_append]
    simp [readNumber?, hwhole, hfraction, hexponent]

/-! ## Values -/

theorem readValue?_skip (fuel : Nat) {s t : List Glyph} (h : skipBlanks s = skipBlanks t) :
    readValue? fuel s = readValue? fuel t := by
  cases fuel with
  | zero => rfl
  | succ fuel => rw [readValue?, readValue?, h]

theorem readItems?_skip (fuel : Nat) {s t : List Glyph} (h : skipBlanks s = skipBlanks t) :
    readItems? fuel s = readItems? fuel t := by
  cases fuel with
  | zero => rfl
  | succ fuel => rw [readItems?, readItems?, readValue?_skip fuel h]

theorem readMembers?_skip (fuel : Nat) {s t : List Glyph} (h : skipBlanks s = skipBlanks t) :
    readMembers? fuel s = readMembers? fuel t := by
  cases fuel with
  | zero => rfl
  | succ fuel => rw [readMembers?, readMembers?, h]

/-- A number starts with a digit or a minus. -/
theorem Number.head {cs : List Char} (hn : Number cs) :
    ∃ c rest, cs = c :: rest ∧ (c = '-' ∨ Decimal.isDigit c = true) := by
  obtain @⟨sign, whole, fraction, exponent, hsign, hw, -, -⟩ := hn
  rcases hsign with rfl | rfl
  · obtain ⟨d, ds, rfl⟩ := List.exists_cons_of_ne_nil hw.1.1
    exact ⟨d, _, rfl, .inr (hw.1.2 d List.mem_cons_self)⟩
  · exact ⟨'-', _, rfl, .inl rfl⟩

theorem isGap_of_number {c : Char} (hc : c = '-' ∨ Decimal.isDigit c = true) :
    isGap c = false := by
  simp only [isGap, Bool.or_eq_false_iff, decide_eq_false_iff_not]
  refine ⟨⟨⟨?_, ?_⟩, ?_⟩, ?_⟩ <;> · rintro rfl; exact absurd hc (by decide)

theorem readValue?_number {cs : List Char} (hn : Number cs) (hs : Ends s) (fuel : Nat) :
    readValue? (fuel + 1) (glyphs cs ++ s) = some (.number cs, s) := by
  obtain ⟨c, rest, rfl, hc⟩ := hn.head
  have hread := readNumber?_append hn hs
  rw [glyphs_cons, List.cons_append] at hread ⊢
  rw [readValue?, skipBlanks_char (isGap_of_number hc)]
  split
  -- No other value starts like a number.
  case h_7 => rw [hread, Option.map_some]
  all_goals
    next h =>
      cases h
      exact absurd hc (by decide)

/-- An array that does not end at once holds items. -/
theorem readValue?_array {c : Char} {t : List Glyph} (fuel : Nat)
    (hfirst : skipBlanks s = .char c :: t) (hc : c ≠ ']') :
    readValue? (fuel + 1) (.char '[' :: s) =
      (readItems? fuel s).map fun p => (.array p.1, p.2) := by
  rw [readValue?, skipBlanks_char rfl]
  simp only [hfirst]
  split
  next h => exact absurd (Glyph.char.inj (List.cons.inj h).1) hc
  next => rw [← hfirst, readItems?_skip fuel (skipBlanks_skipBlanks s)]

/-- An object that does not end at once holds members. -/
theorem readValue?_object {c : Char} {t : List Glyph} (fuel : Nat)
    (hfirst : skipBlanks s = .char c :: t) (hc : c ≠ '\x7d') :
    readValue? (fuel + 1) (.char '\x7b' :: s) =
      (readMembers? fuel s).map fun p => (.object p.1, p.2) := by
  rw [readValue?, skipBlanks_char rfl]
  simp only [hfirst]
  split
  next h => exact absurd (Glyph.char.inj (List.cons.inj h).1) hc
  next => rw [← hfirst, readMembers?_skip fuel (skipBlanks_skipBlanks s)]

end

/-! ## Spellings are read -/

/-- **A string is read back**, between its quotes. -/
theorem readString?_rest (name : String) (s : List Glyph) :
    ∃ inside, glyphs (writeText name.toList) ++ s = .char '"' :: inside ∧
      readString? inside = some (some name, s) := by
  refine ⟨glyphs (name.toList.flatMap escapeChar) ++ .char '"' :: s, ?_, ?_⟩
  · simp [writeText]
  · rw [readString?_writeText, String.ofList_toList]

/-- The first character of a value. -/
theorem Spelled.value_front {v : Json} {text : List Char} (h : Spelled (.value v) text) :
    ∃ c rest, text = c :: rest ∧ isGap c = false ∧ c ≠ ']' := by
  cases h with
  | number h =>
    obtain ⟨c, rest, rfl, hc⟩ := h.head
    refine ⟨c, rest, rfl, ?_, ?_⟩
    · exact isGap_of_number hc
    · rintro rfl; exact absurd hc (by decide)
  | null | yes | no | string | noItems | array | noMembers | object =>
    exact ⟨_, _, rfl, rfl, by decide⟩

/-- What a spelling of a part is read as. -/
def Part.Reads (text : List Char) : Part → Prop
  | value v => ∀ fuel s, Ends s → text.length ≤ fuel →
      readValue? fuel (glyphs text ++ s) = some (v, s)
  | member m => ∀ fuel s, Ends s → text.length ≤ fuel →
      ∃ inside colon around, glyphs text ++ s = .char '"' :: inside ∧
        readString? inside = some (m.1, colon) ∧ skipBlanks colon = .char ':' :: around ∧
          readValue? fuel around = some (m.2, s)
  | items vs => ∀ fuel s, text.length < fuel →
      readItems? fuel (glyphs text ++ .char ']' :: s) = some (vs, s)
  | members ms => ∀ fuel s, text.length < fuel →
      readMembers? fuel (glyphs text ++ .char '\x7d' :: s) = some (ms, s)

/-- The first character that is no blank before the end of an array. -/
theorem Spelled.items_front {vs : List Json} {text : List Char} (h : Spelled (.items vs) text)
    (s : List Glyph) : ∃ c t, skipBlanks (glyphs text ++ s) = .char c :: t ∧ c ≠ ']' := by
  have hfront : ∀ {v : Json} {before text : List Char} (after : List Char), Gap before →
      Spelled (.value v) text →
      ∃ c t, skipBlanks (glyphs (before ++ text ++ after) ++ s) = .char c :: t ∧ c ≠ ']' := by
    intro v before text after hb h
    obtain ⟨c, rest, rfl, hc, hne⟩ := h.value_front
    refine ⟨c, glyphs rest ++ (glyphs after ++ s), ?_, hne⟩
    simp only [glyphs_append, glyphs_cons, List.append_assoc, List.cons_append]
    rw [skipBlanks_gap hb, skipBlanks_char hc]
  cases h with
  | item hb h ha => exact hfront _ hb h
  | items hb h ha hr =>
    rw [List.append_assoc]
    exact hfront _ hb h

/-- The first character that is no blank before the end of an object. -/
theorem Spelled.members_front {ms : List (Option String × Json)} {text : List Char}
    (h : Spelled (.members ms) text) (s : List Glyph) :
    ∃ t, skipBlanks (glyphs text ++ s) = .char '"' :: t := by
  have hfront : ∀ {m : Option String × Json} {before text : List Char} (after : List Char),
      Gap before → Spelled (.member m) text →
      ∃ t, skipBlanks (glyphs (before ++ text ++ after) ++ s) = .char '"' :: t := by
    intro m before text after hb h
    cases h with
    | member name =>
      simp only [glyphs_append, List.append_assoc]
      rw [skipBlanks_gap hb, writeText, List.cons_append, glyphs_cons, List.cons_append,
        skipBlanks_char rfl]
      exact ⟨_, rfl⟩
  cases h with
  | lastMember hb h ha => exact hfront _ hb h
  | members hb h ha hr =>
    rw [List.append_assoc]
    exact hfront _ hb h

theorem exists_fuel {c : Char} {rest : List Char} {fuel : Nat}
    (h : (c :: rest).length ≤ fuel) : ∃ k, fuel = k + 1 :=
  Nat.exists_eq_succ_of_ne_zero (Nat.ne_zero_of_lt h)

/-- Blanks, a value, and what ends it, where a value is read. -/
theorem readValue?_between {v : Json} {text before after : List Char} {c : Char}
    (hread : (Part.value v).Reads text) (hb : Gap before) (ha : Gap after)
    (hc : goesOn c = false) (rest : List Glyph) (fuel : Nat) (hf : text.length ≤ fuel) :
    readValue? fuel (glyphs (before ++ text ++ after) ++ .char c :: rest) =
      some (v, glyphs after ++ .char c :: rest) := by
  simp only [glyphs_append, List.append_assoc]
  rw [readValue?_skip fuel (skipBlanks_gap hb _)]
  exact hread fuel _ (ends_gap ha (ends_char hc rest)) hf

/-- Blanks, a member, and what ends it, where a member is read. -/
theorem readMember_between {m : Option String × Json} {text before after : List Char} {c : Char}
    (hread : (Part.member m).Reads text) (hb : Gap before) (ha : Gap after)
    (hc : goesOn c = false) (rest : List Glyph) (fuel : Nat) (hf : text.length ≤ fuel) :
    ∃ inside colon around,
      skipBlanks (glyphs (before ++ text ++ after) ++ .char c :: rest) = .char '"' :: inside ∧
        readString? inside = some (m.1, colon) ∧ skipBlanks colon = .char ':' :: around ∧
          readValue? fuel around = some (m.2, glyphs after ++ .char c :: rest) := by
  obtain ⟨inside, colon, around, htext, hname, hcolon, hvalue⟩ :=
    hread fuel _ (ends_gap ha (ends_char hc rest)) hf
  refine ⟨inside, colon, around, ?_, hname, hcolon, hvalue⟩
  simp only [glyphs_append, List.append_assoc]
  rw [skipBlanks_gap hb, htext, skipBlanks_char rfl]

/-- **A text that spells a part is read as that part.** -/
theorem Spelled.reads {part : Part} {text : List Char} (h : Spelled part text) :
    part.Reads text := by
  induction h with
  | null | yes | no =>
    intro fuel s _ hf
    obtain ⟨fuel, rfl⟩ := exists_fuel hf
    simp [readValue?, skipBlanks_char, isGap, skipWord]
  | number h =>
    intro fuel s hs hf
    obtain ⟨c, rest, rfl, -⟩ := h.head
    obtain ⟨fuel, rfl⟩ := exists_fuel hf
    exact readValue?_number h hs fuel
  | string name =>
    intro fuel s _ hf
    obtain ⟨fuel, rfl⟩ := exists_fuel hf
    obtain ⟨inside, htext, hread⟩ := readString?_rest name s
    rw [htext, readValue?, skipBlanks_char rfl]
    simp only [hread, Option.map_some]
  | noItems hg =>
    intro fuel s _ hf
    obtain ⟨fuel, rfl⟩ := exists_fuel hf
    simp only [glyphs_append, glyphs_cons, glyphs_nil, List.append_assoc, List.cons_append,
      List.nil_append]
    rw [readValue?, skipBlanks_char rfl]
    simp only [skipBlanks_gap hg, skipBlanks_char (c := ']') rfl]
  | @array vs text h ih =>
    intro fuel s _ hf
    obtain ⟨fuel, rfl⟩ := exists_fuel hf
    simp only [List.length_append, List.length_cons, List.length_nil] at hf
    obtain ⟨c, t, hfront, hc⟩ := h.items_front (.char ']' :: s)
    simp only [glyphs_append, glyphs_cons, glyphs_nil, List.append_assoc, List.cons_append,
      List.nil_append]
    rw [readValue?_array fuel hfront hc, ih fuel s (by omega), Option.map_some]
  | noMembers hg =>
    intro fuel s _ hf
    obtain ⟨fuel, rfl⟩ := exists_fuel hf
    simp only [glyphs_append, glyphs_cons, glyphs_nil, List.append_assoc, List.cons_append,
      List.nil_append]
    rw [readValue?, skipBlanks_char rfl]
    simp only [skipBlanks_gap hg, skipBlanks_char (c := '\x7d') rfl]
  | @object ms text h ih =>
    intro fuel s _ hf
    obtain ⟨fuel, rfl⟩ := exists_fuel hf
    simp only [List.length_append, List.length_cons, List.length_nil] at hf
    obtain ⟨t, hfront⟩ := h.members_front (.char '\x7d' :: s)
    simp only [glyphs_append, glyphs_cons, glyphs_nil, List.append_assoc, List.cons_append,
      List.nil_append]
    rw [readValue?_object fuel hfront (by decide), ih fuel s (by omega), Option.map_some]
  | @member name v text before after hb ha h ih =>
    intro fuel s hs hf
    obtain ⟨inside, htext, hread⟩ := readString?_rest name
      (glyphs before ++ .char ':' :: (glyphs after ++ (glyphs text ++ s)))
    refine ⟨inside, _, glyphs after ++ (glyphs text ++ s), ?_, hread, ?_, ?_⟩
    · rw [← htext]
      simp
    · rw [skipBlanks_gap hb, skipBlanks_char rfl]
    · rw [readValue?_skip fuel (skipBlanks_gap ha _)]
      refine ih fuel s hs (Nat.le_trans ?_ hf)
      simp only [List.length_append, List.length_cons]
      omega
  | item hb h ha ih =>
    intro fuel s hf
    simp only [List.length_append] at hf
    obtain ⟨fuel, rfl⟩ := Nat.exists_eq_succ_of_ne_zero (Nat.ne_zero_of_lt hf)
    rw [readItems?, readValue?_between ih hb ha rfl s fuel (by omega)]
    simp only [Option.bind_eq_bind, Option.bind_some, skipBlanks_gap ha,
      skipBlanks_char (c := ']') rfl]
  | items hb h ha hr ih ihr =>
    intro fuel s hf
    simp only [List.length_append, List.length_cons] at hf
    obtain ⟨fuel, rfl⟩ := Nat.exists_eq_succ_of_ne_zero (Nat.ne_zero_of_lt hf)
    rw [glyphs_append, glyphs_cons, List.append_assoc, List.cons_append, readItems?,
      readValue?_between ih hb ha rfl _ fuel (by omega)]
    simp only [Option.bind_eq_bind, Option.bind_some, skipBlanks_gap ha,
      skipBlanks_char (c := ',') rfl, ihr fuel s (by omega), Option.map_some]
  | lastMember hb h ha ih =>
    intro fuel s hf
    simp only [List.length_append] at hf
    obtain ⟨fuel, rfl⟩ := Nat.exists_eq_succ_of_ne_zero (Nat.ne_zero_of_lt hf)
    obtain ⟨inside, colon, around, htext, hname, hcolon, hvalue⟩ :=
      readMember_between ih hb ha (c := '\x7d') rfl s fuel (by omega)
    rw [readMembers?]
    simp only [htext, hname, hcolon, hvalue, Option.bind_eq_bind, Option.bind_some,
      skipBlanks_gap ha, skipBlanks_char (c := '\x7d') rfl]
  | @members m ms text before after rest hb h ha hr ih ihr =>
    intro fuel s hf
    simp only [List.length_append, List.length_cons] at hf
    obtain ⟨fuel, rfl⟩ := Nat.exists_eq_succ_of_ne_zero (Nat.ne_zero_of_lt hf)
    obtain ⟨inside, colon, around, htext, hname, hcolon, hvalue⟩ :=
      readMember_between ih hb ha (c := ',') rfl (glyphs rest ++ .char '\x7d' :: s) fuel (by omega)
    rw [glyphs_append, glyphs_cons, List.append_assoc, List.cons_append, readMembers?]
    simp only [htext, hname, hcolon, hvalue, Option.bind_eq_bind, Option.bind_some,
      skipBlanks_gap ha, skipBlanks_char (c := ',') rfl, ihr fuel s (by omega), Option.map_some]

/-- **A text that spells a value holds it**, also between blanks. -/
theorem readGlyphs?_spelled {v : Json} {text before after : List Char} (hb : Gap before)
    (ha : Gap after) (h : Spelled (.value v) text) :
    readGlyphs? (glyphs (before ++ text ++ after)) = some v := by
  have hend : Ends (glyphs after) := by
    have hnil : Ends [] := fun _ _ => nofun
    simpa using ends_gap ha hnil
  have hread : ∀ fuel, text.length ≤ fuel →
      readValue? fuel (glyphs (before ++ text ++ after)) = some (v, glyphs after) := by
    intro fuel hf
    simp only [glyphs_append, List.append_assoc]
    rw [readValue?_skip fuel (skipBlanks_gap hb _)]
    exact h.reads fuel _ hend hf
  have hblank : skipBlanks (glyphs after) = [] := by
    simpa [skipBlanks] using skipBlanks_gap ha []
  rw [readGlyphs?, hread _ (by simp [glyphs]; omega)]
  simp only [hblank, List.isEmpty_nil, if_true]

/-- The bytes of a text hold its characters. -/
theorem glyphsOfBytes_toUTF8 (s : String) : glyphsOfBytes s.toUTF8 = glyphs s.toList := by
  have hread : String.fromUTF8? s.toUTF8 = some s := dif_pos s.isValidUTF8
  rw [glyphsOfBytes, hread]

/-- **The bytes of a text that spells a value hold it.** -/
theorem readBytes?_spelled {v : Json} {text : List Char} (h : Spelled (.value v) text) :
    readBytes? (String.ofList text).toUTF8 = some v := by
  rw [readBytes?, glyphsOfBytes_toUTF8, String.toList_ofList]
  simpa using readGlyphs?_spelled gap_nil gap_nil h

/-- **What is written over several lines is read back.** -/
theorem readBytes?_pretty {v : Json} (h : v.Proper) : readBytes? v.pretty.toUTF8 = some v :=
  readBytes?_spelled (spelled_prettyChars 0 v h)

end Cuelist.Json
