/-
  Tags that stand for objects.

  A tag is looked at without the blanks at its ends.  A few words stand for the subjects and the
  script (`Reserved`), all others for the object under the name; the word `context.` in front of a
  name leads to the object in any case (`InContext`).

  * `lookup_inContext`: behind `context.` every name that does not end with a blank stands for the
    object under it, whether the name is reserved or not.
  * `lookup_plain`: without it so does every name that has no blank at its ends, is not reserved
    and does not lead to the context itself.
  * `resolve_object`: hence an object that has a text is put in for the tags with its key, however
    the key is spelled.
-/
import Cuelist.Proofs.Tag.Arguments
import Cuelist.Proofs.Text.Ascii

namespace Cuelist.Tag

variable {scope : Scope} {name word rest : List Char}

/-! ## Names of tags -/

/-- The words that stand for something other than an object. -/
def reserved : List String :=
  ["subject", "subject.name", "secondary", "secondary.name", "script", "script.name"]

/-- Whether a name is one of these words, in any ASCII case. -/
def Reserved (name : List Char) : Prop :=
  String.ofList (Text.asciiLower name) ∈ reserved

instance (name : List Char) : Decidable (Reserved name) :=
  inferInstanceAs (Decidable (_ ∈ reserved))

/-- Whether a text is the word that leads to the objects, in any ASCII case. -/
def IsContextWord (word : List Char) : Prop :=
  Text.sameIgnoringAsciiCase word "context.".toList = true

instance (word : List Char) : Decidable (IsContextWord word) :=
  inferInstanceAs (Decidable (_ = true))

/-- Whether a name begins with that word. -/
def InContext (name : List Char) : Prop :=
  ∃ word rest, name = word ++ rest ∧ IsContextWord word

theorem IsContextWord.asciiLower (h : IsContextWord word) :
    Text.asciiLower word = "context.".toList :=
  eq_of_beq h

theorem IsContextWord.length (h : IsContextWord word) : word.length = 8 := by
  have hlength := congrArg List.length h.asciiLower
  rwa [Text.asciiLower, List.length_map] at hlength

theorem IsContextWord.mem_lower (h : IsContextWord word) {c : Char} (hc : c ∈ word) :
    Text.asciiLowerChar c ∈ "context.".toList := by
  rw [← h.asciiLower]
  exact List.mem_map_of_mem hc

/-- The word has no blank in it. -/
theorem IsContextWord.not_blank (h : IsContextWord word) {c : Char} (hc : c ∈ word) :
    Text.isBlank c = false := by
  cases hblank : Text.isBlank c with
  | false => rfl
  | true =>
    have hmem : c ∈ "context.".toList := by
      rw [← Text.asciiLowerChar_of_isMark (Text.isMark_of_isBlank hblank)]
      exact h.mem_lower hc
    have hnone : ("context.".toList.all fun d => !Text.isBlank d) = true := by decide
    have hnot := List.all_eq_true.1 hnone c hmem
    rw [hblank] at hnot
    cases hnot

/-- The word has no mark in it. -/
theorem IsContextWord.bare (h : IsContextWord word) : Bare word := by
  constructor
  · intro hopen
    have hmem : Text.asciiLowerChar '<' ∈ "context.".toList := h.mem_lower hopen
    exact absurd hmem (by decide)
  · intro hclose
    have hmem : Text.asciiLowerChar '>' ∈ "context.".toList := h.mem_lower hclose
    exact absurd hmem (by decide)

theorem IsContextWord.ne_nil (h : IsContextWord word) : word ≠ [] := by
  rintro rfl
  cases h.length

/-- No reserved word begins like that. -/
theorem IsContextWord.not_reserved (h : IsContextWord word) (rest : List Char) :
    ¬Reserved (word ++ rest) := by
  intro hreserved
  have hother : ∀ s ∈ reserved, s.toList.head? ≠ some 'c' := by decide
  apply hother _ hreserved
  rw [String.toList_ofList, Text.asciiLower, List.map_append, ← Text.asciiLower, h.asciiLower]
  rfl

theorem inContext_append (h : IsContextWord word) (rest : List Char) :
    inContext (word ++ rest) = rest := by
  have htake : (word ++ rest).take 8 = word := List.take_left' h.length
  have hdrop : (word ++ rest).drop 8 = rest := List.drop_left' h.length
  rw [inContext, htake, hdrop]
  exact if_pos h

theorem inContext_iff : InContext name ↔ IsContextWord (name.take 8) := by
  constructor
  · rintro ⟨word, rest, rfl, hword⟩
    rwa [List.take_left' hword.length]
  · intro hword
    exact ⟨_, _, (List.take_append_drop 8 name).symm, hword⟩

instance (name : List Char) : Decidable (InContext name) :=
  decidable_of_iff _ inContext_iff.symm

theorem inContext_of_not (h : ¬InContext name) : inContext name = name :=
  if_neg (mt inContext_iff.2 h)

/-! ## What names stand for -/

theorem lookup_of_not_reserved {tag : List Char} (h : ¬Reserved (Text.trim tag)) :
    lookup scope tag =
      (scope.objects.get? (String.ofList (inContext (Text.trim tag)))).bind Value.asText := by
  simp only [Reserved, reserved, List.mem_cons, List.not_mem_nil, or_false, not_or] at h
  obtain ⟨h₁, h₂, h₃, h₄, h₅, h₆⟩ := h
  simp only [lookup, h₁, h₂, h₃, h₄, h₅, h₆, or_self, if_false]

/-- **Behind `context.` every name stands for the object under it**, if it does not end with a
    blank. -/
theorem lookup_inContext (hword : IsContextWord word)
    (hlast : ∀ c ∈ name.getLast?, Text.isBlank c = false) :
    lookup scope (word ++ name) =
      (scope.objects.get? (String.ofList name)).bind Value.asText := by
  have htrim : Text.trim (word ++ name) = word ++ name := by
    apply Text.trim_eq_self
    · intro c hc
      rw [List.head?_append_of_ne_nil _ hword.ne_nil] at hc
      exact hword.not_blank (List.mem_of_mem_head? hc)
    · intro c hc
      rw [List.getLast?_append] at hc
      rcases Option.or_eq_some_iff.1 hc with hend | ⟨-, hend⟩
      · exact hlast c hend
      · exact hword.not_blank (List.mem_of_getLast? hend)
  have hreserved : ¬Reserved (Text.trim (word ++ name)) := by
    rw [htrim]
    exact hword.not_reserved name
  rw [lookup_of_not_reserved hreserved, htrim, inContext_append hword]

/-- **Other names stand for the objects under them**, if they have no blank at their ends, are not
    reserved and do not lead to the context. -/
theorem lookup_plain (hfirst : ∀ c ∈ name.head?, Text.isBlank c = false)
    (hlast : ∀ c ∈ name.getLast?, Text.isBlank c = false) (hreserved : ¬Reserved name)
    (hcontext : ¬InContext name) :
    lookup scope name = (scope.objects.get? (String.ofList name)).bind Value.asText := by
  have htrim := Text.trim_eq_self hfirst hlast
  rw [← htrim] at hreserved
  rw [lookup_of_not_reserved hreserved, htrim, inContext_of_not hcontext]

/-! ## Arguments that are one tag -/

theorem Bare.append (hn : Bare name) (hr : Bare rest) : Bare (name ++ rest) := by
  constructor
  · intro hopen
    rcases List.mem_append.1 hopen with h | h
    · exact hn.1 h
    · exact hr.1 h
  · intro hclose
    rcases List.mem_append.1 hclose with h | h
    · exact hn.2 h
    · exact hr.2 h

/-- An argument that is one tag is filled with its value. -/
theorem resolve_tag {name v : String} (hn : Bare name.toList)
    (hv : lookup scope name.toList = some v) : resolve scope ("<" ++ name ++ ">") = .ok v := by
  have hargument : ("<" ++ name ++ ">").toList = [] ++ marked name.toList ++ [] := by
    simp [marked]
  have hend : fill scope [] = some ([], []) :=
    fill_of_unclosed (unclosed_of_notMem List.not_mem_nil)
  have hfill : fill scope ("<" ++ name ++ ">").toList = some (v.toList, []) := by
    rw [hargument, fill_tag List.not_mem_nil hn, hend]
    simp [Part.filled, Part.unfilled?, hv]
  rw [resolve_of_fill hfill, if_pos rfl, String.ofList_toList]

/-- **An object is put in for the tags with its key.**  Let an object with a text be stored under a
    key, and let `spelling` be a name with the same canonical form, without marks and without a
    blank at its end.  The tag with `context.` and the name, be it reserved or not, is filled with
    the text.  So is the tag with the name alone, if this does not begin with a blank, is not
    reserved and does not lead to the context. -/
theorem resolve_object (e : Entry) {key spelling text : String} {v : Value}
    (htext : v.asText = some text) (hsame : Key.normalize spelling = Key.normalize key)
    (hbare : Bare spelling.toList)
    (hlast : ∀ c ∈ spelling.toList.getLast?, Text.isBlank c = false) :
    let scope := (e.add key v).scope
    (∀ word : String, IsContextWord word.toList →
      resolve scope ("<" ++ word ++ spelling ++ ">") = .ok text) ∧
    ((∀ c ∈ spelling.toList.head?, Text.isBlank c = false) → ¬Reserved spelling.toList →
      ¬InContext spelling.toList → resolve scope ("<" ++ spelling ++ ">") = .ok text) := by
  intro scope
  have hobject : (scope.objects.get? spelling).bind Value.asText = some text := by
    have hget : scope.objects.get? spelling = some (v.labelled key) :=
      (Store.get?_insert ..).trans (if_pos hsame)
    rw [hget, ← htext]
    exact Value.asText_labelled key v
  rw [← String.ofList_toList (s := spelling)] at hobject
  constructor
  · intro word hword
    have hword' : IsContextWord word.toList := hword
    have hbare' : Bare (word ++ spelling).toList := by
      rw [String.toList_append]
      exact hword'.bare.append hbare
    have hargument : "<" ++ word ++ spelling ++ ">" = "<" ++ (word ++ spelling) ++ ">" := by
      simp only [String.append_assoc]
    rw [hargument]
    apply resolve_tag hbare'
    rw [String.toList_append, lookup_inContext hword hlast, hobject]
  · intro hfirst hreserved hcontext
    apply resolve_tag hbare
    rw [lookup_plain hfirst hlast hreserved hcontext, hobject]

/-- An object under a reserved word; and one under a word with a letter that has no single
    capital, spelled without it. -/
theorem resolve_object_respelled :
    let named := (Entry.make ⟨0⟩ .normal "SAY" [] none).add "Subject" (.ofText "Alex")
    let street := (Entry.make ⟨1⟩ .normal "SAY" [] none).add "Straße" (.ofText "Main")
    resolve named.scope "<CoNteXt.subject>" = .ok "Alex" ∧
      resolve street.scope "<context.STRASSE>" = .ok "Main" ∧
      resolve street.scope "<STRASSE>" = .ok "Main" := by
  intro named street
  have halex : (Value.ofText "Alex").asText = some "Alex" := rfl
  have hmain : (Value.ofText "Main").asText = some "Main" := rfl
  have hsubject : Key.normalize "subject" = Key.normalize "Subject" := by decide +kernel
  have hstrasse : Key.normalize "STRASSE" = Key.normalize "Straße" := by decide +kernel
  have hfirst : ∀ c ∈ "STRASSE".toList.head?, Text.isBlank c = false := by
    rintro c ⟨⟩
    decide
  have hlast : ∀ c ∈ "STRASSE".toList.getLast?, Text.isBlank c = false := by
    rintro c ⟨⟩
    decide
  have hnamed := resolve_object (Entry.make ⟨0⟩ .normal "SAY" [] none) halex hsubject
    ⟨by decide, by decide⟩ (by rintro c ⟨⟩; decide)
  have hstreet := resolve_object (Entry.make ⟨1⟩ .normal "SAY" [] none) hmain hstrasse
    ⟨by decide, by decide⟩ hlast
  exact ⟨hnamed.1 "CoNteXt." (by decide), hstreet.1 "context." (by decide),
    hstreet.2 hfirst (by decide) (by decide)⟩

end Cuelist.Tag
