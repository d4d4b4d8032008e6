/-
  How JSON values are spelled.

  `Spelled` is a grammar of JSON texts: any blanks may stand between the parts of a value,
  and strings are spelled with the escapes of the writer.  What is written over several
  lines is a spelling of its value (`spelled_prettyChars`) if that is `Proper`: its strings
  stand for texts and its numbers are spelled as numbers.
-/
import Cuelist.Json.Writer
import Cuelist.Decimal.Numeral
import Mathlib.Data.List.Basic

namespace Cuelist.Json

/-! ## Numbers -/

/-- A row of digits. -/
def Digits (ds : List Char) : Prop := ds ≠ [] ∧ ∀ c ∈ ds, Decimal.isDigit c = true

/-- The digits of a number before the point: a zero alone, or no zero in front. -/
def Whole (ds : List Char) : Prop := Digits ds ∧ (ds.head? = some '0' → ds = ['0'])

/-- The part of a number behind the point, with the point, if there is one. -/
inductive Fraction : List Char → Prop
  | none : Fraction []
  | digits {ds : List Char} (h : Digits ds) : Fraction ('.' :: ds)

/-- The exponent of a number, if there is one. -/
inductive Exponent : List Char → Prop
  | none : Exponent []
  | digits {e : Char} {sign ds : List Char} (he : e = 'e' ∨ e = 'E')
      (hs : sign = [] ∨ sign = ['+'] ∨ sign = ['-']) (h : Digits ds) : Exponent (e :: sign ++ ds)

/-- A number. -/
inductive Number : List Char → Prop
  | mk {sign whole fraction exponent : List Char} (hs : sign = [] ∨ sign = ['-'])
      (hw : Whole whole) (hf : Fraction fraction) (he : Exponent exponent) :
      Number (sign ++ whole ++ fraction ++ exponent)

theorem number_ofWhole {ds : List Char} (h : Whole ds) : Number ds := by
  have hn := Number.mk (.inl rfl) h .none .none
  rwa [List.append_nil, List.append_nil, List.nil_append] at hn

theorem isDigit_digitChar {n : Nat} (h : n < 10) : Decimal.isDigit (Nat.digitChar n) = true := by
  revert n
  decide

theorem digits_toDigits (n : Nat) : Digits (Nat.toDigits 10 n) := by
  induction n using Nat.strongRecOn with
  | ind n ih =>
    by_cases hn : n < 10
    · rw [Nat.toDigits_of_lt_base hn]
      refine ⟨List.cons_ne_nil _ _, fun c hc => ?_⟩
      rw [List.mem_singleton.1 hc]
      exact isDigit_digitChar hn
    · rw [Nat.toDigits_of_base_le (by decide) (by omega)]
      refine ⟨by simp, fun c hc => ?_⟩
      rcases List.mem_append.1 hc with hc | hc
      · exact (ih (n / 10) (by omega)).2 c hc
      · rw [List.mem_singleton.1 hc]
        exact isDigit_digitChar (Nat.mod_lt _ (by decide))

/-- The digits of a positive number start with another digit than zero. -/
theorem head?_toDigits {n : Nat} (hn : 0 < n) : (Nat.toDigits 10 n).head? ≠ some '0' := by
  induction n using Nat.strongRecOn with
  | ind n ih =>
    by_cases hlt : n < 10
    · have hfirst : ∀ d < 10, 0 < d → Nat.digitChar d ≠ '0' := by decide
      rw [Nat.toDigits_of_lt_base hlt]
      exact fun hz => hfirst n hlt hn (Option.some.inj hz)
    · rw [Nat.toDigits_of_base_le (by decide) (by omega),
        List.head?_append_of_ne_nil _ (digits_toDigits (n / 10)).1]
      exact ih (n / 10) (by omega) (by omega)

theorem number_ofNat (n : Nat) : Number (Nat.toDigits 10 n) := by
  refine number_ofWhole ⟨digits_toDigits n, fun hz => ?_⟩
  cases n with
  | zero => rfl
  | succ n => exact absurd hz (head?_toDigits (Nat.succ_pos n))

/-! ## Values -/

/-- Whether a character may stand between the parts of a value. -/
def isGap (c : Char) : Bool := c = ' ' || c = '\n' || c = '\r' || c = '\t'

/-- Blanks between the parts of a value. -/
def Gap (s : List Char) : Prop := ∀ c ∈ s, isGap c = true

/-- What is spelled: a value, a member of an object, or all that stands between two
    brackets. -/
inductive Part where
  | value (v : Json)
  | member (m : Option String × Json)
  | items (vs : List Json)
  | members (ms : List (Option String × Json))

/-- The texts that spell a part. -/
inductive Spelled : Part → List Char → Prop
  | null : Spelled (.value .null) "null".toList
  | yes : Spelled (.value (.bool true)) "true".toList
  | no : Spelled (.value (.bool false)) "false".toList
  | number {cs : List Char} (h : Number cs) : Spelled (.value (.number cs)) cs
  | string (s : String) : Spelled (.value (.string (some s))) (writeText s.toList)
  | noItems {gap : List Char} (hg : Gap gap) : Spelled (.value (.array [])) ('[' :: gap ++ [']'])
  | array {vs : List Json} {text : List Char} (h : Spelled (.items vs) text) :
      Spelled (.value (.array vs)) ('[' :: text ++ [']'])
  | noMembers {gap : List Char} (hg : Gap gap) :
      Spelled (.value (.object [])) ('\x7b' :: gap ++ ['\x7d'])
  | object {ms : List (Option String × Json)} {text : List Char} (h : Spelled (.members ms) text) :
      Spelled (.value (.object ms)) ('\x7b' :: text ++ ['\x7d'])
  | member (name : String) {v : Json} {text before after : List Char} (hb : Gap before)
      (ha : Gap after) (h : Spelled (.value v) text) :
      Spelled (.member (some name, v)) (writeText name.toList ++ before ++ ':' :: after ++ text)
  | item {v : Json} {text before after : List Char} (hb : Gap before)
      (h : Spelled (.value v) text) (ha : Gap after) :
      Spelled (.items [v]) (before ++ text ++ after)
  | items {v : Json} {vs : List Json} {text before after rest : List Char} (hb : Gap before)
      (h : Spelled (.value v) text) (ha : Gap after) (hr : Spelled (.items vs) rest) :
      Spelled (.items (v :: vs)) (before ++ text ++ after ++ ',' :: rest)
  | lastMember {m : Option String × Json} {text before after : List Char} (hb : Gap before)
      (h : Spelled (.member m) text) (ha : Gap after) :
      Spelled (.members [m]) (before ++ text ++ after)
  | members {m : Option String × Json} {ms : List (Option String × Json)}
      {text before after rest : List Char} (hb : Gap before) (h : Spelled (.member m) text)
      (ha : Gap after) (hr : Spelled (.members ms) rest) :
      Spelled (.members (m :: ms)) (before ++ text ++ after ++ ',' :: rest)

/-! ## Writing -/

mutual

/-- Whether all strings of a value stand for texts and all numbers are spelled as such. -/
def Proper : Json → Prop
  | .null | .bool _ => True
  | .number cs => Number cs
  | .string s => s.isSome
  | .array vs => ProperItems vs
  | .object ms => ProperMembers ms

/-- Whether all items are proper. -/
def ProperItems : List Json → Prop
  | [] => True
  | v :: vs => Proper v ∧ ProperItems vs

/-- Whether all members are proper. -/
def ProperMembers : List (Option String × Json) → Prop
  | [] => True
  | (name, v) :: ms => name.isSome ∧ Proper v ∧ ProperMembers ms

end

theorem gap_nil : Gap [] := nofun

theorem gap_blank : Gap [' '] := fun c hc => by
  rw [List.mem_singleton.1 hc]
  rfl

theorem gap_newline (level : Nat) : Gap (newline level) := by
  intro c hc
  rcases List.mem_cons.1 hc with rfl | hc
  · rfl
  · rw [List.eq_of_mem_replicate hc]; rfl

/-- Parts with separators in between are spelled as a row, if the row ends with one part and
    goes on from one behind a comma. -/
theorem spelled_row {α : Type} (part : α → Part) (row : List α → Part) {gap after : List Char}
    (hlast : ∀ {a text before after}, Gap before → Spelled (part a) text → Gap after →
      Spelled (row [a]) (before ++ text ++ after))
    (hmore : ∀ {a as text before after rest}, Gap before → Spelled (part a) text → Gap after →
      Spelled (row as) rest → Spelled (row (a :: as)) (before ++ text ++ after ++ ',' :: rest))
    (hg : Gap gap) (ha : Gap after) {as : List α} {texts : List (List Char)}
    (h : List.Forall₂ (fun a text => Spelled (part a) text) as texts) (hne : as ≠ []) :
    Spelled (row as) (gap ++ Text.joinWith (',' :: gap) texts ++ after) := by
  induction h with
  | nil => exact absurd rfl hne
  | @cons a text as texts h hs ih =>
    cases hs with
    | nil => exact hlast hg h ha
    | cons =>
      have hrow := hmore hg h gap_nil (ih (by simp))
      simpa [Text.joinWith] using hrow

mutual

/-- A value that is written over several lines. -/
theorem spelled_prettyChars (level : Nat) :
    (v : Json) → v.Proper → Spelled (.value v) (prettyChars level v)
  | .null, _ => .null
  | .bool true, _ => .yes
  | .bool false, _ => .no
  | .number _, h => .number h
  | .string (some s), _ => .string s
  | .array vs, h => by
    cases vs with
    | nil => exact .noItems gap_nil
    | cons v vs =>
      have hitems := spelled_row .value .items .item .items (gap_newline (level + 1))
        (gap_newline level) (spelled_prettyItems (level + 1) (v :: vs) h) (by simp)
      have harray := Spelled.array hitems
      simpa [prettyChars, block, prettyItems] using harray
  | .object ms, h => by
    cases ms with
    | nil => exact .noMembers gap_nil
    | cons m ms =>
      have hmembers := spelled_row .member .members .lastMember .members
        (gap_newline (level + 1)) (gap_newline level)
        (spelled_prettyMembers (level + 1) (m :: ms) h) (by simp)
      have hobject := Spelled.object hmembers
      simpa [prettyChars, block, prettyMembers] using hobject

theorem spelled_prettyItems (level : Nat) : (vs : List Json) → ProperItems vs →
    List.Forall₂ (fun v text => Spelled (.value v) text) vs (prettyItems level vs)
  | [], _ => .nil
  | v :: vs, h => .cons (spelled_prettyChars level v h.1) (spelled_prettyItems level vs h.2)

theorem spelled_prettyMembers (level : Nat) : (ms : List (Option String × Json)) →
    ProperMembers ms →
    List.Forall₂ (fun m text => Spelled (.member m) text) ms (prettyMembers level ms)
  | [], _ => .nil
  | (some name, v) :: ms, h =>
    .cons (by
      have hmember := Spelled.member name gap_nil gap_blank (spelled_prettyChars level v h.2.1)
      simpa [writeString] using hmember) (spelled_prettyMembers level ms h.2.2)

end

end Cuelist.Json
