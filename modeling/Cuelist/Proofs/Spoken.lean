/-
  Which argument of a line is its text.

  An argument is taken for the text if it has none of the labels (`unlabelled`), or if it has a
  label of the format and stands behind another one that named a format: only one format is
  taken, and what comes later with such a label is left for the text (`Spoken`).

  * `Earliest`: the first element of a list for which something holds, of it and of what stands
    before it; `earliest_cons` goes along the list.
  * `Narrate.text_foldl`: reading arguments takes the earliest spoken one for the text.
  * `Narrate.text_of_arguments`: hence the text of an entry that came without one, and when it is
    missing; and the labels alone decide if no label of the format stands behind a format.
  * `Narrate.second_format_spoken`: lines whose text is a label with a name.
-/
import Cuelist.Proofs.Reuse

namespace Cuelist

/-! ## The first element for which something holds -/

section
variable {α : Type} {P : List α → α → Prop} {a c : α} {as : List α}

/-- Whether an element of a list is the first one for which `P` holds, of what stands before the
    element and of the element. -/
def Earliest (P : List α → α → Prop) (as : List α) (a : α) : Prop :=
  ∃ before after, as = before ++ a :: after ∧ P before a ∧
    ∀ x b y, before = x ++ b :: y → ¬P x b

theorem not_earliest_nil : ¬Earliest P [] a := by
  rintro ⟨before, after, hnil, -⟩
  simp at hnil

/-- The first element is the earliest one, or else it stands before all that are looked at. -/
theorem earliest_cons : Earliest P (c :: as) a ↔
    P [] c ∧ a = c ∨ ¬P [] c ∧ Earliest (fun x => P (c :: x)) as a := by
  constructor
  · rintro ⟨before, after, has, ha, hbefore⟩
    cases before with
    | nil =>
      obtain ⟨rfl, -⟩ := List.cons.inj has
      exact .inl ⟨ha, rfl⟩
    | cons d before =>
      obtain ⟨rfl, rfl⟩ := List.cons.inj has
      refine .inr ⟨hbefore [] _ before rfl, before, after, rfl, ha, ?_⟩
      rintro x b y rfl
      exact hbefore (_ :: x) b y rfl
  · rintro (⟨hc, rfl⟩ | ⟨hc, before, after, rfl, ha, hbefore⟩)
    · refine ⟨[], as, rfl, hc, ?_⟩
      intro x b y hnil
      simp at hnil
    · refine ⟨c :: before, after, rfl, ha, ?_⟩
      intro x b y hcons
      cases x with
      | nil =>
        obtain ⟨rfl, -⟩ := List.cons.inj hcons
        exact hc
      | cons d x =>
        obtain ⟨rfl, hrest⟩ := List.cons.inj hcons
        exact hbefore x b y hrest

/-- If what stands before an element makes no difference, the earliest one is found. -/
theorem earliest_iff_find? {p : α → Bool}
    (h : ∀ before b after, as = before ++ b :: after → (P before b ↔ p b = true)) :
    Earliest P as a ↔ as.find? p = some a := by
  rw [List.find?_eq_some_iff_append]
  constructor
  · rintro ⟨before, after, rfl, ha, hbefore⟩
    refine ⟨(h before a after rfl).1 ha, before, after, rfl, ?_⟩
    intro b hb
    obtain ⟨x, y, rfl⟩ := List.append_of_mem hb
    have hmiss := hbefore x b y rfl
    rw [h x b (y ++ a :: after) (by simp)] at hmiss
    simpa using hmiss
  · rintro ⟨ha, before, after, rfl, hbefore⟩
    refine ⟨before, after, rfl, (h before a after rfl).2 ha, ?_⟩
    rintro x b y rfl
    rw [h x b (y ++ a :: after) (by simp)]
    simpa using hbefore b (by simp)

end

namespace Narrate
variable {find : String → Option ActorRef} {scripts : Library}

/-! ## Arguments that are taken for the text -/

/-- Whether an argument names a format that is there. -/
def namesFormat (scripts : Library) (a : Argument) : Bool :=
  a.labelIn formatLabels && (scripts.format? a.value).isSome

/-- Whether an argument has none of the labels. -/
def unlabelled (a : Argument) : Bool :=
  !a.labelIn formatLabels && !a.labelIn targetLabels

/-- Whether an argument that stands behind others is taken for the text, if there is none. -/
def Spoken (scripts : Library) (before : List Argument) (a : Argument) : Prop :=
  a.labelIn targetLabels = false ∧
    (a.labelIn formatLabels = true → before.any (namesFormat scripts) = true)

/-- Behind no format it is the labels that count. -/
theorem spoken_iff_unlabelled {before : List Argument} {a : Argument}
    (h : a.labelIn formatLabels = true → before.any (namesFormat scripts) = false) :
    Spoken scripts before a ↔ unlabelled a = true := by
  unfold Spoken unlabelled
  cases hformat : a.labelIn formatLabels with
  | true => simp [h hformat]
  | false => simp

/-- There is a format once an argument named one. -/
theorem has_format_takeArgument (r : Reading) (a : Argument) :
    (r.takeArgument find scripts a).entry.has "format" =
      (r.entry.has "format" || namesFormat scripts a) := by
  rw [Entry.has_eq, format_takeArgument, namesFormat]
  cases hhas : r.entry.has "format" with
  | true =>
    rw [Entry.has_eq] at hhas
    simp [hhas]
  | false =>
    rw [Entry.has_eq] at hhas
    cases a.labelIn formatLabels with
    | true => simp
    | false => simp [hhas]

/-- What is spoken is taken, and nothing else is. -/
theorem text_takeArgument_of_none (find : String → Option ActorRef) {before : List Argument}
    {r : Reading}
    (hformat : r.entry.has "format" = before.any (namesFormat scripts))
    (htext : r.entry.get? "text" = none) (a : Argument) :
    (Spoken scripts before a →
      (r.takeArgument find scripts a).entry.get? "text" = some (.text a.raw (some "text"))) ∧
    (¬Spoken scripts before a → (r.takeArgument find scripts a).entry.get? "text" = none) := by
  rw [text_takeArgument, hformat, htext, Spoken]
  cases a.labelIn formatLabels <;> cases a.labelIn targetLabels <;>
    cases before.any (namesFormat scripts) <;> simp

/-- **The earliest spoken argument is taken for the text.** -/
theorem text_foldl (as : List Argument) {before : List Argument} {r : Reading}
    (hformat : r.entry.has "format" = before.any (namesFormat scripts))
    (htext : r.entry.get? "text" = none) (v : Value) :
    (as.foldl (Reading.takeArgument find scripts) r).entry.get? "text" = some v ↔
      ∃ a, Earliest (fun x => Spoken scripts (before ++ x)) as a ∧
        v = .text a.raw (some "text") := by
  induction as generalizing before r with
  | nil =>
    rw [List.foldl_nil, htext]
    exact iff_of_false (fun h => nomatch h) fun ⟨_, h, _⟩ => not_earliest_nil h
  | cons c as ih =>
    obtain ⟨hspoken, hunspoken⟩ := text_takeArgument_of_none find hformat htext c
    simp only [earliest_cons, List.append_nil, List.foldl_cons]
    by_cases hc : Spoken scripts before c
    · rw [get?_foldl_of_some (.inr rfl) as (hspoken hc)]
      simp [hc, eq_comm]
    · have hnext : (r.takeArgument find scripts c).entry.has "format" =
          (before ++ [c]).any (namesFormat scripts) := by
        rw [has_format_takeArgument, hformat]
        simp
      rw [ih hnext (hunspoken hc)]
      simp [hc]

/-! ## The main result -/

/-- **The text of a line.**  Let an entry have no more arguments than make sense, and none of the
    objects that a line is made of.  What is read for its text is the first argument that is
    spoken, as it was written; if there is none the text is missing, and reading fails with this
    error and no other.  If no argument with a label of the format stands behind one that names a
    format, then it is the first argument with none of the labels. -/
theorem text_of_arguments {σ : Type} (directory : Directory) (call : Call) {e : Entry} (w : World σ)
    (hlen : e.arguments.length ≤ maxArguments) (hown : ∀ key ∈ lineKeys, e.has key = false) :
    let parsed := (command directory).parse call e w
    let as := e.arguments.map Argument.parse
    let text := Earliest (Spoken call.scripts) as
    (∀ v, parsed.entry.get? "text" = some v ↔ ∃ a, text a ∧ v = .text a.raw (some "text")) ∧
    (parsed.result = .ok () ↔ ∃ a, text a) ∧
    (parsed.result = .error (.invalidArguments "Missing any text!") ↔ ¬∃ a, text a) ∧
    ((∀ before a after, as = before ++ a :: after → a.labelIn formatLabels = true →
        before.any (namesFormat call.scripts) = false) →
      ∀ a, text a ↔ as.find? unlabelled = some a) := by
  intro parsed as text
  have htext : e.get? "text" = none := by simpa [Entry.has_eq] using hown "text" (by decide)
  have hparsed : parsed.entry.get? "text" =
      (taken (directory w.cast) call.scripts e).entry.get? "text" := by
    have hentry : parsed.entry = (read (directory w.cast) call.scripts e).2.entry := rfl
    rw [hentry, read_eq hlen, get?_aimAtSubject (by decide)]
  have hfound : ∀ v, parsed.entry.get? "text" = some v ↔
      ∃ a, text a ∧ v = .text a.raw (some "text") := by
    intro v
    have hformat : e.has "format" = ([] : List Argument).any (namesFormat call.scripts) :=
      hown "format" (by decide)
    rw [hparsed]
    exact text_foldl as (r := ⟨e, []⟩) hformat htext v
  have hresult : parsed.result = if (parsed.entry.get? "text").isSome then .ok ()
      else .error (.invalidArguments "Missing any text!") := by
    have hread : parsed.result = (read (directory w.cast) call.scripts e).1 := rfl
    rw [hread, hparsed, read_eq hlen, Entry.has_eq, get?_aimAtSubject (by decide)]
  have hsome : (parsed.entry.get? "text").isSome = true ↔ ∃ a, text a := by
    rw [Option.isSome_iff_exists]
    simp only [hfound]
    constructor
    · rintro ⟨v, a, ha, -⟩
      exact ⟨a, ha⟩
    · rintro ⟨a, ha⟩
      exact ⟨_, a, ha, rfl⟩
  refine ⟨hfound, ?_, ?_, ?_⟩
  · rw [hresult, ← hsome]
    split
    next h => simp [h]
    next h => simp [h]
  · rw [hresult, ← hsome]
    split
    next h => simp [h]
    next h => simp [h]
  · intro hone a
    exact earliest_iff_find? fun before b after has =>
      spoken_iff_unlabelled (hone before b after has)

/-- A note to an actor, in a format. -/
theorem text_of_arguments_note :
    let scripts := Library.insert {} (.format "shout" "[!] <text>")
    let e := Entry.make ⟨0⟩ .normal "NARRATE" ["f:shout", "T:steve", "Note: hello", "bye"] none
    let parsed := (command fun _ _ => none).parse ⟨"NARRATE", .plain, scripts⟩ e
      (World.start () {} false)
    parsed.result = .ok () ∧
      parsed.entry.get? "text" = some (.text "Note: hello" (some "text")) := by
  intro scripts e parsed
  obtain ⟨htext, hok, -, hlabels⟩ := text_of_arguments (fun _ _ => none)
    ⟨"NARRATE", .plain, scripts⟩ (e := e) (World.start () {} false) (by decide) (by decide)
  -- the only label of the format is that of the first argument, which has nothing before it
  have halone : ∀ before a after, e.arguments.map Argument.parse = before ++ a :: after →
      a.labelIn formatLabels = true → before.any (namesFormat scripts) = false := by
    intro before a after has ha
    cases before with
    | nil => rfl
    | cons b before =>
      have hrest : ∀ a ∈ (e.arguments.map Argument.parse).tail, a.labelIn formatLabels = false := by
        decide
      rw [has, List.cons_append, List.tail_cons] at hrest
      rw [hrest a (by simp)] at ha
      cases ha
  have hspoken := (hlabels halone (Argument.parse "Note: hello")).2 (by decide)
  exact ⟨hok.2 ⟨_, hspoken⟩, (htext _).2 ⟨_, hspoken, rfl⟩⟩

/-- Lines with two labels of the format: the second one is taken for the text, whether or not
    there is an argument without a label. -/
theorem second_format_spoken :
    let scripts := Library.insert {} (.format "shout" "[!] <text>")
    let line (arguments : List String) := Entry.make ⟨0⟩ .normal "NARRATE" arguments none
    let parsed (arguments : List String) := (command fun _ _ => none).parse
      ⟨"NARRATE", .plain, scripts⟩ (line arguments) (World.start () {} false)
    let labels := ["format:shout", "format:whisper"]
    let greeting := ["f:shout", "f:shout", "hello"]
    (∀ arguments ∈ [labels, greeting], arguments.length ≤ maxArguments ∧
      ∀ key ∈ lineKeys, (line arguments).has key = false) ∧
    (labels.map Argument.parse).find? unlabelled = none ∧
      (parsed labels).result = .ok () ∧
      (parsed labels).entry.text? "text" = some "format:whisper" ∧
    (greeting.map Argument.parse).find? unlabelled = some (Argument.parse "hello") ∧
      (parsed greeting).entry.text? "text" = some "f:shout" := by
  decide

end Narrate

end Cuelist
