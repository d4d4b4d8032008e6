/-
  Copies of entries that were run.

  A copy has the objects of its entry, and the bundled commands leave objects under keys of
  their own (`bundledKeys`) when they run an entry; nothing else of it changes
  (`Entry.Touched`).  `copies_alike` compares a copy that was made before an entry was run with
  one that was made afterwards:

  * without the objects that were left, both come to the same;
  * a line of text that was sent is sent again, unless a tag stands for what was left;
  * so is a queue held again, for an entry without arguments.

  With arguments it never is (`Wait.copy_fails`): the duration that was left is taken for one
  that was just read.
-/
import Cuelist.Proofs.Argument
import Cuelist.Proofs.Outcome

namespace Cuelist

variable {σ : Type}

/-! ## Keys of the bundled commands -/

/-- The keys under which the bundled commands put objects. -/
def bundledKeys : List String := ["text", "targets", "format", "duration"]

theorem bundledKeys_apart : ∀ key ∈ bundledKeys, ∀ key' ∈ bundledKeys,
    Key.normalize key' = Key.normalize key → key' = key := by
  decide +kernel

/-- The store without the objects under the keys of the bundled commands. -/
def Store.cleared (s : Store) : Store :=
  bundledKeys.foldl Store.erase s

namespace Store
variable {s : Store} {key : String} {v : Value}

theorem foldl_erase (keys : List String) (s : Store) :
    keys.foldl erase s =
      ⟨⟨s.values.pairs.filter fun p => !(keys.map Key.normalize).contains p.1⟩⟩ := by
  induction keys generalizing s with
  | nil => simp
  | cons key keys ih =>
    rw [List.foldl_cons, ih]
    simp only [erase, Index.erase, List.filter_filter, List.map_cons, List.contains_cons,
      Bool.not_or, Bool.and_comm, bne]

theorem cleared_eq (s : Store) :
    s.cleared = ⟨⟨s.values.pairs.filter fun p => !(bundledKeys.map Key.normalize).contains p.1⟩⟩ :=
  foldl_erase bundledKeys s

theorem cleared_insert (h : key ∈ bundledKeys) : (s.insert key v).cleared = s.cleared := by
  have hkey : Key.normalize key ∈ bundledKeys.map Key.normalize := List.mem_map_of_mem h
  rw [cleared_eq, cleared_eq]
  simp only [insert, Index.insert, Index.erase]
  rw [List.filter_cons_of_neg (by simpa using hkey), List.filter_filter]
  congr 2
  refine List.filter_congr fun p _ => ?_
  cases hp : (bundledKeys.map Key.normalize).contains p.1 with
  | true => rfl
  | false =>
    have : p.1 ≠ Key.normalize key := by
      rintro heq
      rw [heq] at hp
      simp [hkey] at hp
    simp [this]

theorem cleared_of_none (h : ∀ key ∈ bundledKeys, s.contains key = false) : s.cleared = s := by
  obtain ⟨⟨ps⟩⟩ := s
  rw [cleared_eq, List.filter_eq_self.2]
  intro p hp
  simp only [Bool.not_eq_true', List.contains_eq_mem, decide_eq_false_iff_not, List.mem_map]
  rintro ⟨key, hkey, heq⟩
  have hnone : List.lookup (Key.normalize key) ps = none := by
    simpa [contains, get?, Index.get?] using h key hkey
  have := List.lookup_eq_none_iff.1 hnone p hp
  simp [heq] at this

end Store

/-- The entry without the objects under the keys of the bundled commands. -/
def Entry.cleared (e : Entry) : Entry :=
  bundledKeys.foldl Entry.remove e

theorem Entry.cleared_eq (e : Entry) : e.cleared = { e with objects := e.objects.cleared } := rfl

/-! ## What running an entry leaves alone -/

/-- Whether two entries differ at most in their arguments and in the objects of the bundled
    commands. -/
structure Entry.Touched (e e' : Entry) : Prop where
  rest : e' = { e with arguments := e'.arguments, objects := e'.objects }
  objects : e'.objects.cleared = e.objects.cleared

namespace Entry.Touched
variable {e e' e'' : Entry} {key : String}

theorem refl (e : Entry) : e.Touched e := ⟨rfl, rfl⟩

theorem trans (h : e.Touched e') (h' : e'.Touched e'') : e.Touched e'' where
  rest := by rw [h'.rest, h.rest]
  objects := h'.objects.trans h.objects

theorem command (h : e.Touched e') : e'.command = e.command := by rw [h.rest]

theorem given (h : e.Touched e') : e'.given = e.given := by rw [h.rest]

theorem subject (h : e.Touched e') : e'.subject = e.subject := by rw [h.rest]

theorem script (h : e.Touched e') : e'.script = e.script := by rw [h.rest]

theorem queue (h : e.Touched e') : e'.queue = e.queue := by rw [h.rest]

theorem add (h : key ∈ bundledKeys) (e : Entry) (v : Value) : e.Touched (e.add key v) :=
  ⟨rfl, Store.cleared_insert h⟩

theorem set (h : key ∈ bundledKeys) (e : Entry) (v : Option Value) : e.Touched (e.set key v) := by
  cases v with
  | none => exact refl e
  | some v => exact add h e v

theorem resolveEntry (r : Resolver) (e : Entry) : e.Touched (Tag.resolveEntry r e).1 := by
  unfold Tag.resolveEntry
  split
  · exact ⟨rfl, rfl⟩
  · exact refl e

/-- Without the objects that were left, a copy is as one of the entry before. -/
theorem cleared_copied (h : e.Touched e') (hown : ∀ key ∈ bundledKeys, e.has key = false)
    (id id' : EntryId) : (e'.copied id').cleared = (e.copied id).withId id' := by
  have hobjects : (e'.copied id').objects.cleared = e.objects :=
    h.objects.trans (Store.cleared_of_none hown)
  rw [Entry.cleared_eq, hobjects, h.rest]
  rfl

end Entry.Touched

namespace Narrate
variable {find : String → Option ActorRef} {scripts : Library}

theorem touched_takeArgument (r : Reading) (a : Argument) :
    r.entry.Touched (r.takeArgument find scripts a).entry := by
  unfold Reading.takeArgument
  split
  · unfold Reading.takeFormat
    split
    · exact .add (by decide) _ _
    · exact .refl _
  split
  · exact .add (by decide) _ _
  split
  · exact .add (by decide) _ _
  · exact .refl _

theorem touched_taken (e : Entry) : e.Touched (taken find scripts e).entry :=
  List.foldlRecOn (motive := fun r : Reading => e.Touched r.entry) _ _ (.refl e)
    fun r hr a _ => hr.trans (touched_takeArgument r a)

theorem touched_aimAtSubject (e : Entry) : e.Touched (aimAtSubject e) := by
  unfold aimAtSubject
  split
  · exact .refl e
  · exact .set (by decide) _ _

theorem touched_read (e : Entry) : e.Touched (read find scripts e).2.entry := by
  by_cases hlen : e.arguments.length ≤ maxArguments
  · rw [read_eq hlen]
    exact (touched_taken e).trans (touched_aimAtSubject _)
  · rw [read_many (Nat.lt_of_not_le hlen)]
    exact .refl e

theorem entry_outcome (directory : Directory) (cast : Cast) (call : Call) (e : Entry) :
    (outcome directory cast call e).entry = (read (directory cast) call.scripts e).2.entry := by
  rcases hread : read (directory cast) call.scripts e with ⟨_ | _, r⟩
  · simp only [outcome, hread]
  · simp only [outcome, hread]
    cases work cast r.entry <;> rfl

end Narrate

namespace Wait

theorem touched_takeArguments (e : Entry) (as : List Argument) :
    e.Touched (takeArguments e as).2 := by
  fun_induction takeArguments e as with
  | case1 => exact .refl _
  | case2 e a as e' he ih =>
    refine .trans ?_ ih
    unfold takeArgument at he
    split at he
    · cases he
    split at he
    · rw [← Except.ok.inj he]
      exact .add (by decide) _ _
    · cases he
  | case3 => exact .refl _

theorem touched_timed (e : Entry) : e.Touched (timed e) := by
  unfold timed
  split
  · exact .refl _
  · exact .add (by decide) _ _

theorem touched_read (e : Entry) : e.Touched (read e).2 := by
  have htake := touched_takeArguments e (e.arguments.map Argument.parse)
  rcases hread : takeArguments e (e.arguments.map Argument.parse) with ⟨err | _, e'⟩
  · rw [hread] at htake
    rw [read_of_error hread]
    exact htake
  · rw [hread] at htake
    rw [read_of_ok hread]
    exact htake.trans (touched_timed _)

theorem entry_outcome (call : Call) (e : Entry) : (outcome call e).entry = (read e).2 := by
  rcases hread : read e with ⟨_ | _, e'⟩
  · simp only [outcome, hread]
  · simp only [outcome, hread]
    cases length e' <;> rfl

end Wait

/-! ## Objects of a line of text -/

namespace Entry
variable {key key' : String}

theorem get?_add_same (e : Entry) (key : String) (v : Value) :
    (e.add key v).get? key = some (v.labelled key) :=
  (Store.get?_insert ..).trans (if_pos rfl)

theorem get?_add_other (h : key ∈ bundledKeys ∧ key' ∈ bundledKeys ∧ key' ≠ key) (e : Entry)
    (v : Value) : (e.add key v).get? key' = e.get? key' :=
  (Store.get?_insert ..).trans (if_neg fun heq => h.2.2 (bundledKeys_apart _ h.1 _ h.2.1 heq))

theorem has_eq (e : Entry) (key : String) : e.has key = (e.get? key).isSome := rfl

/-- Whether an entry repeats the call of another one, with these objects. -/
structure Repeats (e e₀ : Entry) (objects : Store) : Prop where
  arguments : e.arguments = e₀.arguments
  subject : e.subject = e₀.subject
  objects : e.objects = objects

theorem Repeats.get?_eq {e₀ d e : Entry} (h : e.Repeats e₀ d.objects) (key : String) :
    e.get? key = d.get? key := by
  rw [get?, h.objects]
  rfl

end Entry

namespace Narrate
variable {find find' : String → Option ActorRef} {scripts : Library}

/-- A label of the format is none of the targets. -/
theorem labels_apart {a : Argument} (h : a.labelIn formatLabels = true) :
    a.labelIn targetLabels = false := by
  obtain ⟨label, hlabel, hformat⟩ := Argument.labelIn_iff.1 h
  rw [← Bool.not_eq_true]
  intro htarget
  obtain ⟨label', hlabel', htarget⟩ := Argument.labelIn_iff.1 htarget
  obtain rfl : label = label' := Option.some.inj (hlabel.symm.trans hlabel')
  have hapart : ∀ name ∈ Argument.lowerNames formatLabels,
      name ∉ Argument.lowerNames targetLabels := by decide
  exact hapart _ hformat htarget

theorem format_takeArgument (r : Reading) (a : Argument) :
    (r.takeArgument find scripts a).entry.get? "format" =
      if !r.entry.has "format" && a.labelIn formatLabels then
        (scripts.format? a.value).map Value.script
      else r.entry.get? "format" := by
  unfold Reading.takeArgument
  split
  next htake =>
    unfold Reading.takeFormat
    split
    next s hs => rw [hs]; exact Entry.get?_add_same ..
    next hs =>
      rw [hs]
      simpa [Entry.has_eq] using (Bool.and_eq_true_iff.1 htake).1
  split
  · exact Entry.get?_add_other (by decide) _ _
  split
  · exact Entry.get?_add_other (by decide) _ _
  · rfl

theorem text_takeArgument (r : Reading) (a : Argument) :
    (r.takeArgument find scripts a).entry.get? "text" =
      if !r.entry.has "format" && a.labelIn formatLabels then r.entry.get? "text"
      else if a.labelIn targetLabels then r.entry.get? "text"
      else (r.entry.get? "text").or (some (.text a.raw (some "text"))) := by
  unfold Reading.takeArgument
  split
  · unfold Reading.takeFormat
    split
    · exact Entry.get?_add_other (by decide) _ _
    · rfl
  split
  · exact Entry.get?_add_other (by decide) _ _
  split
  next hnone =>
    have : r.entry.get? "text" = none := by simpa [Entry.has_eq] using hnone
    rw [this]
    exact Entry.get?_add_same ..
  next hsome =>
    have : r.entry.get? "text" ≠ none := by simpa [Entry.has_eq] using hsome
    obtain ⟨v, hv⟩ := Option.ne_none_iff_exists'.1 this
    rw [hv]
    rfl

theorem targets_takeArgument (r : Reading) (a : Argument) :
    (r.takeArgument find scripts a).entry.get? "targets" =
      if a.labelIn targetLabels then some (.actors (a.list.filterMap find))
      else r.entry.get? "targets" := by
  unfold Reading.takeArgument
  split
  next hformat =>
    rw [labels_apart (Bool.and_eq_true_iff.1 hformat).2]
    unfold Reading.takeFormat
    split
    · exact Entry.get?_add_other (by decide) _ _
    · rfl
  split
  · exact Entry.get?_add_same ..
  split
  · exact Entry.get?_add_other (by decide) _ _
  · rfl

/-- A format stays, and a text does. -/
theorem get?_foldl_of_some {v : Value} {key : String} (hkey : key = "format" ∨ key = "text")
    (as : List Argument) {r : Reading} (h : r.entry.get? key = some v) :
    (as.foldl (Reading.takeArgument find scripts) r).entry.get? key = some v := by
  refine List.foldlRecOn (motive := fun r : Reading => r.entry.get? key = some v) as _ h
    fun r hr a _ => ?_
  rcases hkey with rfl | rfl
  · rw [format_takeArgument, if_neg (by simp [Entry.has_eq, hr]), hr]
  · rw [text_takeArgument]
    split
    · exact hr
    split
    · exact hr
    · rw [hr]; rfl

/-- Which format is taken depends on the one from before, and not on the actors. -/
theorem format_foldl_congr (as : List Argument) {r r' : Reading}
    (hformat : r'.entry.get? "format" = r.entry.get? "format") :
    (as.foldl (Reading.takeArgument find' scripts) r').entry.get? "format" =
      (as.foldl (Reading.takeArgument find scripts) r).entry.get? "format" := by
  refine List.foldl_rel (r := fun r' r : Reading =>
    r'.entry.get? "format" = r.entry.get? "format") hformat fun a _ r' r h => ?_
  have hhas : r'.entry.has "format" = r.entry.has "format" := by
    rw [Entry.has_eq, h, ← Entry.has_eq]
  rw [format_takeArgument, format_takeArgument, hhas, h]

/-- Which text is taken depends on the format and text from before, and not on the actors. -/
theorem text_foldl_congr (as : List Argument) {r r' : Reading}
    (hformat : r'.entry.get? "format" = r.entry.get? "format")
    (htext : r'.entry.get? "text" = r.entry.get? "text") :
    (as.foldl (Reading.takeArgument find' scripts) r').entry.get? "text" =
      (as.foldl (Reading.takeArgument find scripts) r).entry.get? "text" := by
  induction as generalizing r r' with
  | nil => exact htext
  | cons a as ih =>
    have hhas : r'.entry.has "format" = r.entry.has "format" := by
      rw [Entry.has_eq, hformat, ← Entry.has_eq]
    refine ih ?_ ?_
    · exact format_foldl_congr [a] hformat
    · rw [text_takeArgument, text_takeArgument, hhas, htext]

/-- The targets are those of the last argument that names some. -/
theorem targets_foldl (as : List Argument) (r : Reading) :
    (as.foldl (Reading.takeArgument find scripts) r).entry.get? "targets" =
      ((as.reverse.find? (·.labelIn targetLabels)).map fun a =>
        Value.actors (a.list.filterMap find)).or (r.entry.get? "targets") := by
  induction as generalizing r with
  | nil => rfl
  | cons a as ih =>
    rw [List.foldl_cons, ih, targets_takeArgument, List.reverse_cons, List.find?_append]
    cases as.reverse.find? (·.labelIn targetLabels) with
    | some a' => rfl
    | none => cases ha : a.labelIn targetLabels <;> simp [ha]

theorem targets_aimAtSubject (e : Entry) : (aimAtSubject e).get? "targets" =
    (e.get? "targets").or (e.subject.map fun a => .actors [a]) := by
  unfold aimAtSubject
  rw [Entry.has_eq]
  cases htargets : e.get? "targets" with
  | some v => simpa using htargets
  | none =>
    cases e.subject with
    | none => simpa [Entry.set] using htargets
    | some a => exact Entry.get?_add_same ..

theorem get?_aimAtSubject {key : String} (h : key ∈ bundledKeys ∧ key ≠ "targets") (e : Entry) :
    (aimAtSubject e).get? key = e.get? key := by
  unfold aimAtSubject
  split
  · rfl
  · cases e.subject with
    | none => rfl
    | some a => exact Entry.get?_add_other ⟨by decide, h⟩ _ _

section
variable {e e' : Entry}

theorem taken_of_some {v : Value} {key : String} (hkey : key = "format" ∨ key = "text")
    (h : e.get? key = some v) : (taken find scripts e).entry.get? key = some v :=
  get?_foldl_of_some hkey _ h

theorem taken_format (hargs : e'.arguments = e.arguments)
    (hformat : e'.get? "format" = e.get? "format") :
    (taken find' scripts e').entry.get? "format" = (taken find scripts e).entry.get? "format" := by
  rw [taken, taken, hargs]
  exact format_foldl_congr _ hformat

theorem taken_text (hargs : e'.arguments = e.arguments)
    (hformat : e'.get? "format" = e.get? "format") (htext : e'.get? "text" = e.get? "text") :
    (taken find' scripts e').entry.get? "text" = (taken find scripts e).entry.get? "text" := by
  rw [taken, taken, hargs]
  exact text_foldl_congr _ hformat htext

/-- The targets that arguments name. -/
def targets? (find : String → Option ActorRef) (arguments : List String) : Option Value :=
  ((arguments.map Argument.parse).reverse.find? (·.labelIn targetLabels)).map fun a =>
    .actors (a.list.filterMap find)

theorem taken_targets : (taken find scripts e).entry.get? "targets" =
    (targets? find e.arguments).or (e.get? "targets") :=
  targets_foldl _ _

end

/-- What a line of text is made of. -/
def lineKeys : List String := ["text", "targets", "format"]

theorem work_congr {e e' : Entry} (h : ∀ key ∈ lineKeys, e'.get? key = e.get? key) (cast : Cast) :
    work cast e' = work cast e := by
  simp only [lineKeys, List.forall_mem_cons] at h
  simp only [work, h.1, h.2.1, h.2.2.1]

section
variable {look : String → Option ActorRef} {e₀ e₁ e₂ : Entry}

/-- A text that was found is found in both. -/
theorem text_again (h₁ : e₁.Repeats e₀ e₀.objects)
    (h₂ : e₂.Repeats e₀ (aimAtSubject (taken find scripts e₀).entry).objects) {text : Value}
    (htext : (taken find scripts e₀).entry.get? "text" = some text) :
    (taken look scripts e₁).entry.get? "text" = some text ∧
      (taken look scripts e₂).entry.get? "text" = some text := by
  constructor
  · exact (taken_text h₁.arguments (h₁.get?_eq _) (h₁.get?_eq _)).trans htext
  · refine taken_of_some (.inr rfl) ((h₂.get?_eq "text").trans ?_)
    rw [get?_aimAtSubject (by decide), htext]

/-- A format that was found stays, and there is none if none was found. -/
theorem format_again (h₁ : e₁.Repeats e₀ e₀.objects)
    (h₂ : e₂.Repeats e₀ (aimAtSubject (taken find scripts e₀).entry).objects)
    (hnone : e₀.get? "format" = none) :
    (taken look scripts e₂).entry.get? "format" = (taken look scripts e₁).entry.get? "format" := by
  have hfound : (taken look scripts e₁).entry.get? "format" =
      (taken find scripts e₀).entry.get? "format" := taken_format h₁.arguments (h₁.get?_eq _)
  have hleft : e₂.get? "format" = (taken find scripts e₀).entry.get? "format" :=
    (h₂.get?_eq "format").trans (get?_aimAtSubject (by decide) _)
  rw [hfound]
  cases hformat : (taken find scripts e₀).entry.get? "format" with
  | some v => exact taken_of_some (.inl rfl) (hleft.trans hformat)
  | none =>
    rw [← hformat]
    exact taken_format h₂.arguments ((hleft.trans hformat).trans hnone.symm)

/-- The targets are named again, or they are the subject again. -/
theorem targets_again (h₁ : e₁.Repeats e₀ e₀.objects)
    (h₂ : e₂.Repeats e₀ (aimAtSubject (taken find scripts e₀).entry).objects)
    (hnone : e₀.get? "targets" = none) :
    (aimAtSubject (taken look scripts e₂).entry).get? "targets" =
      (aimAtSubject (taken look scripts e₁).entry).get? "targets" := by
  have hsubject : (taken find scripts e₀).entry.subject = e₀.subject := (touched_taken e₀).subject
  have hsubject₁ : (taken look scripts e₁).entry.subject = e₀.subject :=
    (touched_taken e₁).subject.trans h₁.subject
  have hsubject₂ : (taken look scripts e₂).entry.subject = e₀.subject :=
    (touched_taken e₂).subject.trans h₂.subject
  have hfresh : e₁.get? "targets" = none := (h₁.get?_eq _).trans hnone
  have hleft : e₂.get? "targets" = (aimAtSubject (taken find scripts e₀).entry).get? "targets" :=
    h₂.get?_eq _
  simp only [targets_aimAtSubject, taken_targets, hleft, hfresh, hnone, hsubject, hsubject₁,
    hsubject₂, h₁.arguments, h₂.arguments, targets?]
  cases (e₀.arguments.map Argument.parse).reverse.find? (·.labelIn targetLabels) with
  | some a => rfl
  | none => cases e₀.subject <;> rfl

/-- **A line of text is read again** from the objects that were left by a reading that came to
    an end, as it is read from none. -/
theorem read_again {d : Reading} (look : String → Option ActorRef)
    (hread : read find scripts e₀ = (.ok (), d)) (hnone : ∀ key ∈ lineKeys, e₀.get? key = none)
    (h₁ : e₁.Repeats e₀ e₀.objects) (h₂ : e₂.Repeats e₀ d.entry.objects) :
    (read look scripts e₁).1 = .ok () ∧ (read look scripts e₂).1 = .ok () ∧
      ∀ key ∈ lineKeys, (read look scripts e₂).2.entry.get? key =
        (read look scripts e₁).2.entry.get? key := by
  have hlen : e₀.arguments.length ≤ maxArguments := by
    by_contra hlen
    rw [read_many (Nat.lt_of_not_le hlen)] at hread
    cases hread
  rw [read_eq hlen, Prod.mk.injEq] at hread
  obtain ⟨hok, rfl⟩ := hread
  obtain ⟨text, htext⟩ : ∃ v, (taken find scripts e₀).entry.get? "text" = some v := by
    rw [Entry.has_eq, get?_aimAtSubject (by decide)] at hok
    cases htext : (taken find scripts e₀).entry.get? "text" with
    | none => rw [htext] at hok; cases hok
    | some v => exact ⟨v, rfl⟩
  have ⟨htext₁, htext₂⟩ : (taken look scripts e₁).entry.get? "text" = some text ∧
      (taken look scripts e₂).entry.get? "text" = some text := text_again h₁ h₂ htext
  have hread : ∀ r : Reading, r.entry.get? "text" = some text →
      (aimAtSubject r.entry).has "text" = true := fun r hr => by
    rw [Entry.has_eq, get?_aimAtSubject (by decide), hr]
    rfl
  rw [read_eq (by rwa [h₁.arguments]), read_eq (by rwa [h₂.arguments])]
  refine ⟨if_pos (hread _ htext₁), if_pos (hread _ htext₂), ?_⟩
  simp only [lineKeys, List.forall_mem_cons]
  refine ⟨?_, targets_again h₁ h₂ (hnone _ (by decide)), ?_, by simp⟩
  · simp only [@get?_aimAtSubject "text" (by decide), htext₁, htext₂]
  · simp only [@get?_aimAtSubject "format" (by decide)]
    exact format_again h₁ h₂ (hnone _ (by decide))

end

/-- What is made of readings of the same line of text. -/
theorem outcome_again {directory : Directory} {cast : Cast} (call : Call)
    (hr : call.reporter.Impartial) {e₁ e₂ : Entry}
    (hread₁ : (read (directory cast) call.scripts e₁).1 = .ok ())
    (hread₂ : (read (directory cast) call.scripts e₂).1 = .ok ())
    (hsame : ∀ key ∈ lineKeys, (read (directory cast) call.scripts e₂).2.entry.get? key =
      (read (directory cast) call.scripts e₁).2.entry.get? key)
    (hscript : e₂.script = e₁.script) (hqueue : e₂.queue = e₁.queue) :
    (outcome directory cast call e₂).result = (outcome directory cast call e₁).result ∧
      (outcome directory cast call e₂).events.filter Event.isNews =
        (outcome directory cast call e₁).events.filter Event.isNews := by
  have htouched₁ : e₁.Touched (read (directory cast) call.scripts e₁).2.entry := touched_read e₁
  have htouched₂ : e₂.Touched (read (directory cast) call.scripts e₂).2.entry := touched_read e₂
  rcases h₁ : read (directory cast) call.scripts e₁ with ⟨result₁, r₁⟩
  rcases h₂ : read (directory cast) call.scripts e₂ with ⟨result₂, r₂⟩
  simp only [h₁, h₂] at hread₁ hread₂ hsame htouched₁ htouched₂
  have hevents : Effect.events call r₂.entry = Effect.events call r₁.entry :=
    Effect.events_congr hr (by rw [htouched₁.script, htouched₂.script, hscript])
      (by rw [htouched₁.queue, htouched₂.queue, hqueue])
  simp only [outcome, h₁, h₂, hread₁, hread₂, work_congr hsame, hevents]
  cases work cast r₁.entry with
  | error err => exact ⟨rfl, by rw [hr.news_errors, hr.news_errors]⟩
  | ok effects =>
    simp only [List.filter_append, hr.news_errors, and_self]

theorem read_of_outcome_ok {directory : Directory} {cast : Cast} {call : Call} {e : Entry}
    (h : (outcome directory cast call e).result = .ok ()) :
    (read (directory cast) call.scripts e).1 = .ok () := by
  rcases hread : read (directory cast) call.scripts e with ⟨err | _, r⟩
  · simp only [outcome, hread] at h
    cases h
  · rfl

end Narrate

/-! ## Running an entry -/

/-- Whether a command has outcomes that do not depend on the identity of the entry, and puts
    objects only under the keys of the bundled commands. -/
structure Executor.Settles (x : Executor σ) (c : Command σ)
    (outcome : Cast → Call → Entry → Outcome) : Prop where
  has : ∀ e w, (x.perform c e w).Has w (outcome w.cast ⟨e.command, x.reporter, x.scripts⟩ e)
  blind : ∀ cast call (e : Entry) id, call.reporter.Impartial →
    outcome cast call (e.withId id) = (outcome cast call e).withId id
  touched : ∀ cast call (e : Entry), e.Touched (outcome cast call e).entry

section
variable {x : Executor σ} {c : Command σ} {o : Cast → Call → Entry → Outcome} {e : Entry}

theorem Narrate.settles (directory : Directory) :
    x.Settles (command directory) (outcome directory) where
  has := perform_has directory
  blind cast call e id hr := outcome_withId id directory cast hr e
  touched cast call e := by rw [entry_outcome]; exact touched_read e

theorem Wait.settles : x.Settles command fun _ => outcome where
  has := perform_has
  blind cast call e id hr := outcome_withId id hr e
  touched cast call e := by rw [entry_outcome]; exact touched_read e

namespace Executor.Settles

theorem dispatch_has (hs : x.Settles c o) (hl : x.registry.lookup e.command = .ok c)
    (w : World σ) : (x.dispatch e w).Has w
      ((o w.cast ⟨e.command, x.reporter, x.scripts⟩
        (Tag.resolveEntry x.resolver e).1).after (x.warned e)) := by
  have hcommand := (Entry.Touched.resolveEntry x.resolver e).command
  have hdone := Executor.dispatch_has hs.has (e := e) (by rwa [hcommand]) w
  rwa [hcommand] at hdone

theorem touched_dispatch (hs : x.Settles c o) (hl : x.registry.lookup e.command = .ok c)
    (w : World σ) : e.Touched (x.dispatch e w).entry := by
  rw [(hs.dispatch_has hl w).entry]
  exact (Entry.Touched.resolveEntry x.resolver e).trans (hs.touched _ _ _)

/-- The identity of an entry makes no difference. -/
theorem agrees_withId (hs : x.Settles c o) (hr : x.reporter.Impartial)
    (hl : x.registry.lookup e.command = .ok c) {w w' : World σ} (hcast : w'.cast = w.cast)
    (id : EntryId) :
    (x.dispatch e w).Agrees (fun _ => true) w w' (x.dispatch (e.withId id) w') := by
  have hdone' := hs.dispatch_has (e := e.withId id) hl w'
  rw [Tag.resolveEntry_withId, hcast, hs.blind _ _ _ _ hr] at hdone'
  refine (hs.dispatch_has hl w).agrees hdone' rfl ?_
  simp only [Outcome.after, Outcome.withId, Executor.warned, Tag.resolveEntry_withId]
  rfl

/-- What was left makes the only difference between copies. -/
theorem agrees_cleared (hs : x.Settles c o) (hr : x.reporter.Impartial)
    (hl : x.registry.lookup e.command = .ok c) (hown : ∀ key ∈ bundledKeys, e.has key = false)
    {u v v' : World σ} (hcast : v'.cast = v.cast) (id id' : EntryId) :
    (x.dispatch (e.copied id) v).Agrees (fun _ => true) v v'
      (x.dispatch ((x.dispatch e u).entry.copied id').cleared v') := by
  rw [(hs.touched_dispatch hl u).cleared_copied hown id id']
  exact hs.agrees_withId (e := e.copied id) hr hl hcast id'

end Executor.Settles

theorem Tag.objects_resolveEntry (r : Resolver) (e : Entry) :
    (resolveEntry r e).1.objects = e.objects := by
  unfold resolveEntry
  split <;> rfl

/-- Filling the tags of the same call is the same call again, if the tags have the same values. -/
theorem Tag.repeats_resolveEntry {r : Resolver} {e e' : Entry} (hgiven : e'.given = e.given)
    (hargs : e'.arguments = e.arguments) (hsubject : e'.subject = e.subject)
    (hsame : ∀ argument ∈ e.arguments, r e'.scope argument = r e.scope argument) :
    (resolveEntry r e').1.Repeats (resolveEntry r e).1 e'.objects where
  arguments := by
    have hsettled : e.arguments.map (settle r e'.scope) = e.arguments.map (settle r e.scope) :=
      List.map_congr_left fun argument h => by simp only [settle, hsame argument h]
    have htags : e'.hasTags = e.hasTags := by rw [Entry.hasTags, hgiven, Entry.hasTags]
    simp only [resolveEntry, htags, hargs, hsettled]
    split
    · rfl
    · exact hargs
  subject := by
    have hresolve := Entry.Touched.resolveEntry r
    rw [(hresolve e').subject, (hresolve e).subject, hsubject]
  objects := objects_resolveEntry r e'

theorem Tag.length_resolveEntry (r : Resolver) (e : Entry) :
    (resolveEntry r e).1.arguments.length = e.arguments.length := by
  unfold resolveEntry
  split
  · simp [Entry.setArguments]
  · rfl

theorem Tag.resolveEntry_nil {e : Entry} (h : e.given = []) (r : Resolver) :
    resolveEntry r e = (e, []) := by
  have htags : e.hasTags = false := by rw [Entry.hasTags, h]; rfl
  simp [resolveEntry, htags]

/-- The news of an outcome do not come from the tags. -/
theorem Outcome.news_after (hr : x.reporter.Impartial) (o : Outcome) (e : Entry) :
    (o.after (x.warned e)).events.filter Event.isNews = o.events.filter Event.isNews := by
  rw [Outcome.after, List.filter_append, Executor.warned, hr.news_warnings, List.nil_append]

theorem Narrate.get?_resolveEntry_of_own {r : Resolver}
    (hown : ∀ key ∈ bundledKeys, e.has key = false) :
    ∀ key ∈ lineKeys, (Tag.resolveEntry r e).1.get? key = none := by
  intro key hkey
  have hkeys : ∀ key ∈ lineKeys, key ∈ bundledKeys := by decide
  have hnone : e.get? key = none := by simpa [Entry.has_eq] using hown key (hkeys key hkey)
  rw [Entry.get?, Tag.objects_resolveEntry]
  exact hnone

/-- **A line of text that was sent is sent again.** -/
theorem Narrate.agrees_again {directory : Directory} {u v v' : World σ} (id id' : EntryId)
    (hr : x.reporter.Impartial) (hl : x.registry.lookup e.command = .ok (command directory))
    (hown : ∀ key ∈ bundledKeys, e.has key = false) (hargs : e.arguments = e.given)
    (hdone : (x.dispatch e u).result = .ok ())
    (hsame : ∀ argument ∈ e.given, x.resolver ((x.dispatch e u).entry.copied id').scope argument =
      x.resolver (e.copied id).scope argument) (hcast : v'.cast = v.cast) :
    (x.dispatch (e.copied id) v).Agrees Event.isNews v v'
      (x.dispatch ((x.dispatch e u).entry.copied id') v') := by
  have hs : x.Settles (command directory) (outcome directory) := settles directory
  have hhas := hs.dispatch_has hl u
  have htouched : e.Touched (x.dispatch e u).entry := hs.touched_dispatch hl u
  have hentry := hhas.entry.trans (entry_outcome _ _ _ _)
  have hok := read_of_outcome_ok (hhas.result.symm.trans hdone)
  generalize (x.dispatch e u).entry = d at *
  have hl' : x.registry.lookup (d.copied id').command = .ok (command directory) := by
    rw [← hl, ← htouched.command]; rfl
  have hA := hs.dispatch_has (e := e.copied id) hl v
  have hB := hs.dispatch_has hl' v'
  have hresolve := Entry.Touched.resolveEntry x.resolver
  have hrepeats₁ : (Tag.resolveEntry x.resolver (e.copied id)).1.Repeats
      (Tag.resolveEntry x.resolver e).1 e.objects :=
    Tag.repeats_resolveEntry rfl hargs.symm rfl fun _ _ => rfl
  have hrepeats₂ : (Tag.resolveEntry x.resolver (d.copied id')).1.Repeats
      (Tag.resolveEntry x.resolver e).1 d.objects :=
    Tag.repeats_resolveEntry htouched.given (htouched.given.trans hargs.symm) htouched.subject
      (hargs ▸ hsame)
  rw [← Tag.objects_resolveEntry x.resolver e] at hrepeats₁
  rw [congrArg Entry.objects hentry] at hrepeats₂
  obtain ⟨hread₁, hread₂, hgets⟩ := read_again (directory v.cast) (Prod.ext hok rfl)
    (get?_resolveEntry_of_own hown) hrepeats₁ hrepeats₂
  obtain ⟨hresult, hevents⟩ := outcome_again ⟨e.command, x.reporter, x.scripts⟩ hr hread₁
    hread₂ hgets (by rw [(hresolve _).script, (hresolve _).script]; exact htouched.script)
    (by rw [(hresolve _).queue, (hresolve _).queue]; rfl)
  have hcommand : (d.copied id').command = e.command := htouched.command
  rw [hcast, hcommand] at hB
  exact hA.agrees hB hresult (by rw [Outcome.news_after hr, Outcome.news_after hr]; exact hevents)

theorem Wait.has_timed (e : Entry) : (timed e).has "duration" = true := by
  unfold timed
  split
  next h => exact h
  next => rw [Entry.has_eq, Entry.get?_add_same]; rfl

theorem Wait.has_of_outcome_ok {call : Call} (h : (outcome call e).result = .ok ()) :
    (outcome call e).entry.has "duration" = true := by
  rw [entry_outcome]
  rcases hread : takeArguments e (e.arguments.map Argument.parse) with ⟨err | _, e'⟩
  · simp only [outcome, read_of_error hread] at h
    cases h
  · rw [read_of_ok hread]
    exact has_timed e'

/-- **A copy of an entry that held its queue fails** if the call has arguments: the first one
    is taken for a second duration. -/
theorem Wait.copy_fails {u v : World σ} (id : EntryId)
    (hl : x.registry.lookup e.command = .ok command) (hgiven : e.given ≠ [])
    (hdone : (x.dispatch e u).result = .ok ()) :
    ∃ argument : String, (x.dispatch ((x.dispatch e u).entry.copied id) v).result =
      .error (.invalidArguments s!"Unknown argument '{argument}'") := by
  have hs : x.Settles command fun _ => outcome := settles
  have hhas := hs.dispatch_has hl u
  have htouched : e.Touched (x.dispatch e u).entry := hs.touched_dispatch hl u
  have hduration : (x.dispatch e u).entry.has "duration" = true := by
    rw [hhas.entry]
    exact has_of_outcome_ok (hhas.result.symm.trans hdone)
  generalize (x.dispatch e u).entry = d at *
  have hl' : x.registry.lookup (d.copied id).command = .ok command := by
    rw [← hl, ← htouched.command]; rfl
  rw [(hs.dispatch_has hl' v).result]
  have hhas' : (Tag.resolveEntry x.resolver (d.copied id)).1.has "duration" = true := by
    rw [Entry.has, Tag.objects_resolveEntry]; exact hduration
  have hlength := (Tag.length_resolveEntry x.resolver (d.copied id)).trans
    (congrArg List.length htouched.given)
  generalize (Tag.resolveEntry x.resolver (d.copied id)).1 = e' at *
  cases hargs : e'.arguments with
  | nil => rw [hargs] at hlength; exact absurd (List.eq_nil_of_length_eq_zero hlength.symm) hgiven
  | cons argument rest =>
    refine ⟨(Argument.parse argument).raw, ?_⟩
    have hread : takeArguments e' (e'.arguments.map Argument.parse) =
        (.error (.invalidArguments s!"Unknown argument '{(Argument.parse argument).raw}'"), e') := by
      simp [hargs, takeArguments, takeArgument, hhas']
    simp only [Outcome.after, outcome, read_of_error hread]

theorem Wait.length_timed (hduration : ∀ v, e.get? "duration" = some v →
    v = .duration standardDuration) : length (timed e) = .ok standardDuration := by
  have hget : (timed e).get? "duration" = some (.duration standardDuration) := by
    unfold timed
    split
    next hhas =>
      obtain ⟨v, hv⟩ := Option.isSome_iff_exists.1 hhas
      exact hduration v hv ▸ hv
    next => exact Entry.get?_add_same ..
  rw [length, hget]
  rfl

/-- What comes of an entry without arguments, unless another duration was left. -/
theorem Wait.dispatch_nil (hl : x.registry.lookup e.command = .ok command) (hgiven : e.given = [])
    (hargs : e.arguments = [])
    (hduration : ∀ v, e.get? "duration" = some v → v = .duration standardDuration) (w : World σ) :
    (x.dispatch e w).Has w ⟨.ok (), timed e, x.reporter.events
      (.summary (timed e) e.command (reportPart "Duration" standardDuration.render))⟩ := by
  have hs : x.Settles command fun _ => outcome := settles
  have hdone := hs.dispatch_has hl w
  have hread : takeArguments e (e.arguments.map Argument.parse) = (.ok (), e) := by
    rw [hargs]; rfl
  simpa only [Executor.warned, Tag.resolveEntry_nil hgiven, Outcome.after,
    List.flatMap_nil, List.nil_append, outcome, read_of_ok hread, length_timed hduration] using hdone

/-- **A queue that was held is held again**, if there are no arguments. -/
theorem Wait.agrees_again {u v v' : World σ} (id id' : EntryId) (hr : x.reporter.Impartial)
    (hl : x.registry.lookup e.command = .ok command) (hown : e.has "duration" = false)
    (hgiven : e.given = []) (hargs : e.arguments = []) :
    (x.dispatch (e.copied id) v).Agrees (fun _ => true) v v'
      (x.dispatch ((x.dispatch e u).entry.copied id') v') := by
  have hnone : e.get? "duration" = none := by simpa [Entry.has_eq] using hown
  have hfresh : ∀ v, e.get? "duration" = some v → v = .duration standardDuration := by simp [hnone]
  have hleft : (x.dispatch e u).entry = e.add "duration" (.duration standardDuration) := by
    rw [(dispatch_nil hl hgiven hargs hfresh u).entry]
    simp [timed, hown]
  rw [hleft]
  have hA := dispatch_nil (e := e.copied id) hl hgiven hgiven hfresh v
  have hB := dispatch_nil (e := (e.add "duration" (.duration standardDuration)).copied id') hl hgiven
    hgiven (fun v hv => (Option.some.inj (hv.symm.trans (Entry.get?_add_same ..)))) v'
  refine hA.agrees hB rfl (congrArg _ (hr.summary _ _ _ _ ?_ ?_))
  · rw [(touched_timed _).script, (touched_timed _).script]
    rfl
  · rw [(touched_timed _).queue, (touched_timed _).queue]
    rfl

/-- **Copies of an entry that was run.**  Let `a` be a copy of an entry that has none of the
    objects of the bundled commands, and `b` one that was made after the entry was run.  Among
    the same actors `b` comes to the same as `a` without the objects that were left.  A line of
    text that was sent is sent again with the same summary, if it was read from the arguments of
    the call and no tag stands for what was left.  A queue that was held without arguments is
    held again. -/
theorem copies_alike (directory : Narrate.Directory) (hr : x.reporter.Impartial)
    (hown : ∀ key ∈ bundledKeys, e.has key = false) (w u w' v v' : World σ)
    (hcast : v'.cast = v.cast) :
    let a := (w.duplicate e).1
    let b := (w'.duplicate (x.dispatch e u).entry).1
    (x.registry.lookup e.command = .ok (Narrate.command directory) ∨
        x.registry.lookup e.command = .ok Wait.command →
      (x.dispatch a v).Agrees (fun _ => true) v v' (x.dispatch b.cleared v')) ∧
    (x.registry.lookup e.command = .ok (Narrate.command directory) → e.arguments = e.given →
      (x.dispatch e u).result = .ok () →
      (∀ argument ∈ e.given, x.resolver b.scope argument = x.resolver a.scope argument) →
      (x.dispatch a v).Agrees Event.isNews v v' (x.dispatch b v')) ∧
    (x.registry.lookup e.command = .ok Wait.command → e.given = [] → e.arguments = [] →
      (x.dispatch a v).Agrees (fun _ => true) v v' (x.dispatch b v')) := by
  intro a b
  refine ⟨fun hl => ?_, fun hl hargs hdone hsame => ?_, fun hl hgiven hargs => ?_⟩
  · rcases hl with hl | hl
    · exact (Narrate.settles directory).agrees_cleared hr hl hown hcast _ _
    · exact Wait.settles.agrees_cleared hr hl hown hcast _ _
  · exact Narrate.agrees_again _ _ hr hl hown hargs hdone hsame hcast
  · exact Wait.agrees_again _ _ hr hl (hown "duration" (by decide)) hgiven hargs

end

/-! ## Among no actors -/

theorem Registry.lookup_narrate (directory : Narrate.Directory) {name : String}
    (h : Key.normalize name = "NARRATE") :
    (Registry.empty.withBundled directory).lookup name =
      .ok (Narrate.command (σ := σ) directory) := by
  have hwait : "NARRATE" ≠ Key.normalize "wait" := by decide +kernel
  have hnarrate : "NARRATE" = Key.normalize "narrate" := by decide +kernel
  simp only [lookup, withBundled, register, h, Index.get?_insert, if_neg hwait, if_pos hnarrate]

/-- A greeting that was sent is sent again. -/
theorem copies_alike_hello :
    let x := Executor.deserted {}
    let w : World Unit := .start () {} false
    let e := Entry.make ⟨0⟩ .normal "NARRATE" ["hello"] none
    (x.dispatch (w.duplicate e).1 w).Agrees Event.isNews w w
      (x.dispatch (w.duplicate (x.dispatch e w).entry).1 w) := by
  intro x w e
  have hsame : ∀ scope, Tag.resolve scope "hello" = .ok "hello" := by
    intro scope
    have hplain : Text.cut '<' "hello".toList = none := by decide
    have hfill : Tag.fill scope "hello".toList = some ("hello".toList, []) := by
      rw [Tag.fill, hplain]
    rw [Tag.resolve, hfill]
    simp
  exact (copies_alike (fun _ _ => none) Reporter.plain_impartial (by decide) w w w w w
    rfl).2.1 (Registry.lookup_narrate _ (by decide +kernel)) rfl (by decide +kernel)
    (by rintro argument (_ | ⟨_, ⟨⟩⟩); exact (hsame _).trans (hsame _).symm)

/-- Copies that were made after the run come to something else: a duration is taken for a second
    one, and a label without a text for the text. -/
theorem copies_differ :
    let x := Executor.deserted (Library.insert {} (.format "shout" "[!] <text>"))
    let w : World Unit := .start () {} false
    let wait := Entry.make ⟨0⟩ .normal "WAIT" ["2s"] none
    let label := Entry.make ⟨0⟩ .normal "NARRATE" ["format:shout"] none
    let before (e : Entry) := (x.dispatch (w.duplicate e).1 w).result
    let after (e : Entry) := (x.dispatch (w.duplicate (x.dispatch e w).entry).1 w).result
    (∀ key ∈ bundledKeys, wait.has key = false ∧ label.has key = false) ∧
      before wait = .ok () ∧
        after wait = .error (.invalidArguments "Unknown argument '2s'") ∧
      before label = .error (.invalidArguments "Missing any text!") ∧ after label = .ok () := by
  decide +kernel

end Cuelist
