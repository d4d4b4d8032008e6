/-
  What reading leaves for the work.

  A command reads the arguments of an entry, and then does its work from the objects of the
  entry.  Reading looks only whether there is an object under a key, while the work needs one of
  a kind: a text, or a duration.  What is read is of that kind, so the work can fail only because
  of an object that the entry came with.

  * `Entry.suits`: whether what an entry has under a key, if anything, is of a kind.  Reading
    keeps this (`Narrate.suits_read`, `Wait.suits_read`).
  * `work_after_reading`: once an entry was read, the work comes to an end exactly if the entry
    suited it before.
  * `unsuited_objects_fail`: entries that are read without complaint, and then fail.
-/
import Cuelist.Proofs.Reuse

namespace Cuelist

variable {σ α : Type} {e e' : Entry} {key : String} {kind : Value → Option α}

/-! ## Objects of a kind -/

/-- Whether what an entry has under a key, if anything, is of a kind. -/
def Entry.suits (e : Entry) (key : String) (kind : Value → Option α) : Bool :=
  (e.get? key).all fun v => (kind v).isSome

/-- An object of the kind suits where there was none. -/
theorem Entry.suits_add {v : Value} (h : e.has key = false)
    (hkind : (kind (v.labelled key)).isSome = true) :
    (e.add key v).suits key kind = e.suits key kind := by
  have hnone : e.get? key = none := by simpa [has_eq] using h
  rw [suits, get?_add_same, suits, hnone]
  exact hkind

theorem Entry.suits_congr (h : e'.get? key = e.get? key) :
    e'.suits key kind = e.suits key kind := by
  rw [suits, h, suits]

/-- An object that is there and suits is of the kind. -/
theorem Entry.isSome_bind_get? (h : e.has key = true) :
    ((e.get? key).bind kind).isSome = e.suits key kind := by
  rw [has_eq] at h
  obtain ⟨v, hv⟩ := Option.isSome_iff_exists.1 h
  rw [suits, hv]
  rfl

/-! ## Lines of text -/

namespace Narrate
variable {find : String → Option ActorRef} {scripts : Library}

/-- An argument is taken for the text only if there is none. -/
theorem suits_takeArgument (r : Reading) (a : Argument) :
    (r.takeArgument find scripts a).entry.suits "text" Value.text? =
      r.entry.suits "text" Value.text? := by
  rw [Entry.suits, text_takeArgument, Entry.suits]
  split
  · rfl
  split
  · rfl
  · cases r.entry.get? "text" <;> rfl

/-- **Reading a line keeps whether the text suits.** -/
theorem suits_read (e : Entry) :
    (read find scripts e).2.entry.suits "text" Value.text? = e.suits "text" Value.text? := by
  by_cases hlen : e.arguments.length ≤ maxArguments
  · have htaken : (taken find scripts e).entry.suits "text" Value.text? =
        e.suits "text" Value.text? :=
      List.foldlRecOn (motive := fun r : Reading =>
          r.entry.suits "text" Value.text? = e.suits "text" Value.text?) _ _ rfl
        fun r hr a _ => (suits_takeArgument r a).trans hr
    rw [read_eq hlen, ← htaken]
    exact Entry.suits_congr (get?_aimAtSubject (by decide) _)
  · rw [read_many (Nat.lt_of_not_le hlen)]

/-- A line that was read has something under the key of the text. -/
theorem has_of_read (h : (read find scripts e).1 = .ok ()) :
    (read find scripts e).2.entry.has "text" = true := by
  by_cases hlen : e.arguments.length ≤ maxArguments
  · rw [read_eq hlen] at h ⊢
    simp only at h ⊢
    split at h
    next htext => exact htext
    next => cases h
  · rw [read_many (Nat.lt_of_not_le hlen)] at h
    cases h

/-- The work needs a text, and nothing else. -/
theorem result_execute (directory : Directory) (call : Call) (e : Entry) (w : World σ) :
    ((command directory).execute call e w).result =
      if ((e.get? "text").bind Value.text?).isSome then .ok ()
      else .error (.execution "NARRATE has no text") := by
  simp only [command, work]
  cases (e.get? "text").bind Value.text? <;> rfl

end Narrate

/-! ## Lengths of time -/

namespace Wait

/-- An argument is read only if there is no duration yet. -/
theorem suits_takeArgument {a : Argument} (h : takeArgument e a = .ok e') :
    e'.suits "duration" Value.duration? = e.suits "duration" Value.duration? := by
  unfold takeArgument at h
  split at h
  next => cases h
  next hnew =>
    have hnone : e.has "duration" = false := by simp at hnew; exact hnew.1
    split at h
    next d _ =>
      obtain rfl := Except.ok.inj h
      exact Entry.suits_add hnone rfl
    next => cases h

theorem suits_takeArguments (e : Entry) (as : List Argument) :
    (takeArguments e as).2.suits "duration" Value.duration? =
      e.suits "duration" Value.duration? := by
  fun_induction takeArguments e as with
  | case1 => rfl
  | case2 e a as e' he ih => exact ih.trans (suits_takeArgument he)
  | case3 => rfl

theorem suits_timed (e : Entry) :
    (timed e).suits "duration" Value.duration? = e.suits "duration" Value.duration? := by
  unfold timed
  split
  next => rfl
  next hnone => exact Entry.suits_add (by simpa using hnone) rfl

/-- **Reading a length of time keeps whether the duration suits.** -/
theorem suits_read (e : Entry) :
    (read e).2.suits "duration" Value.duration? = e.suits "duration" Value.duration? := by
  have htaken := suits_takeArguments e (e.arguments.map Argument.parse)
  rcases hread : takeArguments e (e.arguments.map Argument.parse) with ⟨err | _, e'⟩
  · rw [hread] at htaken
    rw [read_of_error hread, ← htaken]
  · rw [hread] at htaken
    rw [read_of_ok hread, ← htaken]
    exact suits_timed e'

theorem has_of_read (h : (read e).1 = .ok ()) : (read e).2.has "duration" = true := by
  rcases hread : takeArguments e (e.arguments.map Argument.parse) with ⟨err | _, e'⟩
  · rw [read_of_error hread] at h
    cases h
  · rw [read_of_ok hread]
    exact has_timed e'

/-- The work needs a duration. -/
theorem result_execute (call : Call) (e : Entry) (w : World σ) :
    (command.execute call e w).result =
      if ((e.get? "duration").bind Value.duration?).isSome then .ok ()
      else .error (.missingArgument "duration") := by
  simp only [command, length]
  cases (e.get? "duration").bind Value.duration? <;> rfl

end Wait

/-! ## The main result -/

/-- **What the work comes to once an entry was read.**  A line of text is sent exactly if the
    entry came without a text, or with one that is a text; a queue is held exactly if the entry
    came without a duration, or with one that is a duration.  Whatever else the entry has and
    says, and whatever happened in between, makes no difference. -/
theorem work_after_reading (directory : Narrate.Directory) (call call' : Call) (e : Entry)
    (w w' : World σ) :
    let narrate : Command σ := Narrate.command directory
    let wait : Command σ := Wait.command
    ((narrate.parse call e w).result = .ok () →
      (narrate.execute call' (narrate.parse call e w).entry w').result =
        if e.suits "text" Value.text? then .ok ()
        else .error (.execution "NARRATE has no text")) ∧
    ((wait.parse call e w).result = .ok () →
      (wait.execute call' (wait.parse call e w).entry w').result =
        if e.suits "duration" Value.duration? then .ok ()
        else .error (.missingArgument "duration")) := by
  intro narrate wait
  constructor
  · intro hread
    have hentry : (narrate.parse call e w).entry =
        (Narrate.read (directory w.cast) call.scripts e).2.entry := rfl
    rw [Narrate.result_execute, hentry, Entry.isSome_bind_get? (Narrate.has_of_read hread),
      Narrate.suits_read]
  · intro hread
    have hentry : (wait.parse call e w).entry = (Wait.read e).2 := rfl
    rw [Wait.result_execute, hentry, Entry.isSome_bind_get? (Wait.has_of_read hread),
      Wait.suits_read]

/-- A greeting that was preset, and a second that was preset. -/
theorem work_after_reading_preset :
    let narrate : Command Unit := Narrate.command fun _ _ => none
    let wait : Command Unit := Wait.command
    let call : Call := ⟨"CUE", .plain, {}⟩
    let w : World Unit := .start () {} false
    let greeting := (Entry.make ⟨0⟩ .normal "NARRATE" ["format:shout"] none).add "text"
      (.ofText "hello")
    let second := (Entry.make ⟨1⟩ .normal "WAIT" [] none).add "duration"
      (.duration (Span.ofMillis 1000))
    (narrate.execute call (narrate.parse call greeting w).entry w).result = .ok () ∧
      (wait.execute call (wait.parse call second w).entry w).result = .ok () := by
  intro narrate wait call w greeting second
  have hnarrate := (work_after_reading (fun _ _ => none) call call greeting w w).1
    (by decide +kernel)
  have hwait := (work_after_reading (fun _ _ => none) call call second w w).2 (by decide +kernel)
  have hgreeting : greeting.suits "text" Value.text? = true := by decide +kernel
  have hsecond : second.suits "duration" Value.duration? = true := by decide +kernel
  rw [if_pos hgreeting] at hnarrate
  rw [if_pos hsecond] at hwait
  exact ⟨hnarrate, hwait⟩

/-- An entry that comes with a number for its text, and one that comes with a text for its
    duration, are read, and then fail. -/
theorem unsuited_objects_fail :
    let narrate : Command Unit := Narrate.command fun _ _ => none
    let wait : Command Unit := Wait.command
    let call : Call := ⟨"CUE", .plain, {}⟩
    let w : World Unit := .start () {} false
    let five := (Entry.make ⟨0⟩ .normal "NARRATE" [] none).add "text" (.integer 5)
    let second := (Entry.make ⟨1⟩ .normal "WAIT" [] none).add "duration" (.ofText "1s")
    (narrate.parse call five w).result = .ok () ∧
      (narrate.execute call (narrate.parse call five w).entry
        (narrate.parse call five w).world).result = .error (.execution "NARRATE has no text") ∧
    (wait.parse call second w).result = .ok () ∧
      (wait.execute call (wait.parse call second w).entry
        (wait.parse call second w).world).result = .error (.missingArgument "duration") := by
  decide +kernel

end Cuelist
