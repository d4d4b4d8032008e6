/-
  Names in canonical form.

  * `Key.normalize_normalize`: the canonical form of a name is canonical.
  * `QueueId.canonical_ofName`, `Script.canonical_task`, `Script.canonical_format`: what the
    constructors name is named canonically.  What is read from JSON is not: it has the name
    that is spelled there (`QueueId.ofJson?_eq_some`, `Script.spelled_of_ofJson?`).
  * `Library.get?_insert_of_canonical`: a script with a canonical name is found under its
    name; `Library.get?_insert_of_not_canonical`: one without is never found.
  * `World.Boarded.run`: if the queues on the board were named canonically, no two of them
    have names with the same canonical form.
-/
import Mathlib.Logic.Relation
import Cuelist.Board
import Cuelist.Json.Reader
import Cuelist.Proofs.Text.Case
import Cuelist.Queue.Forms
import Cuelist.Script

namespace Cuelist

/-! ## Canonical names -/

/-- Whether a name is its own canonical form. -/
def Key.Canonical (name : String) : Prop :=
  Key.normalize name = name

instance (name : String) : Decidable (Key.Canonical name) :=
  inferInstanceAs (Decidable (_ = _))

/-- **The canonical form of a name is canonical.** -/
theorem Key.normalize_normalize (name : String) :
    Key.Canonical (Key.normalize name) := by
  simp [Key.Canonical, Key.normalize, Text.upper_upper]

theorem Key.upper_of_mem {name : String} (h : Key.Canonical name) {c : Char}
    (hc : c ∈ name.toList) : Text.Upper c.toNat := by
  rw [← h, Key.normalize, String.toList_ofList] at hc
  obtain ⟨d, -, hd⟩ := List.mem_flatMap.1 hc
  exact Text.upper_of_mem_upperChar hd

theorem QueueId.canonical_ofName (name : String) : Key.Canonical (QueueId.ofName name).text :=
  Key.normalize_normalize name

theorem Script.canonical_task (name : String) (debug : Bool) :
    Key.Canonical ((Script.task name).withDebug debug).name :=
  Key.normalize_normalize name

theorem Script.canonical_format (name template : String) (debug : Bool) :
    Key.Canonical ((Script.format name template).withDebug debug).name :=
  Key.normalize_normalize name

/-! ## Names from JSON -/

theorem QueueId.ofJson?_eq_some {v : Json} {id : QueueId} :
    QueueId.ofJson? v = some id ↔ v.string? = some id.text := by
  obtain ⟨text⟩ := id
  simp [QueueId.ofJson?]

/-- The name that the JSON form of a script spells. -/
def Script.spelled? (v : Json) : Option String :=
  (Json.fields? ["name", "debug", "kind"] v).bind fun members =>
    members.head?.bind (Json.required? Json.string?)

theorem Script.spelled_of_ofJson? {v : Json} {s : Script} (h : Script.ofJson? v = some s) :
    Script.spelled? v = some s.name := by
  simp only [Script.ofJson?, Option.bind_eq_bind, Option.bind_eq_some_iff] at h
  obtain ⟨members, hmembers, h⟩ := h
  split at h
  next name debug kind =>
    simp only [Option.bind_eq_some_iff, Option.some.injEq] at h
    obtain ⟨text, htext, _, _, _, _, rfl⟩ := h
    simp [Script.spelled?, hmembers, htext]
  next => cases h

/-! ## Libraries -/

theorem Script.unmarked_display (s : Script) : Script.unmarked s.display = s.name := by
  simp [Script.unmarked, Script.display, Text.after?]

/-- The mark of scripts is a small letter. -/
theorem Script.unmarked_of_canonical {name : String} (h : Key.Canonical name) :
    Script.unmarked name = name := by
  have hnone : Text.after? ['s', '@'] name.toList = none := by
    cases hname : name.toList with
    | nil => rfl
    | cons c cs =>
      have hc : 's' ≠ c := by
        rintro rfl
        have hmem : 's' ∈ name.toList := by rw [hname]; exact .head _
        have hsmall := (Key.upper_of_mem h hmem).unshifted ⟨97, 122, 1, -32⟩ (.head _)
        revert hsmall
        decide
      simp [Text.after?, hc]
  simp [Script.unmarked, hnone]

namespace Library
variable {s : Script}

theorem get?_insert (l : Library) (s : Script) (name : String) :
    (l.insert s).get? name =
      if Key.normalize (Script.unmarked name) = s.name then some s else l.get? name :=
  Index.get?_insert ..

theorem get?_insert_of_canonical (l : Library) (h : Key.Canonical s.name) :
    (l.insert s).get? s.name = some s ∧ (l.insert s).get? s.display = some s := by
  constructor
  · rw [get?_insert, Script.unmarked_of_canonical h, h, if_pos rfl]
  · rw [get?_insert, Script.unmarked_display, h, if_pos rfl]

/-- A script whose name is not canonical is put out of reach. -/
theorem get?_insert_of_not_canonical (l : Library) (h : ¬Key.Canonical s.name) (name : String) :
    (l.insert s).get? name = l.get? name := by
  rw [get?_insert, if_neg]
  exact fun hname => h (hname ▸ Key.normalize_normalize _)

theorem get?_insert_empty (h : ¬Key.Canonical s.name) (name : String) :
    (Library.insert {} s).get? name = none := by
  rw [get?_insert_of_not_canonical {} h]
  rfl

end Library

/-! ## Boards -/

namespace World
variable {σ : Type} {P : QueueId → Prop} {w w' w₀ : World σ}

/-- The world with a new queue on the board. -/
def withQueue (w : World σ) (s : Settings) (id : QueueId) : World σ :=
  { (w.newQueue (Queue.make id s.historyLimit)).2 with
    board := w.board.insert id.text ⟨w.queueCount⟩ }

theorem board_withQueue (w : World σ) (s : Settings) (id : QueueId) :
    (w.withQueue s id).board = w.board.insert id.text ⟨w.queueCount⟩ := rfl

theorem createQueue_free (s : Settings) {id : QueueId} (h : w.board.contains id.text = false) :
    w.createQueue s id = .ok (⟨w.queueCount⟩, w.withQueue s id) := by
  simp only [createQueue, h, Bool.false_eq_true, if_false]
  rfl

theorem createQueue_eq {s : Settings} {id : QueueId} {h : Handle}
    (hcreate : w.createQueue s id = .ok (h, w')) :
    h = ⟨w.queueCount⟩ ∧ w' = w.withQueue s id := by
  cases hfree : w.board.contains id.text with
  | true => simp [createQueue, hfree] at hcreate
  | false =>
    rw [createQueue_free s hfree] at hcreate
    obtain ⟨rfl, rfl⟩ := Prod.mk.inj (Except.ok.inj hcreate)
    exact ⟨rfl, rfl⟩

theorem removeQueue_eq {id : QueueId} (h : w.removeQueue id = .ok w') :
    ∃ h, w' = ({ w with board := w.board.erase id.text }.stop h).2 := by
  unfold removeQueue at h
  cases hfind : w.findQueue id with
  | ok h' => rw [hfind] at h; exact ⟨h', (Except.ok.inj h).symm⟩
  | error e => rw [hfind] at h; cases h

theorem board_stop (w : World σ) (h : Handle) : (w.stop h).2.board = w.board := by
  simp only [stop]; rw [ring_eq]; rfl

theorem queueCount_stop (w : World σ) (h : Handle) :
    (w.stop h).2.queueCount = w.queueCount := by
  simp only [stop]; rw [ring_eq]; rfl

theorem id_stop (w : World σ) (h h' : Handle) :
    ((w.stop h).2.queues h').id = (w.queues h').id := by
  simp only [stop, queues_ring, setQueue, put]
  split
  next heq => rw [heq]; rfl
  next => rfl

/-- The ways in which a world with its board changes, if `P` holds for the names under which
    queues are made: queues are put on the board and taken off it, and whatever else leaves
    the board and the names of the queues as they are. -/
inductive BoardStep (P : QueueId → Prop) : World σ → World σ → Prop where
  | create {w w' : World σ} {s : Settings} {id : QueueId} {h : Handle} :
    P id → w.createQueue s id = .ok (h, w') → BoardStep P w w'
  | remove {w w' : World σ} {id : QueueId} : w.removeQueue id = .ok w' → BoardStep P w w'
  | other {w w' : World σ} : w'.board = w.board → w.queueCount ≤ w'.queueCount →
    (∀ h : Handle, h.number < w.queueCount → (w'.queues h).id = (w.queues h).id) →
      BoardStep P w w'

/-- The board holds queues that were made, each under its own name, for which `P` holds. -/
def Boarded (P : QueueId → Prop) (w : World σ) : Prop :=
  ∀ name h, w.board.get? name = some h →
    h.number < w.queueCount ∧ (w.queues h).id.text = name ∧ P (w.queues h).id

theorem Boarded.step (hw : w.Boarded P) (h : BoardStep P w w') : w'.Boarded P := by
  intro name h' hget
  cases h with
  | @create s id h hid hcreate =>
    obtain ⟨rfl, rfl⟩ := createQueue_eq hcreate
    rw [board_withQueue, Index.get?_insert] at hget
    split at hget
    next hname =>
      obtain rfl := Option.some.inj hget
      simp [withQueue, newQueue, setQueue, put_same, Queue.make, hname, hid]
    next hname =>
      obtain ⟨hlt, htext, hP⟩ := hw name h' hget
      have hne : h' ≠ ⟨w.queueCount⟩ := by rintro rfl; exact Nat.lt_irrefl _ hlt
      simp only [withQueue, newQueue, setQueue, put_other _ _ hne]
      exact ⟨Nat.lt_succ_of_lt hlt, htext, hP⟩
  | @remove id hremove =>
    obtain ⟨h, rfl⟩ := removeQueue_eq hremove
    rw [board_stop, Index.get?_erase] at hget
    split at hget
    next => cases hget
    next =>
      rw [id_stop, queueCount_stop]
      exact hw name h' hget
  | other hboard hcount hid =>
    rw [hboard] at hget
    obtain ⟨hlt, htext, hP⟩ := hw name h' hget
    rw [hid h' hlt]
    exact ⟨Nat.lt_of_lt_of_le hlt hcount, htext, hP⟩

theorem Boarded.run (h₀ : w₀.board = .empty) (h : Relation.ReflTransGen (BoardStep P) w₀ w) :
    w.Boarded P := by
  induction h with
  | refl => intro name h' hget; simp [h₀, Index.empty, Index.get?] at hget
  | tail _ hstep ih => exact ih.step hstep

/-- Queues can be made under any two names that are spelled differently. -/
theorem exists_two_queues (id id' : QueueId) (hid : P id) (hid' : P id')
    (hne : id.text ≠ id'.text) :
    ∃ w : World Unit, Relation.ReflTransGen (BoardStep P) (.start () {} false) w ∧
      w.board.get? id.text = some ⟨0⟩ ∧ w.board.get? id'.text = some ⟨1⟩ := by
  have hfree : ((World.start () {} false).withQueue {} id).board.contains id'.text = false := by
    rw [board_withQueue, Index.contains, Index.get?_insert, if_neg hne.symm]
    rfl
  have hfirst := BoardStep.create hid (createQueue_free (w := World.start () {} false) {} rfl)
  refine ⟨_, .tail (.tail .refl hfirst) (.create hid' (createQueue_free {} hfree)), ?_, ?_⟩
  · rw [board_withQueue, Index.get?_insert, if_neg hne, board_withQueue, Index.get?_insert,
      if_pos rfl]
    rfl
  · rw [board_withQueue, Index.get?_insert, if_pos rfl]
    rfl

/-- **A name on the board has one spelling**, if the queues were named canonically. -/
theorem Boarded.eq_of_normalize (hw : w.Boarded fun id => Key.Canonical id.text)
    {name name' : String} {h h' : Handle} (hget : w.board.get? name = some h)
    (hget' : w.board.get? name' = some h')
    (heq : Key.normalize (w.queues h).id.text = Key.normalize (w.queues h').id.text) :
    h = h' := by
  obtain ⟨-, htext, hcanonical⟩ := hw name h hget
  obtain ⟨-, htext', hcanonical'⟩ := hw name' h' hget'
  have : name = name' := by rw [← htext, ← htext', ← hcanonical, ← hcanonical', heq]
  subst this
  exact Option.some.inj (hget.symm.trans hget')

end World

/-! ## The main result -/

section
variable {σ : Type} {w₀ w : World σ}

/-- **Names are canonical where they are not spelled in JSON.**  The constructors name queues
    and scripts canonically, and JSON as it spells the name.  A script is found under its
    name if that is canonical, and is out of reach otherwise.  No two queues on a board have
    names with the same canonical form, if they were made under canonical names. -/
theorem names_canonical (l : Library) (s : Script) (h₀ : w₀.board = .empty)
    (hrun : Relation.ReflTransGen (World.BoardStep fun id => Key.Canonical id.text) w₀ w) :
    (∀ name template debug, Key.Canonical (QueueId.ofName name).text ∧
      Key.Canonical ((Script.task name).withDebug debug).name ∧
        Key.Canonical ((Script.format name template).withDebug debug).name) ∧
    (∀ v id, QueueId.ofJson? v = some id → v.string? = some id.text) ∧
    (∀ v s, Script.ofJson? v = some s → Script.spelled? v = some s.name) ∧
    (Key.Canonical s.name →
      (l.insert s).get? s.name = some s ∧ (l.insert s).get? s.display = some s) ∧
    (¬Key.Canonical s.name → ∀ name, (l.insert s).get? name = l.get? name) ∧
    ∀ name name' h h', w.board.get? name = some h → w.board.get? name' = some h' →
      Key.normalize (w.queues h).id.text = Key.normalize (w.queues h').id.text → h = h' :=
  ⟨fun name template debug => ⟨QueueId.canonical_ofName name, Script.canonical_task name debug,
      Script.canonical_format name template debug⟩,
    fun _ _ h => QueueId.ofJson?_eq_some.1 h,
    fun _ _ h => Script.spelled_of_ofJson? h,
    l.get?_insert_of_canonical,
    l.get?_insert_of_not_canonical,
    fun _ _ _ _ hget hget' heq => (World.Boarded.run h₀ hrun).eq_of_normalize hget hget' heq⟩

end

/-- A script and two queues with canonical names. -/
theorem names_canonical_greeter :
    ((Library.insert {} (.task "greeter")).get? "s@GREETER" = some (.task "greeter")) ∧
    ∃ w : World Unit,
      w.board.get? "MAIN" = some ⟨0⟩ ∧ w.board.get? "CRON" = some ⟨1⟩ ∧
        Key.normalize (w.queues ⟨0⟩).id.text ≠ Key.normalize (w.queues ⟨1⟩).id.text := by
  have hmain := QueueId.canonical_ofName "main"
  have hcron := QueueId.canonical_ofName "cron"
  obtain ⟨w, hrun, hget, hget'⟩ := World.exists_two_queues (P := fun id => Key.Canonical id.text)
    _ _ hmain hcron (by decide +kernel)
  obtain ⟨-, -, -, hfound, -, hapart⟩ := names_canonical {} (.task "greeter") rfl hrun
  have hname : (QueueId.ofName "main").text = "MAIN" := by decide +kernel
  have hname' : (QueueId.ofName "cron").text = "CRON" := by decide +kernel
  rw [hname] at hget
  rw [hname'] at hget'
  refine ⟨?_, w, hget, hget', fun heq => ?_⟩
  · exact (hfound (Script.canonical_task "greeter" true)).2
  · exact absurd (hapart _ _ _ _ hget hget' heq) (by decide)

/-- JSON can spell names that are not canonical: a script that is not found under its name,
    and a queue beside another one whose name has the same canonical form. -/
theorem spelled_names_miss :
    (∃ s, (Json.read? "\x7b\"name\":\"greeter\",\"debug\":true,\"kind\":\"Task\"\x7d").bind
        Script.ofJson? = some s ∧ ¬Key.Canonical s.name ∧
      (Library.insert {} s).get? s.name = none ∧ (Library.insert {} s).get? s.display = none) ∧
    ∃ id, (Json.read? "\"main\"").bind QueueId.ofJson? = some id ∧ ¬Key.Canonical id.text ∧
      ∃ w : World Unit, Relation.ReflTransGen (World.BoardStep fun _ => True)
          (.start () {} false) w ∧
        ∃ h h', w.board.get? "MAIN" = some h ∧ w.board.get? id.text = some h' ∧ h ≠ h' ∧
          Key.normalize (w.queues h).id.text = Key.normalize (w.queues h').id.text := by
  have hgreeter : ¬Key.Canonical "greeter" := by decide +kernel
  refine ⟨⟨⟨"greeter", true, .task⟩, by decide +kernel, hgreeter, ?_, ?_⟩,
    ⟨"main"⟩, by decide +kernel, by decide +kernel, ?_⟩
  · exact Library.get?_insert_empty (s := ⟨"greeter", true, .task⟩) hgreeter _
  · exact Library.get?_insert_empty (s := ⟨"greeter", true, .task⟩) hgreeter _
  · obtain ⟨w, hrun, hget, hget'⟩ := World.exists_two_queues (P := fun _ => True) ⟨"MAIN"⟩
      ⟨"main"⟩ trivial trivial (by decide)
    refine ⟨w, hrun, ⟨0⟩, ⟨1⟩, hget, hget', by decide, ?_⟩
    obtain ⟨-, hmain, -⟩ := World.Boarded.run rfl hrun _ _ hget
    obtain ⟨-, hmain', -⟩ := World.Boarded.run rfl hrun _ _ hget'
    rw [hmain, hmain']
    decide +kernel

end Cuelist
