/-
  Queues that are known by name are independent.

  A host works with queues under their names on a board, and through handles, which stay valid
  after their queue was taken off the board.  The entries that it runs do not touch queues
  themselves.

  * `World.leaves_handle`: what is done through a handle leaves every other queue.
  * `World.perform_cases`: all that one act of a host can do to the board; `World.get?_perform`:
    which queue is under a name then.
  * `World.Sound`: the board has one queue for a name, and one name for a queue, and all of its
    queues were made.
  * `World.Retired h`: the queue of a handle is off the board.  It stays so, under all names.
  * `named_queues_independent` puts these together.
-/
import Cuelist.Proofs.Frame
import Cuelist.Proofs.Index
import Cuelist.Proofs.Names
import Cuelist.Proofs.Outcome

namespace Cuelist

variable {σ : Type} {w v u : World σ} {P : Handle → Prop}

/-! ## What a host does -/

/-- Advances the queue under a name until nothing more can be run. -/
def World.runNamed (w : World σ) (x : Executor σ) (id : QueueId) :
    Except QueueError (List Record × World σ) :=
  (w.findQueue id).map fun h => x.runQueue h ((w.queues h).pending.length + 1) w

/-- What can be done with a queue through a handle. -/
inductive Handling (σ : Type) where
  | enqueue (e : Entry)
  | enqueueAll (es : List Entry)
  | takeNext
  | finish (r : Reporter) (c : Claim) (result : Except CommandError Unit)
  | step (x : QuietExecutor σ)
  | tick (x : QuietExecutor σ)
  | runUntilBlocked (x : QuietExecutor σ)
  | clear
  | stop

/-- What a host does with the queues that it knows. -/
inductive BoardAct (σ : Type) where
  | create (name : String)
  | remove (name : String)
  | enqueue (name : String) (e : Entry)
  | run (name : String) (x : QuietExecutor σ)
  | through (h : Handle) (op : Handling σ)
  /-- Something that does not touch queues, such as making an entry or signalling one. -/
  | elsewhere (change : World σ → World σ)
      (leaves : ∀ w : World σ, w.Leaves (fun _ => True) (change w))

namespace BoardAct

/-- The name under which a queue is to be made, in canonical form. -/
def created? : BoardAct σ → Option String
  | create name => some (Key.normalize name)
  | _ => none

/-- The name of the queue that is to be removed, in canonical form. -/
def removed? : BoardAct σ → Option String
  | remove name => some (Key.normalize name)
  | _ => none

/-- The queue that an act is about, if it was made before. -/
def target (w : World σ) : BoardAct σ → Option Handle
  | remove name | enqueue name _ | run name _ => w.board.get? (Key.normalize name)
  | through h _ => some h
  | create _ | elsewhere _ _ => none

theorem created?_of_removed? {a : BoardAct σ} {key : String} (h : a.removed? = some key) :
    a.created? = none := by
  cases a with
  | remove name => rfl
  | create | enqueue | run | through | elsewhere => cases h

end BoardAct

namespace World

/-- The world after something was done with a queue through its handle. -/
def handle (w : World σ) (h : Handle) : Handling σ → World σ
  | .enqueue e => (w.enqueue h e).toOption.getD w
  | .enqueueAll es => (w.enqueueAll h es).2
  | .takeNext => (w.takeNext h).2
  | .finish r c result => (w.finish r h c result).2
  | .step x => (x.step h w).2
  | .tick x => (Executor.holding h w (x.tick h)).2
  | .runUntilBlocked x => (Executor.holding h w (x.runUntilBlocked h)).2
  | .clear => (w.clear h).2
  | .stop => (w.stop h).2

/-- What came of something, and the world after it; after a failure, the world as it was. -/
def attempt (w : World σ) : Except QueueError (World σ) → Except QueueError Unit × World σ
  | .ok v => (.ok (), v)
  | .error err => (.error err, w)

/-- The world after an act of a host, and whether the act failed.  Handles are those of queues
    that were made. -/
def perform (s : Settings) (w : World σ) : BoardAct σ → Except QueueError Unit × World σ
  | .create name => w.attempt ((w.createQueue s (.ofName name)).map Prod.snd)
  | .remove name => w.attempt (w.removeQueue (.ofName name))
  | .enqueue name e => w.attempt (w.enqueueNamed (.ofName name) e)
  | .run name x => w.attempt ((w.runNamed x.toExecutor (.ofName name)).map Prod.snd)
  | .through h op => (.ok (), if h.number < w.queueCount then w.handle h op else w)
  | .elsewhere change _ => (.ok (), change w)

/-- The world after the acts of a host. -/
def performAll (s : Settings) (w : World σ) (acts : List (BoardAct σ)) : World σ :=
  acts.foldl (fun w a => (w.perform s a).2) w

theorem performAll_concat (s : Settings) (w : World σ) (acts : List (BoardAct σ)) (a : BoardAct σ) :
    w.performAll s (acts ++ [a]) = ((w.performAll s acts).perform s a).2 :=
  List.foldl_concat ..

/-! ### One act -/

variable {s : Settings} {a : BoardAct σ} {name key : String} {h : Handle}

/-- **What is done through a handle leaves every other queue.** -/
theorem leaves_handle (w : World σ) (h : Handle) (op : Handling σ) :
    w.Leaves (· ≠ h) (w.handle h op) := by
  cases op with
  | enqueue e =>
    cases he : w.enqueue h e with
    | ok v => simp only [handle, he]; exact .enqueue he
    | error err => simp only [handle, he]; exact .refl _ w
  | enqueueAll es => exact .enqueueAll h w es
  | takeNext => exact .takeNext h w
  | finish r c result => exact .finish h w r c result
  | step x => exact x.leaves_step h w
  | tick x => exact (x.leaves_tick h _ w).trans (.setQueue h _ _)
  | runUntilBlocked x =>
    have hrun := x.leaves_runHeld h ((w.queues h).pending.length + 1) (w.queues h) w
    exact hrun.trans (.setQueue h _ _)
  | clear => exact .clear h w
  | stop => exact .stop h w

/-! #### Acts by name -/

section
variable (hget : w.board.get? (Key.normalize name) = some h)
include hget

theorem board_contains : w.board.contains (QueueId.ofName name).text = true := by
  rw [Index.contains, QueueId.ofName, hget]
  rfl

theorem findQueue_some : w.findQueue (.ofName name) = .ok h := by
  simp only [findQueue, QueueId.ofName, hget]

theorem create_some (s : Settings) :
    w.perform s (.create name) = (.error (.alreadyExists (Key.normalize name)), w) := by
  simp only [perform, createQueue, board_contains hget, if_true]
  rfl

theorem remove_some (s : Settings) : w.perform s (.remove name) =
    (.ok (), ({ w with board := w.board.erase (Key.normalize name) }.stop h).2) := by
  simp only [perform, removeQueue, findQueue_some hget]
  rfl

theorem enqueueNamed_some (s : Settings) (e : Entry) :
    w.perform s (.enqueue name e) = w.attempt (w.enqueue h e) := by
  simp only [perform, enqueueNamed, findQueue_some hget]
  rfl

theorem run_some (s : Settings) (x : QuietExecutor σ) : w.perform s (.run name x) =
    (.ok (), (x.runQueue h ((w.queues h).pending.length + 1) w).2) := by
  simp only [perform, runNamed, findQueue_some hget]
  rfl

end

section
variable (hget : w.board.get? (Key.normalize name) = none)
include hget

theorem board_free : w.board.contains (QueueId.ofName name).text = false := by
  rw [Index.contains, QueueId.ofName, hget]
  rfl

theorem findQueue_none : w.findQueue (.ofName name) = .error (.notFound (Key.normalize name)) := by
  simp only [findQueue, QueueId.ofName, hget]

theorem create_none (s : Settings) :
    w.perform s (.create name) = (.ok (), w.withQueue s (.ofName name)) := by
  simp only [perform, createQueue_free s (board_free hget)]
  rfl

theorem remove_none (s : Settings) :
    w.perform s (.remove name) = (.error (.notFound (Key.normalize name)), w) := by
  simp only [perform, removeQueue, findQueue_none hget]
  rfl

theorem enqueueNamed_none (s : Settings) (e : Entry) :
    w.perform s (.enqueue name e) = (.error (.notFound (Key.normalize name)), w) := by
  simp only [perform, enqueueNamed, findQueue_none hget]
  rfl

theorem run_none (s : Settings) (x : QuietExecutor σ) :
    w.perform s (.run name x) = (.error (.notFound (Key.normalize name)), w) := by
  simp only [perform, runNamed, findQueue_none hget]
  rfl

end

/-- An act that fails leaves the world as it was. -/
theorem perform_error {err : QueueError} (herr : (w.perform s a).1 = .error err) :
    (w.perform s a).2 = w := by
  have hattempt : ∀ r, (w.attempt r).1 = .error err → (w.attempt r).2 = w := by
    rintro (err' | v) h
    · rfl
    · cases h
  cases a with
  | create name | remove name | enqueue name e | run name x => exact hattempt _ herr
  | through h op | elsewhere change leaves => cases herr

/-- Admission is refused by a queue that was stopped, and in no other way. -/
theorem attempt_enqueue_ne_notFound (h : Handle) (e : Entry) (text : String) :
    (w.attempt (w.enqueue h e)).1 ≠ .error (.notFound text) := by
  cases hs : (w.queues h).stopped with
  | true => rw [enqueue_stopped e hs]; simp [attempt]
  | false => rw [enqueue_open e hs]; simp [attempt]

/-- The acts other than those of making and removing a queue leave the board, and every queue
    that they are not about. -/
theorem leaves_perform (s : Settings) (w : World σ) {a : BoardAct σ}
    (hcreate : ∀ name, a ≠ .create name) (hremove : ∀ name, a ≠ .remove name) :
    w.Leaves (fun h => a.target w ≠ some h) (w.perform s a).2 := by
  have hone : ∀ {h : Handle} {v : World σ}, a.target w = some h → w.Leaves (· ≠ h) v →
      w.Leaves (fun h => a.target w ≠ some h) v :=
    fun htarget hv => hv.mono fun h' hne heq => hne (heq ▸ htarget)
  cases a with
  | create name => exact (hcreate name rfl).elim
  | remove name => exact (hremove name rfl).elim
  | enqueue name e =>
    cases hget : w.board.get? (Key.normalize name) with
    | none => rw [enqueueNamed_none hget]; exact .refl _ w
    | some h =>
      rw [enqueueNamed_some hget]
      refine hone hget ?_
      cases he : w.enqueue h e with
      | ok v => exact .enqueue he
      | error err => exact .refl _ w
  | run name x =>
    cases hget : w.board.get? (Key.normalize name) with
    | none => rw [run_none hget]; exact .refl _ w
    | some h => rw [run_some hget]; exact hone hget (x.leaves_runQueue h _ w)
  | through h op =>
    simp only [perform]
    split
    · exact hone rfl (leaves_handle w h op)
    · exact .refl _ w
  | elsewhere change leaves => exact (leaves w).mono fun _ _ => trivial

/-- **What one act can do to the board**: a queue is put on it under a free name, or taken off
    it, or the board and every queue that the act is not about stay as they are. -/
theorem perform_cases (s : Settings) (w : World σ) (a : BoardAct σ) :
    (∃ name, a = .create name ∧ w.board.get? (Key.normalize name) = none ∧
      (w.perform s a).2 = w.withQueue s (.ofName name)) ∨
    (∃ name h, a = .remove name ∧ w.board.get? (Key.normalize name) = some h ∧
      (w.perform s a).2 = ({ w with board := w.board.erase (Key.normalize name) }.stop h).2) ∨
    ((∀ key, a.created? = some key → (w.board.get? key).isSome = true) ∧
      (∀ key, a.removed? = some key → w.board.get? key = none) ∧
      w.Leaves (fun h => a.target w ≠ some h) (w.perform s a).2) := by
  cases a with
  | create name =>
    cases hget : w.board.get? (Key.normalize name) with
    | none => exact .inl ⟨name, rfl, hget, by rw [create_none hget]⟩
    | some h =>
      refine .inr (.inr ⟨?_, ?_, ?_⟩)
      · intro key hkey
        obtain rfl := Option.some.inj hkey
        rw [hget]
        rfl
      · intro key hkey
        cases hkey
      · rw [create_some hget]
        exact .refl _ w
  | remove name =>
    cases hget : w.board.get? (Key.normalize name) with
    | some h => exact .inr (.inl ⟨name, h, rfl, hget, by rw [remove_some hget]⟩)
    | none =>
      refine .inr (.inr ⟨?_, ?_, ?_⟩)
      · intro key hkey
        cases hkey
      · intro key hkey
        obtain rfl := Option.some.inj hkey
        exact hget
      · rw [remove_none hget]
        exact .refl _ w
  | enqueue | run | through | elsewhere =>
    refine .inr (.inr ⟨?_, ?_, ?_⟩)
    · intro key hkey
      cases hkey
    · intro key hkey
      cases hkey
    · exact leaves_perform s w (fun _ ha => nomatch ha) fun _ ha => nomatch ha

/-! #### What one act keeps -/

/-- **Which queue is under a name after one act**: none if the name was removed, and the one
    that was there, or else the new one if the name was created. -/
theorem get?_perform (s : Settings) (w : World σ) (a : BoardAct σ) (key : String) :
    (w.perform s a).2.board.get? key =
      if a.removed? = some key then none
      else (w.board.get? key).or (if a.created? = some key then some ⟨w.queueCount⟩ else none) := by
  obtain ⟨name, rfl, hget, hdone⟩ | ⟨name, h, rfl, hget, hdone⟩ | ⟨hcreated, hremoved, hdone⟩ :=
    perform_cases s w a
  · rw [hdone, board_withQueue, Index.get?_insert]
    by_cases hkey : key = Key.normalize name
    · simp [hkey, hget, BoardAct.created?, BoardAct.removed?, QueueId.ofName]
    · simp [hkey, Ne.symm hkey, BoardAct.created?, BoardAct.removed?, QueueId.ofName]
  · rw [hdone, board_stop, Index.get?_erase]
    by_cases hkey : key = Key.normalize name
    · simp [hkey, BoardAct.removed?]
    · simp [hkey, Ne.symm hkey, BoardAct.created?, BoardAct.removed?]
  · rw [hdone.board]
    by_cases hr : a.removed? = some key
    · rw [if_pos hr, hremoved key hr]
    · by_cases hc : a.created? = some key
      · obtain ⟨h, hget⟩ := Option.isSome_iff_exists.1 (hcreated key hc)
        rw [if_neg hr, hget, Option.some_or]
      · rw [if_neg hr, if_neg hc, Option.or_none]

theorem isSome_perform (s : Settings) (w : World σ) (a : BoardAct σ) (key : String) :
    ((w.perform s a).2.board.get? key).isSome = true ↔
      a.created? = some key ∨ ¬a.removed? = some key ∧ (w.board.get? key).isSome = true := by
  rw [get?_perform]
  by_cases hr : a.removed? = some key
  · simp [hr, BoardAct.created?_of_removed? hr]
  · by_cases hc : a.created? = some key <;> simp [hr, hc]

/-- **One act leaves every queue that it is not about.** -/
theorem same_perform (s : Settings) {a : BoardAct σ} (hmade : h.number < w.queueCount)
    (htarget : a.target w ≠ some h) : w.Same h (w.perform s a).2 := by
  obtain ⟨name, rfl, hget, hdone⟩ | ⟨name, h', rfl, hget, hdone⟩ | ⟨-, -, hdone⟩ :=
    perform_cases s w a
  · have hne : h ≠ ⟨w.queueCount⟩ := by
      rintro rfl
      exact Nat.lt_irrefl _ hmade
    rw [hdone]
    exact ⟨put_other _ _ hne, rfl⟩
  · have hne : h ≠ h' := fun heq => htarget (heq ▸ hget)
    rw [hdone]
    exact (Leaves.stop h' { w with board := w.board.erase (Key.normalize name) }).same h hne
  · exact hdone.same h htarget

theorem queueCount_perform (s : Settings) (w : World σ) (a : BoardAct σ) :
    w.queueCount ≤ (w.perform s a).2.queueCount := by
  obtain ⟨name, -, -, hdone⟩ | ⟨name, h', -, -, hdone⟩ | ⟨-, -, hdone⟩ := perform_cases s w a
  · rw [hdone]
    exact Nat.le_succ _
  · rw [hdone, queueCount_stop]
  · rw [hdone.queueCount]

/-! ## Boards in order -/

/-- Whether the board has one queue for a name and one name for a queue, and all of its queues
    were made. -/
structure Sound (w : World σ) : Prop where
  distinct : w.board.Distinct
  made : ∀ key h, w.board.get? key = some h → h.number < w.queueCount
  apart : ∀ key key' h, w.board.get? key = some h → w.board.get? key' = some h → key = key'

theorem Sound.of_empty (hempty : w.board = .empty) : w.Sound where
  distinct := hempty ▸ Index.distinct_empty
  made key h hget := by rw [hempty] at hget; cases hget
  apart key key' h hget := by rw [hempty] at hget; cases hget

/-- A queue that is not on the board is put there under a free name. -/
theorem Sound.withQueue (hw : w.Sound) (s : Settings) (id : QueueId) :
    (w.withQueue s id).Sound := by
  have hnew : ∀ key, w.board.get? key ≠ some ⟨w.queueCount⟩ :=
    fun key hget => Nat.lt_irrefl _ (hw.made key _ hget)
  refine ⟨hw.distinct.insert .., fun key h hget => ?_, fun key key' h hget hget' => ?_⟩
  · rw [board_withQueue, Index.get?_insert] at hget
    split at hget
    · obtain rfl := Option.some.inj hget
      exact Nat.lt_succ_self _
    · exact Nat.lt_succ_of_lt (hw.made key h hget)
  · rw [board_withQueue, Index.get?_insert] at hget hget'
    split at hget <;> split at hget'
    next hkey hkey' => rw [hkey, hkey']
    next => exact (hnew key' (hget'.trans hget.symm)).elim
    next => exact (hnew key (hget.trans hget'.symm)).elim
    next => exact hw.apart key key' h hget hget'

theorem Sound.remove (hw : w.Sound) (key : String) (h : Handle) :
    ({ w with board := w.board.erase key }.stop h).2.Sound := by
  have hleft : ∀ key' h', (w.board.erase key).get? key' = some h' →
      w.board.get? key' = some h' := by
    intro key' h' hget
    rw [Index.get?_erase] at hget
    split at hget
    · cases hget
    · exact hget
  refine ⟨?_, fun key' h' hget => ?_, fun key' key'' h' hget hget' => ?_⟩
  · rw [board_stop]
    exact hw.distinct.erase key
  · rw [board_stop] at hget
    rw [queueCount_stop]
    exact hw.made key' h' (hleft key' h' hget)
  · rw [board_stop] at hget hget'
    exact hw.apart key' key'' h' (hleft key' h' hget) (hleft key'' h' hget')

theorem Sound.congr (hw : w.Sound) (hleaves : w.Leaves P v) : v.Sound where
  distinct := hleaves.board ▸ hw.distinct
  made := by rw [hleaves.board, hleaves.queueCount]; exact hw.made
  apart := by rw [hleaves.board]; exact hw.apart

theorem Sound.perform (hw : w.Sound) (s : Settings) (a : BoardAct σ) : (w.perform s a).2.Sound := by
  obtain ⟨name, -, -, hdone⟩ | ⟨name, h, -, -, hdone⟩ | ⟨-, -, hdone⟩ := perform_cases s w a
  · rw [hdone]
    exact hw.withQueue s _
  · rw [hdone]
    exact hw.remove _ h
  · exact hw.congr hdone

/-! ## Queues off the board -/

/-- Whether a queue was made and is not on the board. -/
structure Retired (h : Handle) (w : World σ) : Prop where
  made : h.number < w.queueCount
  off : ∀ key, w.board.get? key ≠ some h

/-- A removed queue is on the board under no other name. -/
theorem Sound.retired (hw : w.Sound) {name : String} (s : Settings)
    (hget : w.board.get? (Key.normalize name) = some h) :
    (w.perform s (.remove name)).2.Retired h := by
  rw [remove_some hget]
  refine ⟨?_, fun key hkey => ?_⟩
  · rw [queueCount_stop]
    exact hw.made _ h hget
  · rw [board_stop, Index.get?_erase] at hkey
    split at hkey
    next => cases hkey
    next hne => exact hne (hw.apart key _ h hkey hget)

/-- **A queue that is off the board stays off it.** -/
theorem Retired.perform (hh : w.Retired h) (s : Settings) (a : BoardAct σ) :
    (w.perform s a).2.Retired h := by
  refine ⟨Nat.lt_of_lt_of_le hh.made (queueCount_perform s w a), fun key hkey => ?_⟩
  rw [get?_perform] at hkey
  split at hkey
  next => cases hkey
  next =>
    rcases Option.or_eq_some_iff.1 hkey with hold | ⟨-, hnew⟩
    · exact hh.off key hold
    · split at hnew
      next =>
        obtain rfl := Option.some.inj hnew
        exact Nat.lt_irrefl _ hh.made
      next => cases hnew

/-- **Only what is done through its handle reaches a queue that is off the board.** -/
theorem Retired.same (hh : w.Retired h) (s : Settings) {a : BoardAct σ}
    (ha : ∀ op, a ≠ .through h op) : w.Same h (w.perform s a).2 := by
  refine same_perform s hh.made ?_
  cases a with
  | create name | elsewhere change leaves => exact fun htarget => nomatch htarget
  | remove name | enqueue name e | run name x => exact hh.off _
  | through h' op =>
    rintro htarget
    obtain rfl := Option.some.inj htarget
    exact ha op rfl

/-! ## Runs -/

theorem Sound.performAll (hw : w.Sound) (s : Settings) (acts : List (BoardAct σ)) :
    (w.performAll s acts).Sound :=
  List.foldlRecOn acts _ hw fun _ hv a _ => hv.perform s a

theorem Retired.performAll (hh : w.Retired h) (s : Settings) (acts : List (BoardAct σ)) :
    (w.performAll s acts).Retired h :=
  List.foldlRecOn acts _ hh fun _ hv a _ => hv.perform s a

/-- A queue that is off the board stays as it is while nothing is done through its handle. -/
theorem Retired.same_performAll (hh : w.Retired h) (s : Settings) {acts : List (BoardAct σ)}
    (hacts : ∀ a ∈ acts, ∀ op, a ≠ .through h op) : w.Same h (w.performAll s acts) := by
  induction acts using List.reverseRecOn with
  | nil => exact ⟨rfl, rfl⟩
  | append_singleton acts a ih =>
    rw [performAll_concat]
    have hbefore := ih fun a' ha' => hacts a' (List.mem_append_left _ ha')
    exact hbefore.trans ((hh.performAll s acts).same s (hacts a (by simp)))

/-- **The names on the board were created and not removed since.** -/
theorem mem_queueNames_performAll (hempty : w.board = .empty) (s : Settings)
    (acts : List (BoardAct σ)) (key : String) :
    key ∈ (w.performAll s acts).queueNames ↔
      Since (·.created? = some key) (·.removed? = some key) acts := by
  rw [queueNames, Index.mem_names]
  induction acts using List.reverseRecOn with
  | nil =>
    refine iff_of_false ?_ since_nil
    rw [performAll, List.foldl_nil, hempty]
    exact fun hsome => nomatch hsome
  | append_singleton acts a ih => rw [performAll_concat, isSome_perform, since_concat, ih]

end World

/-! ## The main result -/

open World in
/-- **Queues under names are independent.**  After whatever was done with queues by name and
    through handles, on a board that was empty at first:

    the listed names are strictly ascending, and are those that were created and not removed
    since, in canonical form; making a queue fails exactly under a listed name, and removing
    one, admitting an entry to one and running one find it exactly under a listed name; what
    fails changes nothing; nothing changes a queue that it is not about; and the queue under a
    name stays the same until the name is removed, and is a new one when the name is created.

    A queue that was removed is never on the board again, under no name.  It stays as it is
    unless something is done through its handle, and that changes no other queue. -/
theorem named_queues_independent (s : Settings) (w₀ : World σ) (hempty : w₀.board = .empty)
    (acts : List (BoardAct σ)) :
    let w := w₀.performAll s acts
    w.queueNames.Pairwise (· < ·) ∧
    (∀ key, key ∈ w.queueNames ↔
      Since (·.created? = some key) (·.removed? = some key) acts) ∧
    (∀ name, let key := Key.normalize name
      ((w.perform s (.create name)).1 =
        if key ∈ w.queueNames then .error (.alreadyExists key) else .ok ()) ∧
      ((w.perform s (.remove name)).1 =
        if key ∈ w.queueNames then .ok () else .error (.notFound key)) ∧
      (∀ x, (w.perform s (.run name x)).1 =
        if key ∈ w.queueNames then .ok () else .error (.notFound key)) ∧
      ∀ e, (key ∉ w.queueNames → (w.perform s (.enqueue name e)).1 = .error (.notFound key)) ∧
        (key ∈ w.queueNames →
          ∀ text, (w.perform s (.enqueue name e)).1 ≠ .error (.notFound text))) ∧
    (∀ a err, (w.perform s a).1 = .error err → (w.perform s a).2 = w) ∧
    (∀ a h, h.number < w.queueCount → a.target w ≠ some h → w.Same h (w.perform s a).2) ∧
    (∀ a key, (w.perform s a).2.board.get? key =
      if a.removed? = some key then none
      else (w.board.get? key).or (if a.created? = some key then some ⟨w.queueCount⟩ else none)) ∧
    ∀ name old, w.board.get? (Key.normalize name) = some old → ∀ later,
      let v := (w.perform s (.remove name)).2
      let u := v.performAll s later
      (∀ key, u.board.get? key ≠ some old) ∧
      ((∀ a ∈ later, ∀ op, a ≠ .through old op) → v.Same old u) ∧
      ∀ op, (u.perform s (.through old op)).2.board = u.board ∧
        ∀ h, h ≠ old → u.Same h (u.perform s (.through old op)).2 := by
  intro w
  have hsound : w.Sound := (Sound.of_empty hempty).performAll s acts
  refine ⟨hsound.distinct.names_ascending, mem_queueNames_performAll hempty s acts, ?_,
    fun _ _ => perform_error, fun _ _ => same_perform s, get?_perform s w, ?_⟩
  · intro name key
    cases hget : w.board.get? key with
    | none =>
      have hkey : key ∉ w.queueNames := fun hmem => by
        rw [queueNames, Index.mem_names, hget] at hmem
        cases hmem
      simp only [if_neg hkey]
      exact ⟨by rw [create_none hget], by rw [remove_none hget], fun x => by rw [run_none hget],
        fun e => ⟨fun _ => by rw [enqueueNamed_none hget], fun hmem => (hkey hmem).elim⟩⟩
    | some h =>
      have hkey : key ∈ w.queueNames := by
        rw [queueNames, Index.mem_names, hget]
        rfl
      simp only [if_pos hkey]
      refine ⟨by rw [create_some hget], by rw [remove_some hget], fun x => by rw [run_some hget],
        fun e => ⟨fun hnot => (hnot hkey).elim, fun _ text => ?_⟩⟩
      rw [enqueueNamed_some hget]
      exact attempt_enqueue_ne_notFound h e text
  · intro name old hget later v u
    have hretired : u.Retired old := (hsound.retired s hget).performAll s later
    refine ⟨hretired.off, (hsound.retired s hget).same_performAll s, fun op => ?_⟩
    have hleaves := leaves_handle u old op
    simp only [World.perform, if_pos hretired.made]
    exact ⟨hleaves.board, hleaves.same⟩

open World in
/-- A queue that is removed and made anew under another spelling of its name. -/
theorem named_queues_independent_anew :
    let x := QuietExecutor.ofBundled (Executor.deserted {}) (fun _ _ => none)
      fun _ => Registry.mem_withBundled
    let hello := Entry.make ⟨0⟩ .normal "NARRATE" ["hello"] none
    let w := (World.start () {} true).performAll {} [.create "main", .create "cron"]
    let v := (w.perform {} (.remove "Main")).2
    let u := v.performAll {} [.create "MAIN", .enqueue "main" hello, .run "main" x]
    (w.perform {} (.create "Cron")).1 = .error (.alreadyExists "CRON") ∧
      u.board.get? "MAIN" = some ⟨2⟩ ∧ (∀ key, u.board.get? key ≠ some ⟨0⟩) ∧ v.Same ⟨0⟩ u ∧
      u.Same ⟨2⟩ (u.perform {} (.through ⟨0⟩ .clear)).2 := by
  intro x hello w v u
  obtain ⟨-, hnames, hresults, -, -, -, hretired⟩ := named_queues_independent {}
    (World.start () {} true) rfl [.create "main", .create "cron"]
  have hcron : Key.normalize "Cron" = "CRON" := by decide +kernel
  have hlisted : "CRON" ∈ w.queueNames :=
    (hnames "CRON").2 ⟨[.create "main"], .create "cron", [], rfl,
      by decide +kernel, fun _ h => nomatch h⟩
  have hcreate := (hresults "Cron").1
  rw [hcron, if_pos hlisted] at hcreate
  obtain ⟨hoff, hsame, hthrough⟩ := hretired "Main" ⟨0⟩ (by decide +kernel)
    [.create "MAIN", .enqueue "main" hello, .run "main" x]
  refine ⟨hcreate, by decide +kernel, hoff, hsame ?_, (hthrough .clear).2 ⟨2⟩ (by decide)⟩
  intro a ha op
  simp only [List.mem_cons, List.not_mem_nil, or_false] at ha
  rcases ha with rfl | rfl | rfl <;> exact fun h => nomatch h

end Cuelist
