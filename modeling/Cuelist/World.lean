/-
  The world in which entries run.

  A `World` holds what entries, queues and tasks share: the actors, the queues,
  which entries wait for their signals, the bells by which tasks are woken, the
  clock, and the log of what could be seen.  `host` is a state of the host's
  own.  Tables are total functions; `put` changes one place of a table.
-/
import Cuelist.Queue
import Cuelist.Report

namespace Cuelist

/-- A table with another value in one place. -/
def put {α β : Type} [DecidableEq α] (f : α → β) (a : α) (b : β) : α → β :=
  fun x => if x = a then b else f x

theorem put_same {α β : Type} [DecidableEq α] (f : α → β) (a : α) (b : β) : put f a b a = b := by
  simp [put]

theorem put_other {α β : Type} [DecidableEq α] (f : α → β) {a x : α} (b : β) (h : x ≠ a) :
    put f a b x = f x := by
  simp [put, h]

theorem put_self {α β : Type} [DecidableEq α] (f : α → β) (a : α) : put f a (f a) = f := by
  funext x; by_cases hx : x = a <;> simp [put, hx]

theorem put_put {α β : Type} [DecidableEq α] (f : α → β) (a : α) (b b' : β) :
    put (put f a b) a b' = put f a b' := by
  funext x; by_cases hx : x = a <;> simp [put, hx]

/-! ## Tasks -/

/-- A place for a queue. -/
structure Handle where
  number : Nat
deriving Repr, DecidableEq

/-- The identity of a task. -/
structure TaskId where
  number : Nat
deriving Repr, DecidableEq

/-- What a player does until it is polled again. -/
inductive Rest where
  /-- It takes its next turn. -/
  | awake
  /-- It waits until a time, or for its queue. -/
  | delayed (due : Nat)
  /-- It waits for the signal of an entry, or for its queue. -/
  | holding (entry : EntryId)
  /-- It waits for its queue. -/
  | idle
  /-- It left. -/
  | gone
deriving Repr, DecidableEq

/-- A task that runs the entries of a queue, with a delay after each normal
    one. -/
structure Player where
  queue : Handle
  speed : Span
  /-- Whether the player leaves when there is nothing left to run. -/
  leavesWhenDrained : Bool
  /-- The earliest time for the next normal entry. -/
  nextNormal : Option Nat
  /-- How many entries the player ran. -/
  played : Nat
  rest : Rest
deriving Repr, DecidableEq

/-- Something that goes on by itself while the clock runs. -/
inductive Task where
  | player (p : Player)
  /-- Signals an entry after a length of time. -/
  | alarm (entry : EntryId) (length : Span)
  /-- Signals an entry at a time. -/
  | armed (entry : EntryId) (due : Nat)
  | done
deriving Repr, DecidableEq

/-- What wakes a sleeping task. -/
structure Timer where
  due : Nat
  task : TaskId
deriving Repr, DecidableEq

/-! ## Bells -/

/-- What tasks can listen to. -/
inductive Bell where
  /-- Rings when there may be news of a queue. -/
  | queue (h : Handle)
  /-- Rings when an entry is signalled. -/
  | entry (id : EntryId)
deriving Repr, DecidableEq

/-- Who listens to a bell.  A ring wakes the listener who came first; if there
    is none it is kept, at most one, for the next to come. -/
structure Listeners where
  /-- Whether a ring is kept. -/
  kept : Bool := false
  /-- The tasks that wait for a ring, the first to come first. -/
  waiting : List TaskId := []
  /-- The tasks that were woken by a ring and did not look yet. -/
  woken : List TaskId := []
deriving Repr, DecidableEq

/-! ## Worlds -/

/-- The state that entries, queues and tasks share. -/
structure World (σ : Type) where
  host : σ
  cast : Cast
  /-- Whether an entry waits for its signal. -/
  waiting : EntryId → Bool
  /-- How many entries were made. -/
  entryCount : Nat
  queues : Handle → Queue
  /-- How many queues were made. -/
  queueCount : Nat
  /-- The queues that are known by name. -/
  board : Index Handle
  bells : Bell → Listeners
  tasks : TaskId → Task
  /-- How many tasks were made. -/
  taskCount : Nat
  /-- The tasks to poll, in order. -/
  ready : List TaskId
  /-- The timers that did not go off, in the order of their registration. -/
  timers : List Timer
  /-- Whether there is a clock for tasks. -/
  live : Bool
  /-- The time on the clock, in milliseconds. -/
  now : Nat
  /-- What could be seen and when, newest first. -/
  log : List (Nat × Event)

namespace World

variable {σ : Type}

/-- A world in which nothing happened yet. -/
def start (host : σ) (cast : Cast) (live : Bool) : World σ where
  host := host
  cast := cast
  waiting := fun _ => false
  entryCount := 0
  queues := fun _ => Queue.make ⟨""⟩ Queue.defaultHistoryLimit
  queueCount := 0
  board := {}
  bells := fun _ => {}
  tasks := fun _ => .done
  taskCount := 0
  ready := []
  timers := []
  live := live
  now := 0
  log := []

/-! ### Reports -/

/-- The world after something could be seen. -/
def observe (w : World σ) (e : Event) : World σ :=
  { w with log := (w.now, e) :: w.log }

/-- The world after a reporter was told something. -/
def tell (w : World σ) (r : Reporter) (n : Notice) : World σ :=
  (r.events n).foldl observe w

theorem tell_eq (w : World σ) (r : Reporter) (n : Notice) :
    w.tell r n = { w with log := (w.tell r n).log } := by
  unfold tell
  induction r.events n generalizing w with
  | nil => rfl
  | cons e es ih => exact ih (w.observe e)

/-- What every event keeps, a report keeps. -/
theorem tell_keeps {P : World σ → Prop} (ho : ∀ w e, P w → P (w.observe e)) {w : World σ}
    (hw : P w) (r : Reporter) (n : Notice) : P (w.tell r n) :=
  List.foldlRecOn (r.events n) observe hw fun w hw e _ => ho w e hw

@[simp] theorem queues_tell (w : World σ) (r : Reporter) (n : Notice) :
    (w.tell r n).queues = w.queues := by rw [tell_eq]

@[simp] theorem bells_tell (w : World σ) (r : Reporter) (n : Notice) :
    (w.tell r n).bells = w.bells := by rw [tell_eq]

/-! ### Bells -/

/-- The world with a task among those to poll, if it is not there already. -/
def wake (w : World σ) (t : TaskId) : World σ :=
  if t ∈ w.ready then w else { w with ready := w.ready ++ [t] }

/-- Rings a bell once. -/
def ring (w : World σ) (b : Bell) : World σ :=
  let l := w.bells b
  match l.waiting with
  | t :: rest =>
    ({ w with bells := put w.bells b { l with waiting := rest, woken := l.woken ++ [t] } }).wake t
  | [] => { w with bells := put w.bells b { l with kept := true } }

theorem wake_eq (w : World σ) (t : TaskId) :
    w.wake t = { w with ready := (w.wake t).ready } := by
  unfold wake; split <;> rfl

theorem mem_ready_wake (w : World σ) (t : TaskId) : t ∈ (w.wake t).ready := by
  unfold wake; split
  next h => exact h
  next => simp

theorem ready_subset_wake (w : World σ) (t : TaskId) : w.ready ⊆ (w.wake t).ready := by
  unfold wake; split
  next => exact List.Subset.refl _
  next => exact List.subset_append_left ..

theorem ring_of_waiting {w : World σ} {b : Bell} {t : TaskId} {rest : List TaskId}
    (h : (w.bells b).waiting = t :: rest) :
    w.ring b = ({ w with
      bells := put w.bells b
        { w.bells b with waiting := rest, woken := (w.bells b).woken ++ [t] } }).wake t := by
  simp [ring, h]

theorem ring_of_none {w : World σ} {b : Bell} (h : (w.bells b).waiting = []) :
    w.ring b = { w with bells := put w.bells b { w.bells b with kept := true } } := by
  simp [ring, h]

/-- A ring changes who listens and who is to be polled. -/
theorem ring_eq (w : World σ) (b : Bell) :
    w.ring b = { w with bells := (w.ring b).bells, ready := (w.ring b).ready } := by
  cases h : (w.bells b).waiting with
  | nil => rw [ring_of_none h]
  | cons t rest => rw [ring_of_waiting h, wake_eq]

@[simp] theorem queues_ring (w : World σ) (b : Bell) : (w.ring b).queues = w.queues := by
  rw [ring_eq]

@[simp] theorem waiting_ring (w : World σ) (b : Bell) : (w.ring b).waiting = w.waiting := by
  rw [ring_eq]

@[simp] theorem tasks_ring (w : World σ) (b : Bell) : (w.ring b).tasks = w.tasks := by
  rw [ring_eq]

@[simp] theorem taskCount_ring (w : World σ) (b : Bell) : (w.ring b).taskCount = w.taskCount := by
  rw [ring_eq]

theorem ready_subset_ring (w : World σ) (b : Bell) : w.ready ⊆ (w.ring b).ready := by
  cases h : (w.bells b).waiting with
  | nil => rw [ring_of_none h]; exact List.Subset.refl _
  | cons t rest =>
    rw [ring_of_waiting h]
    intro t' ht
    exact ready_subset_wake _ t ht

/-- Whether a task listens to a bell, or was woken by it and did not look yet. -/
def listens (w : World σ) (b : Bell) (t : TaskId) : Bool :=
  t ∈ (w.bells b).waiting || t ∈ (w.bells b).woken

/-- Looks for a ring on behalf of a task: takes the one that woke it or one that
    was kept, or else puts the task among those who wait. -/
def listen (w : World σ) (b : Bell) (t : TaskId) : Bool × World σ :=
  let l := w.bells b
  if t ∈ l.woken then
    (true, { w with bells := put w.bells b { l with woken := l.woken.erase t } })
  else if t ∈ l.waiting then (false, w)
  else if l.kept then (true, { w with bells := put w.bells b { l with kept := false } })
  else (false, { w with bells := put w.bells b { l with waiting := l.waiting ++ [t] } })

/-- Takes a task away from a bell; a ring that woke it and was not looked for is
    passed on. -/
def leave (w : World σ) (b : Bell) (t : TaskId) : World σ :=
  let l := w.bells b
  if t ∈ l.woken then
    ({ w with bells := put w.bells b { l with woken := l.woken.erase t } }).ring b
  else { w with bells := put w.bells b { l with waiting := l.waiting.erase t } }

/-! ### Entries -/

/-- Makes an entry from a command name with an optional sigil, arguments and a
    script. -/
def newEntry (w : World σ) (command : String) (arguments : List String) (script : Option Script) :
    Except CreationError (Entry × World σ) :=
  (readCommand command).map fun (timing, name) =>
    let id : EntryId := ⟨w.entryCount⟩
    (Entry.make id timing name arguments script,
      { w with
        entryCount := w.entryCount + 1
        waiting := put w.waiting id (timing == .waitFor) })

/-- Makes an entry that calls what another one calls. -/
def duplicate (w : World σ) (e : Entry) : Entry × World σ :=
  let id : EntryId := ⟨w.entryCount⟩
  (e.copied id,
    { w with
      entryCount := w.entryCount + 1
      waiting := put w.waiting id (w.waiting e.id) })

/-- Lets an entry wait for its signal, or not; nobody is told. -/
def setWaiting (w : World σ) (id : EntryId) (waiting : Bool) : World σ :=
  { w with waiting := put w.waiting id waiting }

/-- Signals an entry: it no longer waits.  With `finished = false` it waits
    again. -/
def markFinished (w : World σ) (id : EntryId) (finished : Bool) : World σ :=
  let w := w.setWaiting id !finished
  if finished then w.ring (.entry id) else w

/-! ### Queues -/

/-- The world with another state of a queue. -/
def setQueue (w : World σ) (h : Handle) (q : Queue) : World σ :=
  { w with queues := put w.queues h q }

@[simp] theorem queues_setQueue (w : World σ) (h : Handle) (q : Queue) :
    (w.setQueue h q).queues h = q :=
  put_same ..

@[simp] theorem setQueue_self (w : World σ) (h : Handle) : w.setQueue h (w.queues h) = w := by
  simp [setQueue, put_self]

@[simp] theorem setQueue_setQueue (w : World σ) (h : Handle) (q q' : Queue) :
    (w.setQueue h q).setQueue h q' = w.setQueue h q' := by
  simp [setQueue, put_put]

/-- Makes a queue. -/
def newQueue (w : World σ) (q : Queue) : Handle × World σ :=
  (⟨w.queueCount⟩, { w.setQueue ⟨w.queueCount⟩ q with queueCount := w.queueCount + 1 })

/-- Admits an entry to a queue. -/
def enqueue (w : World σ) (h : Handle) (e : Entry) : Except QueueError (World σ) :=
  ((w.queues h).enqueue e).map fun q => (w.setQueue h q).ring (.queue h)

section
variable {w w' : World σ} {h : Handle}

theorem enqueue_stopped (e : Entry) (hs : (w.queues h).stopped = true) :
    w.enqueue h e = .error (.stopped (w.queues h).id.text) := by
  simp [enqueue, Queue.enqueue, hs, Except.map]

theorem enqueue_open (e : Entry) (hs : (w.queues h).stopped = false) :
    w.enqueue h e = .ok ((w.setQueue h { w.queues h with
      pending := Queue.splice (e.attach (w.queues h).id) (w.queues h).pending }).ring
        (.queue h)) := by
  simp [enqueue, Queue.enqueue, hs, Except.map]

theorem enqueue_eq {e : Entry} (he : w.enqueue h e = .ok w') :
    w' = (w.setQueue h { w.queues h with
      pending := Queue.splice (e.attach (w.queues h).id) (w.queues h).pending }).ring
        (.queue h) := by
  cases hs : (w.queues h).stopped with
  | true => rw [enqueue_stopped e hs] at he; cases he
  | false => rw [enqueue_open e hs] at he; exact (Except.ok.inj he).symm

end

/-- Admits entries to a queue in order, up to the first refusal. -/
def enqueueAll (w : World σ) (h : Handle) : List Entry → Except QueueError Unit × World σ
  | [] => (.ok (), w)
  | e :: es =>
    match w.enqueue h e with
    | .ok w => enqueueAll w h es
    | .error err => (.error err, w)

/-- Asks a queue for its next entry. -/
def takeNext (w : World σ) (h : Handle) : Next × World σ :=
  let (next, q) := (w.queues h).takeNext w.waiting
  (next, w.setQueue h q)

theorem takeNext_eq {w : World σ} {h : Handle} {next : Next} {q : Queue}
    (hn : (w.queues h).takeNext w.waiting = (next, q)) : w.takeNext h = (next, w.setQueue h q) := by
  simp [takeNext, hn]

/-- Takes back a claim on an entry of a queue, and reports a failure. -/
def finish (w : World σ) (r : Reporter) (h : Handle) (c : Claim)
    (result : Except CommandError Unit) : Record × World σ :=
  let q := w.queues h
  let (record, q') := q.finish w.waiting c result
  let w := w.setQueue h q'
  let w := if c.generation = q.generation then w.ring (.queue h) else w
  match result with
  | .ok () => (record, w)
  | .error e => (record, w.tell r (.error (q.failureText c e)))

theorem record_finish (w : World σ) (r : Reporter) (h : Handle) (c : Claim)
    (result : Except CommandError Unit) :
    (w.finish r h c result).1 = ((w.queues h).finish w.waiting c result).1 := by
  unfold finish; cases result <;> rfl

/-- Taking back a claim changes the queue, the log, who listens and who is to be
    polled. -/
theorem finish_eq (w : World σ) (r : Reporter) (h : Handle) (c : Claim)
    (result : Except CommandError Unit) :
    (w.finish r h c result).2 = { w with
      queues := (w.finish r h c result).2.queues, bells := (w.finish r h c result).2.bells,
      ready := (w.finish r h c result).2.ready, log := (w.finish r h c result).2.log } := by
  unfold finish
  cases result with
  | ok =>
    simp only
    split
    · rw [ring_eq]; rfl
    · rfl
  | error err =>
    simp only
    split
    · rw [tell_eq, ring_eq]; rfl
    · rw [tell_eq]; rfl

/-- What taking back a claim makes of its queue. -/
theorem queues_finish (w : World σ) (r : Reporter) (h : Handle) (c : Claim)
    (result : Except CommandError Unit) :
    (w.finish r h c result).2.queues h = ((w.queues h).finish w.waiting c result).2 := by
  unfold finish; cases result <;> simp only <;> split <;> simp

/-- Taking back a claim of another generation rings no bell. -/
theorem bells_finish_stale (w : World σ) (r : Reporter) (h : Handle) {c : Claim}
    (result : Except CommandError Unit) (hc : c.generation ≠ (w.queues h).generation) :
    (w.finish r h c result).2.bells = w.bells := by
  unfold finish; cases result <;> simp [hc, setQueue]

/-- Drops the entries of a queue. -/
def clear (w : World σ) (h : Handle) : Nat × World σ :=
  let q := w.queues h
  (q.dropCount, (w.setQueue h q.clear).ring (.queue h))

/-- Drops the entries of a queue and closes it for good. -/
def stop (w : World σ) (h : Handle) : Nat × World σ :=
  let q := w.queues h
  (q.dropCount, (w.setQueue h q.stop).ring (.queue h))

/-- The entry that holds a queue. -/
def holder? (w : World σ) (h : Handle) : Option EntryId :=
  (w.queues h).holder? w.waiting

/-! ### Tasks -/

/-- The world with another state of a task. -/
def setTask (w : World σ) (t : TaskId) (task : Task) : World σ :=
  { w with tasks := put w.tasks t task }

/-- Starts a task. -/
def spawn (w : World σ) (task : Task) : World σ :=
  let t : TaskId := ⟨w.taskCount⟩
  { (w.setTask t task).wake t with taskCount := w.taskCount + 1 }

theorem spawn_eq (w : World σ) (task : Task) :
    w.spawn task = { w.setTask ⟨w.taskCount⟩ task with
      ready := (w.spawn task).ready, taskCount := w.taskCount + 1 } := by
  simp only [spawn]
  rw [wake_eq]

theorem mem_ready_spawn (w : World σ) (task : Task) : ⟨w.taskCount⟩ ∈ (w.spawn task).ready :=
  mem_ready_wake (w.setTask ⟨w.taskCount⟩ task) _

theorem ready_subset_spawn (w : World σ) (task : Task) : w.ready ⊆ (w.spawn task).ready :=
  ready_subset_wake (w.setTask ⟨w.taskCount⟩ task) _

/-- The world with a timer for a task, if it has none with that time. -/
def arm (w : World σ) (due : Nat) (t : TaskId) : World σ :=
  if ⟨due, t⟩ ∈ w.timers then w else { w with timers := w.timers ++ [⟨due, t⟩] }

theorem arm_eq (w : World σ) (due : Nat) (t : TaskId) :
    w.arm due t = { w with timers := (w.arm due t).timers } := by
  unfold arm; split <;> rfl

/-- The world without the timers of a task. -/
def disarm (w : World σ) (t : TaskId) : World σ :=
  { w with timers := w.timers.filter fun timer => timer.task ≠ t }

end World

end Cuelist
