/-
  Players, alarms and the clock.

  Tasks go on in small steps.  `pulse` lets the first task that is ready take
  one: a player takes a turn at its queue or looks whether what it waits for has
  come, an alarm looks at the clock.  `settle` pulses until no task is ready, and
  `sleepUntil` moves the clock from timer to timer.

  A turn runs at most one entry.  Before a normal entry the player waits until
  its speed has passed since the last one; an instant entry does not wait, and
  an entry that holds the queue is waited for.  Whatever a player waits for, a
  ring of its queue ends the wait.
-/
import Cuelist.Executor
import Cuelist.Settings

namespace Cuelist

/-- What a task does with its place at the front of the ready ones. -/
inductive Turn where
  /-- It goes on. -/
  | goOn
  /-- It sleeps until it is woken. -/
  | sleep
deriving Repr, DecidableEq

/-- A player that ran an entry. -/
def Player.afterRun (p : Player) (now : Nat) (instant : Bool) : Player :=
  { p with
    played := p.played + 1
    nextNormal := if instant then p.nextNormal else some (dueAfter now p.speed) }

namespace World

variable {σ : Type}

/-! ## Waiting -/

/-- The world with a player in another state of rest. -/
def rest (w : World σ) (t : TaskId) (p : Player) (r : Rest) : World σ :=
  w.setTask t (.player { p with rest := r })

/-- A look of a player that waits until a time, or for its queue. -/
def watchDelay (w : World σ) (t : TaskId) (p : Player) (due : Nat) : Turn × World σ :=
  if due ≤ w.now then
    (.goOn, ((w.disarm t).leave (.queue p.queue) t).rest t p .awake)
  else
    let (rung, w) := (w.arm due t).listen (.queue p.queue) t
    if rung then (.goOn, (w.disarm t).rest t p .awake) else (.sleep, w)

/-- A look of a player that waits for the signal of an entry, or for its queue.
    Once the player listens for the signal, only a ring lets it look whether the
    entry still waits; a ring while it does is no signal, and the player looks
    again. -/
def watchEntry (w : World σ) (t : TaskId) (p : Player) (id : EntryId) : Turn × World σ :=
  if w.listens (.entry id) t || w.waiting id then
    let (signalled, w) := w.listen (.entry id) t
    if signalled then (.goOn, w)
    else
      let (rung, w) := w.listen (.queue p.queue) t
      if rung then (.goOn, (w.leave (.entry id) t).rest t p .awake) else (.sleep, w)
  else (.goOn, (w.leave (.queue p.queue) t).rest t p .awake)

/-- A look of a player that waits for its queue. -/
def watchQueue (w : World σ) (t : TaskId) (p : Player) : Turn × World σ :=
  let (rung, w) := w.listen (.queue p.queue) t
  if rung then (.goOn, w.rest t p .awake) else (.sleep, w)

/-- The end of a player. -/
def depart (w : World σ) (t : TaskId) (p : Player) : World σ :=
  (w.rest t p .gone).observe (.left (w.queues p.queue).id.text p.played)

/-! ## Turns -/

/-- What a player may do at its queue now. -/
inductive Chance where
  /-- The queue was stopped. -/
  | leave
  /-- A normal entry is next, and it is not its time. -/
  | delay (due : Nat)
  /-- The queue may be asked for an entry, which is instant or not. -/
  | ask (instant : Bool)
deriving Repr, DecidableEq

/-- What a player may do at its queue now. -/
def chance (w : World σ) (p : Player) : Chance :=
  let q := w.queues p.queue
  if q.stopped then .leave
  else match p.nextNormal with
    | none => .ask q.nextIsInstant
    | some due =>
      if due ≤ w.now || q.nextIsInstant || (w.holder? p.queue).isSome then .ask q.nextIsInstant
      else .delay due

section
variable {w : World σ} {p : Player}

theorem chance_delay {due : Nat} (h : w.chance p = .delay due) :
    (w.queues p.queue).stopped = false ∧ (w.queues p.queue).nextIsInstant = false := by
  simp only [chance] at h
  split at h
  · cases h
  next hs =>
    split at h
    · cases h
    split at h
    · cases h
    next hn => simp_all

theorem chance_ask {instant : Bool} (h : w.chance p = .ask instant) :
    (w.queues p.queue).stopped = false := by
  simp only [chance] at h
  split at h
  · cases h
  next hs => simpa using hs

end

/-- A turn of a player. -/
def play (x : Executor σ) (w : World σ) (t : TaskId) (p : Player) : World σ :=
  match w.chance p with
  | .leave => w.depart t p
  | .delay due => w.rest t p (.delayed due)
  | .ask instant =>
    match x.step p.queue w with
    | (.ran _, w) => w.setTask t (.player (p.afterRun w.now instant))
    | (.awaiting id, w) => w.rest t p (.holding id)
    | (.empty, w) => if p.leavesWhenDrained then w.depart t p else w.rest t p .idle
    | (.busy, w) => w.rest t p .idle

/-- A step of a player. -/
def advancePlayer (x : Executor σ) (w : World σ) (t : TaskId) (p : Player) : Turn × World σ :=
  match p.rest with
  | .awake => (.goOn, play x w t p)
  | .delayed due => w.watchDelay t p due
  | .holding id => w.watchEntry t p id
  | .idle => w.watchQueue t p
  | .gone => (.sleep, w)

/-! ## Alarms -/

/-- A step of an alarm for a time. -/
def advanceAlarm (w : World σ) (t : TaskId) (id : EntryId) (due : Nat) : Turn × World σ :=
  if due ≤ w.now then (.sleep, ((w.disarm t).setTask t .done).markFinished id true)
  else (.sleep, (w.arm due t).setTask t (.armed id due))

/-- A step of a task. -/
def advance (x : Executor σ) (w : World σ) (t : TaskId) : Turn × World σ :=
  match w.tasks t with
  | .player p => advancePlayer x w t p
  | .alarm id length => w.advanceAlarm t id (alarmDue w.now length)
  | .armed id due => w.advanceAlarm t id due
  | .done => (.sleep, w)

/-! ## The clock -/

/-- Lets the first task that is ready take a step. -/
def pulse (x : Executor σ) (w : World σ) : World σ :=
  match w.ready with
  | [] => w
  | t :: _ =>
    match advance x w t with
    | (.goOn, w) => w
    | (.sleep, w) => { w with ready := w.ready.erase t }

/-- Pulses until no task is ready, at most `limit` times. -/
def settle (x : Executor σ) : (limit : Nat) → World σ → World σ
  | 0, w => w
  | limit + 1, w => if w.ready.isEmpty then w else settle x limit (pulse x w)

/-- The time of the first timer to go off. -/
def firstDue (w : World σ) : Option Nat :=
  (w.timers.map Timer.due).min?

/-- Sets the clock and lets the timers for this time go off. -/
def strike (w : World σ) (time : Nat) : World σ :=
  let due := w.timers.filter fun timer => timer.due ≤ time
  due.foldl (fun w timer => w.wake timer.task)
    { w with now := time, timers := w.timers.filter fun timer => time < timer.due }

/-- Lets time pass until a point in time: all tasks that are ready go on, then
    the clock moves to the next timer, and so on.  What a timer for the last
    moment wakes is ready and goes on later.  At most `limit` timers go off, with
    at most `limit` pulses for each. -/
def sleepUntil (x : Executor σ) (limit : Nat) : (timers : Nat) → (time : Nat) → World σ → World σ
  | 0, _, w => w
  | timers + 1, time, w =>
    let w := settle x limit w
    match w.firstDue with
    | some due =>
      if due < time then sleepUntil x limit timers time (w.strike due) else w.strike time
    | none => w.strike time

/-- Lets time pass until no task is ready and no timer is left.  At most `timers`
    times the clock moves, with at most `limit` pulses after each move. -/
def playOut (x : Executor σ) (limit : Nat) : (timers : Nat) → World σ → World σ
  | 0, w => w
  | timers + 1, w =>
    let w := settle x limit w
    match w.firstDue with
    | some due => playOut x limit timers (w.strike due)
    | none => w

section
variable {x : Executor σ} {P : World σ → Prop} {w : World σ}

/-- What every pulse keeps, settling keeps. -/
theorem settle_keeps (hp : ∀ v, P v → P (pulse x v)) (limit : Nat) (hw : P w) :
    P (settle x limit w) := by
  induction limit generalizing w with
  | zero => exact hw
  | succ limit ih =>
    unfold settle
    split
    · exact hw
    · exact ih (hp w hw)

/-- **What pulses and the clock keep, playing out keeps.** -/
theorem playOut_keeps (hp : ∀ v, P v → P (pulse x v)) (hs : ∀ v time, P v → P (v.strike time))
    (limit timers : Nat) (hw : P w) : P (playOut x limit timers w) := by
  induction timers generalizing w with
  | zero => exact hw
  | succ timers ih =>
    have hsettled := settle_keeps hp limit hw
    simp only [playOut]
    split
    next due _ => exact ih (hs _ due hsettled)
    next => exact hsettled

theorem strike_eq (w : World σ) (time : Nat) :
    w.strike time = { w with
      now := time, ready := (w.strike time).ready, timers := (w.strike time).timers } := by
  unfold strike
  refine List.foldlRecOn (motive := fun v : World σ =>
    v = { w with now := time, ready := v.ready, timers := v.timers }) _ _ rfl fun v hv timer _ => ?_
  rw [wake_eq, hv]

end

/-! ## Starting players -/

/-- Starts a player for a queue. -/
def startPlayer (w : World σ) (h : Handle) (speed : Span) (leavesWhenDrained : Bool) : World σ :=
  w.spawn (.player ⟨h, speed, leavesWhenDrained, none, 0, .awake⟩)

end World

end Cuelist
