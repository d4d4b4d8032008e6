/-
  One player, and what happens around it.

  A player is polled while it is ready.  Between its polls, and while one of its
  entries runs, others admit entries to its queue, clear or stop the queue and signal
  entries, in any order.

  * `Looks t p` is what a poll of a player comes to that waits for something: besides its
    rest, only who listens, what is to be polled and the timers change (`Glanced`);
  * `Nudge h t` is one thing that others do, where `t` plays the queue in `h`; the
    rest of the world changes `Apart` from both;
  * `Discreet` executors run entries by nudges alone, so that the player alone
    advances its queue;
  * `Driven` are the worlds that are reached from the start of a player by its polls
    and by nudges, as long as nobody else listens for the entry in flight.  A player
    that waits for its queue and for something else looks for either first.
-/
import Cuelist.Player
import Cuelist.Proofs.Bell
import Mathlib.Logic.Relation

namespace Cuelist

/-! ## Players asleep -/

/-- The bells that a player listens to in its state of rest. -/
def Player.Heeds (p : Player) (b : Bell) : Prop :=
  match p.rest with
  | .awake | .gone => False
  | .delayed _ | .idle => b = .queue p.queue
  | .holding id => b = .queue p.queue ∨ b = .entry id

/-- Whether a player waits for a ring of every bell that it heeds, or is gone. -/
def Player.Asleep {σ : Type} (p : Player) (w : World σ) (t : TaskId) : Prop :=
  p.rest ≠ .awake ∧ ∀ b, p.Heeds b → t ∈ (w.bells b).waiting

namespace World

variable {σ : Type}

/-! ## Polls -/

/-- The world after a turn of a task that was ready. -/
def afterTurn (t : TaskId) : Turn × World σ → World σ
  | (.goOn, w) => w
  | (.sleep, w) => { w with ready := w.ready.erase t }

/-- Lets a task take a step. -/
def poll (x : Executor σ) (w : World σ) (t : TaskId) : World σ :=
  afterTurn t (advance x w t)

/-- A pulse polls the first task that is ready. -/
theorem pulse_eq_poll (x : Executor σ) {w : World σ} {t : TaskId} {rest : List TaskId}
    (h : w.ready = t :: rest) : pulse x w = poll x w t := by
  simp only [pulse, h, poll]
  rcases advance x w t with ⟨turn, w'⟩
  cases turn <;> rfl

/-! ## Looks -/

/-- The world with other listeners, other tasks to poll and other timers. -/
def Glanced (w v : World σ) : Prop :=
  ∃ bells ready timers, v = { w with bells, ready, timers }

/-- What a look of a player comes to: besides its rest, only who listens, what is to be
    polled and the timers may change. -/
def Looks (t : TaskId) (p : Player) (w w' : World σ) : Prop :=
  ∃ v r, Glanced w v ∧ r ≠ .gone ∧ w' = v.rest t p r

section
variable {x : Executor σ} {w v v' : World σ} {t : TaskId} {p : Player} {b : Bell}

namespace Glanced

theorem refl (w : World σ) : Glanced w w := ⟨_, _, _, rfl⟩

theorem trans (hv : Glanced w v) (hv' : Glanced v v') : Glanced w v' := by
  obtain ⟨_, _, _, rfl⟩ := hv
  obtain ⟨_, _, _, rfl⟩ := hv'
  exact ⟨_, _, _, rfl⟩

theorem listen {rung : Bool} (hl : w.listen b t = (rung, v)) : Glanced w v := by
  obtain ⟨-, rfl⟩ := of_listen hl
  exact ⟨_, _, _, rfl⟩

theorem leave (w : World σ) (b : Bell) (t : TaskId) : Glanced w (w.leave b t) := by
  rw [leave_eq]; exact ⟨_, _, _, rfl⟩

theorem arm (w : World σ) (due : Nat) (t : TaskId) : Glanced w (w.arm due t) := by
  rw [arm_eq]; exact ⟨_, _, _, rfl⟩

theorem disarm (w : World σ) (t : TaskId) : Glanced w (w.disarm t) := ⟨_, _, _, rfl⟩

/-- The player stays in its state of rest. -/
theorem stay (hv : Glanced w v) (ht : w.tasks t = .player p) (hr : p.rest ≠ .gone) :
    Looks t p w v := by
  refine ⟨v, p.rest, hv, hr, ?_⟩
  obtain ⟨_, _, _, rfl⟩ := hv
  simp only [World.rest, setTask, ← ht, put_self]

/-- The player stays in its state of rest and sleeps. -/
theorem sleep (hv : Glanced w v) (ht : w.tasks t = .player p) (hr : p.rest ≠ .gone) :
    Looks t p w (afterTurn t (.sleep, v)) :=
  (hv.trans ⟨_, v.ready.erase t, _, rfl⟩).stay ht hr

end Glanced

theorem Looks.watchDelay (ht : w.tasks t = .player p) (hr : p.rest ≠ .gone) (due : Nat) :
    Looks t p w (afterTurn t (w.watchDelay t p due)) := by
  unfold World.watchDelay
  split
  · exact ⟨_, .awake, (Glanced.disarm w t).trans (.leave ..), nofun, rfl⟩
  · rcases hl : (w.arm due t).listen (.queue p.queue) t with ⟨rung, v⟩
    have hv := (Glanced.arm w due t).trans (.listen hl)
    cases rung with
    | true => exact ⟨_, .awake, hv.trans (.disarm v t), nofun, rfl⟩
    | false => exact hv.sleep ht hr

theorem Looks.watchQueue (ht : w.tasks t = .player p) (hr : p.rest ≠ .gone) :
    Looks t p w (afterTurn t (w.watchQueue t p)) := by
  unfold World.watchQueue
  rcases hl : w.listen (.queue p.queue) t with ⟨rung, v⟩
  cases rung with
  | true => exact ⟨_, .awake, .listen hl, nofun, rfl⟩
  | false => exact (Glanced.listen hl).sleep ht hr

theorem Looks.watchEntry (ht : w.tasks t = .player p) (hr : p.rest ≠ .gone) (id : EntryId) :
    Looks t p w (afterTurn t (w.watchEntry t p id)) := by
  unfold World.watchEntry
  split
  · rcases hl : w.listen (.entry id) t with ⟨signalled, v⟩
    have hv := Glanced.listen hl
    cases signalled with
    | true => exact hv.stay ht hr
    | false =>
      rcases hl' : v.listen (.queue p.queue) t with ⟨rung, v'⟩
      have hv' := hv.trans (.listen hl')
      simp only [hl']
      cases rung with
      | true => exact ⟨_, .awake, hv'.trans (.leave ..), nofun, rfl⟩
      | false => exact hv'.sleep ht hr
  · exact ⟨_, .awake, .leave .., nofun, rfl⟩

/-- **A player that is not awake looks on**: a poll changes its rest at most, and it does
    not leave. -/
theorem poll_looks (ht : w.tasks t = .player p) (ha : p.rest ≠ .awake)
    (hg : p.rest ≠ .gone) : Looks t p w (w.poll x t) := by
  have hadvance : World.advance x w t = advancePlayer x w t p := by
    simp only [World.advance, ht]
  rw [World.poll, hadvance, advancePlayer]
  cases hr : p.rest with
  | awake => exact absurd hr ha
  | gone => exact absurd hr hg
  | delayed due => exact .watchDelay ht hg due
  | holding id => exact .watchEntry ht hg id
  | idle => exact .watchQueue ht hg

/-- A player that is gone sleeps on. -/
theorem poll_gone (ht : w.tasks t = .player p) (hg : p.rest = .gone) :
    w.poll x t = { w with ready := w.ready.erase t } := by
  simp only [World.poll, World.advance, ht, advancePlayer, hg, afterTurn]

/-- A player that is awake takes its turn. -/
theorem poll_awake (ht : w.tasks t = .player p) (ha : p.rest = .awake) :
    w.poll x t = play x w t p := by
  simp only [World.poll, World.advance, ht, advancePlayer, ha, afterTurn]

end

/-- A player wakes up that found a ring of its queue, and waits for nothing else. -/
def rouse (w : World σ) (t : TaskId) (p : Player) : World σ :=
  match p.rest with
  | .delayed _ => (w.disarm t).rest t p .awake
  | .holding id => (w.leave (.entry id) t).rest t p .awake
  | _ => w.rest t p .awake

/-! ## Nudges -/

/-- A change that touches neither the queue in `h` nor the task `t`: what the task
    listens to stays as it is, and so does the signal that the queue waits for. -/
structure Apart (h : Handle) (t : TaskId) (w w' : World σ) : Prop where
  queue : w'.queues h = w.queues h
  signal : ∀ e, (w.queues h).inFlight = some e → w'.waiting e.id = w.waiting e.id
  bell : w'.bells (.queue h) = w.bells (.queue h)
  heard : ∀ b, 0 < (w.bells b).places t → w'.bells b = w.bells b
  unheard : ∀ b, (w.bells b).places t = 0 → (w'.bells b).places t = 0
  task : w'.tasks t = w.tasks t
  known : w.taskCount ≤ w'.taskCount
  ready : t ∈ w.ready → t ∈ w'.ready

/-- What others do while `t` plays the queue in `h`. -/
inductive Nudge (h : Handle) (t : TaskId) (w w' : World σ) : Prop
  | enqueue (e : Entry) (admitted : w.enqueue h e = .ok w')
  | clear (cleared : w' = (w.clear h).2)
  | stop (stopped : w' = (w.stop h).2)
  | signal (id : EntryId) (finished : Bool) (signalled : w' = w.markFinished id finished)
  | apart (apart : Apart h t w w')

/-- Any number of nudges. -/
def Nudges (h : Handle) (t : TaskId) : World σ → World σ → Prop :=
  Relation.ReflTransGen (Nudge h t)

/-- What holds while an entry runs for a player. -/
structure Undisturbed (h : Handle) (t : TaskId) (w : World σ) : Prop where
  inFlight : (w.queues h).inFlight = none
  known : t.number < w.taskCount
  unheard : ∀ b, (w.bells b).places t = 0

/-- Whether whatever an entry does while it runs comes down to nudges. -/
def Discreet (h : Handle) (t : TaskId) (x : Executor σ) : Prop :=
  ∀ e w, Undisturbed h t w → Nudges h t w (x.dispatch e w).world

/-- Whether nobody but `t` waits for the signal of the entry in flight. -/
def Alone (h : Handle) (t : TaskId) (w : World σ) : Prop :=
  ∀ e, (w.queues h).inFlight = some e → ∀ t' ∈ (w.bells (.entry e.id)).waiting, t' = t

/-- The worlds that are reached while `t` plays the queue in `h`. -/
inductive Driven (x : Executor σ) (h : Handle) (t : TaskId) : World σ → Prop
  | start {w : World σ} {speed : Span} {leaves : Bool} (new : t.number = w.taskCount)
      (free : (w.queues h).dispatching = false) (quiet : (w.bells (.queue h)).Sole t)
      (unheard : ∀ b, (w.bells b).places t = 0) (alone : Alone h t w) :
      Driven x h t (w.startPlayer h speed leaves)
  | poll {w : World σ} (reached : Driven x h t w) (ready : t ∈ w.ready)
      (alone : Alone h t (w.poll x t)) : Driven x h t (w.poll x t)
  /-- The player looks for a ring of its queue before anything else, and finds
      one. -/
  | rouse {w w' : World σ} {p : Player} (reached : Driven x h t w) (task : w.tasks t = .player p)
      (ready : t ∈ w.ready) (heeds : p.Heeds (.queue h))
      (rung : w.listen (.queue h) t = (true, w')) (alone : Alone h t (w'.rouse t p)) :
      Driven x h t (w'.rouse t p)
  | nudge {w w' : World σ} (reached : Driven x h t w) (nudge : Nudge h t w w')
      (alone : Alone h t w') : Driven x h t w'

/-- The worlds that are reached are closed under the pulses of the clock for the
    player. -/
theorem Driven.pulse {x : Executor σ} {h : Handle} {t : TaskId} {w : World σ}
    (reached : Driven x h t w) {rest : List TaskId} (first : w.ready = t :: rest)
    (alone : Alone h t (pulse x w)) : Driven x h t (pulse x w) := by
  rw [pulse_eq_poll x first] at alone ⊢
  exact reached.poll (by simp [first]) alone

/-! ## What a nudge does -/

variable {h : Handle} {t : TaskId} {w w' : World σ}

/-- A nudge changes which entries are to run, or drops all entries. -/
theorem Nudge.queue (hn : Nudge h t w w') :
    (∃ pending, w'.queues h = { w.queues h with pending }) ∨
      w'.queues h = (w.queues h).clear ∨ w'.queues h = (w.queues h).stop := by
  cases hn with
  | enqueue e he => exact .inl ⟨_, by rw [enqueue_eq he, queues_ring, queues_setQueue]⟩
  | clear hc => exact .inr (.inl (by simp [hc, World.clear]))
  | stop hs => exact .inr (.inr (by simp [hs, World.stop]))
  | signal id finished hm => exact .inl ⟨_, by rw [hm, queues_markFinished]⟩
  | apart ha => exact .inl ⟨_, ha.queue⟩

end World

end Cuelist
