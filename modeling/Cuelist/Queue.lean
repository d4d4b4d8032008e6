/-
  Queues of entries.

  A queue runs its entries one at a time: `takeNext` hands out a claim on the
  first one, and `finish` takes the claim back with the result.  Entries that
  are admitted as instant come before the normal ones.  An entry that asked for
  a signal holds the queue until it no longer waits for it; whether an entry
  waits is known outside the queue and is given to each operation that needs
  it.  Clearing begins a new generation, to which the claims handed out before
  do not belong.
-/
import Cuelist.Entry

namespace Cuelist

/-! ## Records -/

/-- How the run of an entry ended. -/
inductive Status where
  | completed
  /-- The entry asked its queue to wait. -/
  | waiting
  | failed (message : String)
deriving Repr, DecidableEq

/-- One run of an entry. -/
structure Record where
  entry : EntryId
  command : String
  status : Status
deriving Repr, DecidableEq

/-! ## Queues -/

/-- What a queue shows of itself. -/
inductive QueueState where
  /-- Nothing was admitted yet. -/
  | idle
  /-- There is something to run, or something runs. -/
  | running
  /-- The last entry waits for its signal. -/
  | awaitingCompletion
  /-- There is nothing left to run. -/
  | drained
deriving Repr, DecidableEq

/-- A queue of entries. -/
structure Queue where
  id : QueueId
  /-- The entries to run, first the instant ones. -/
  pending : List Entry
  /-- The entry that ran last, if it asked for a signal. -/
  inFlight : Option Entry
  /-- Whether a claim of this generation is out. -/
  dispatching : Bool
  generation : Nat
  /-- Whether the queue ever handed out a claim or was cleared. -/
  started : Bool
  stopped : Bool
  /-- How many runs were finished. -/
  executed : Nat
  /-- The last runs, oldest first. -/
  history : List Record
  historyLimit : Nat
deriving Repr

/-- An entry on loan from a queue. -/
structure Claim where
  entry : Entry
  generation : Nat
deriving Repr

/-- What a queue hands out. -/
inductive Next where
  | ready (claim : Claim)
  /-- An entry waits for its signal. -/
  | awaiting (entry : EntryId)
  | empty
  /-- A claim is out. -/
  | busy
deriving Repr

namespace Queue

/-- How many runs a queue remembers if nothing else is said. -/
def defaultHistoryLimit : Nat := 64

/-- An empty queue. -/
def make (id : QueueId) (historyLimit : Nat) : Queue where
  id := id
  pending := []
  inFlight := none
  dispatching := false
  generation := 0
  started := false
  stopped := false
  executed := 0
  history := []
  historyLimit := historyLimit

/-! ### Views -/

/-- The number of entries to run. -/
def length (q : Queue) : Nat := q.pending.length

/-- Whether there are no entries to run. -/
def isEmpty (q : Queue) : Bool := q.pending.isEmpty

/-- The commands of the entries to run, in order. -/
def pendingCommands (q : Queue) : List String := q.pending.map Entry.command

/-- Whether the first entry to run is instant. -/
def nextIsInstant (q : Queue) : Bool :=
  match q.pending with
  | e :: _ => e.instant
  | [] => false

/-- The entry that holds the queue, if it still waits. -/
def holder? (waiting : EntryId → Bool) (q : Queue) : Option EntryId :=
  (q.inFlight.map Entry.id).filter waiting

/-- What the queue shows of itself. -/
def state (waiting : EntryId → Bool) (q : Queue) : QueueState :=
  if (q.holder? waiting).isSome then .awaitingCompletion
  else if q.dispatching || !q.pending.isEmpty then .running
  else if q.started || q.stopped then .drained
  else .idle

/-! ### Admission -/

/-- The entries to run with one more: an instant one behind the instant ones in
    front, a normal one at the end. -/
def splice (e : Entry) (pending : List Entry) : List Entry :=
  if e.instant then pending.takeWhile Entry.instant ++ e :: pending.dropWhile Entry.instant
  else pending ++ [e]

/-- Admits an entry, unless the queue was stopped. -/
def enqueue (q : Queue) (e : Entry) : Except QueueError Queue :=
  if q.stopped then .error (.stopped q.id.text)
  else .ok { q with pending := splice (e.attach q.id) q.pending }

/-! ### Running -/

/-- Hands out the first entry, unless a claim is out or an entry waits for its
    signal.  An entry that held the queue and no longer waits is let go. -/
def takeNext (waiting : EntryId → Bool) (q : Queue) : Next × Queue :=
  if q.dispatching then (.busy, q)
  else match q.holder? waiting with
    | some id => (.awaiting id, q)
    | none => match q.pending with
      | [] => (.empty, { q with inFlight := none })
      | e :: rest =>
        (.ready ⟨e, q.generation⟩,
          { q with inFlight := none, pending := rest, started := true, dispatching := true })

section
variable {waiting : EntryId → Bool} {q : Queue}

theorem holder?_eq_some {id : EntryId} :
    q.holder? waiting = some id ↔ ∃ e, q.inFlight = some e ∧ e.id = id ∧ waiting id = true := by
  simp only [holder?, Option.filter_eq_some_iff, Option.map_eq_some_iff]
  constructor
  · rintro ⟨⟨e, he, hid⟩, hw⟩; exact ⟨e, he, hid, hw⟩
  · rintro ⟨e, he, hid, hw⟩; exact ⟨⟨e, he, hid⟩, hw⟩

theorem holder?_eq_none :
    q.holder? waiting = none ↔ ∀ e, q.inFlight = some e → waiting e.id = false := by
  simp [holder?, Option.filter_eq_none_iff]

theorem takeNext_busy (hd : q.dispatching = true) : q.takeNext waiting = (.busy, q) := by
  simp [takeNext, hd]

theorem takeNext_awaiting {id : EntryId} (hd : q.dispatching = false)
    (hh : q.holder? waiting = some id) : q.takeNext waiting = (.awaiting id, q) := by
  simp [takeNext, hd, hh]

theorem takeNext_empty (hd : q.dispatching = false) (hh : q.holder? waiting = none)
    (hp : q.pending = []) : q.takeNext waiting = (.empty, { q with inFlight := none }) := by
  simp [takeNext, hd, hh, hp]

theorem takeNext_ready {e : Entry} {rest : List Entry} (hd : q.dispatching = false)
    (hh : q.holder? waiting = none) (hp : q.pending = e :: rest) :
    q.takeNext waiting = (.ready ⟨e, q.generation⟩,
      { q with inFlight := none, pending := rest, started := true, dispatching := true }) := by
  simp [takeNext, hd, hh, hp]

/-- A take that hands out an entry. -/
theorem takeNext_eq_ready {q' : Queue} {c : Claim} (hn : q.takeNext waiting = (.ready c, q')) :
    ∃ e rest, q.pending = e :: rest ∧ c = ⟨e, q.generation⟩ ∧
      q' = { q with inFlight := none, pending := rest, started := true, dispatching := true } := by
  unfold takeNext at hn
  split at hn
  · cases hn
  split at hn
  · cases hn
  split at hn
  · cases hn
  next e rest hp =>
    obtain ⟨hc, rfl⟩ := Prod.mk.inj hn
    exact ⟨e, rest, hp, (Next.ready.inj hc).symm, rfl⟩

theorem takeNext_stopped (waiting : EntryId → Bool) (q : Queue) :
    (q.takeNext waiting).2.stopped = q.stopped := by
  unfold takeNext
  split
  · rfl
  split
  · rfl
  split <;> rfl

end

/-- How the run of an entry ended with a result. -/
def statusOf (waiting : Bool) : Except CommandError Unit → Status
  | .ok () => if waiting then .waiting else .completed
  | .error e => .failed e.message

/-- The last `limit` runs with one more. -/
def remember (limit : Nat) (history : List Record) (r : Record) : List Record :=
  if limit = 0 then history
  else if history.length = limit then history.tail ++ [r]
  else history ++ [r]

/-- Takes back a claim with the result of its run.  A claim of an older
    generation only counts and is remembered. -/
def finish (waiting : EntryId → Bool) (q : Queue) (c : Claim) (result : Except CommandError Unit) :
    Record × Queue :=
  let r : Record := ⟨c.entry.id, c.entry.command, statusOf (waiting c.entry.id) result⟩
  let counted := { q with
    executed := q.executed + 1
    history := remember q.historyLimit q.history r }
  if c.generation = q.generation then
    (r, { counted with
      dispatching := false
      inFlight := if r.status = .waiting then some c.entry else q.inFlight })
  else (r, counted)

section
variable {waiting : EntryId → Bool} {q : Queue} {c : Claim} {result : Except CommandError Unit}

theorem statusOf_eq_waiting {waits : Bool} :
    statusOf waits result = .waiting ↔ waits = true ∧ result = .ok () := by
  cases result <;> cases waits <;> simp [statusOf]

theorem finish_id : (q.finish waiting c result).2.id = q.id := by
  unfold finish; split <;> rfl

theorem finish_pending : (q.finish waiting c result).2.pending = q.pending := by
  unfold finish; split <;> rfl

theorem finish_generation : (q.finish waiting c result).2.generation = q.generation := by
  unfold finish; split <;> rfl

theorem finish_started : (q.finish waiting c result).2.started = q.started := by
  unfold finish; split <;> rfl

theorem finish_stopped : (q.finish waiting c result).2.stopped = q.stopped := by
  unfold finish; split <;> rfl

theorem finish_historyLimit : (q.finish waiting c result).2.historyLimit = q.historyLimit := by
  unfold finish; split <;> rfl

theorem finish_history : (q.finish waiting c result).2.history =
    remember q.historyLimit q.history (q.finish waiting c result).1 := by
  unfold finish; split <;> rfl

theorem finish_status :
    (q.finish waiting c result).1.status = statusOf (waiting c.entry.id) result := by
  unfold finish; split <;> rfl

theorem finish_dispatching (h : c.generation = q.generation) :
    (q.finish waiting c result).2.dispatching = false := by
  simp [finish, h]

/-- Only a current claim whose run went well can leave its entry behind, and only
    if the entry waits. -/
theorem finish_inFlight {e : Entry} (h : (q.finish waiting c result).2.inFlight = some e) :
    q.inFlight = some e ∨
      c.generation = q.generation ∧ result = .ok () ∧ c.entry = e ∧ waiting e.id = true := by
  unfold finish at h
  split at h
  next hc =>
    simp only at h
    split at h
    next hs =>
      obtain ⟨hw, hr⟩ := statusOf_eq_waiting.1 hs
      obtain rfl := Option.some.inj h
      exact .inr ⟨hc, hr, rfl, hw⟩
    next => exact .inl h
  next => exact .inl h

theorem finish_error {err : CommandError} :
    (q.finish waiting c (.error err)).2.inFlight = q.inFlight := by
  unfold finish; split <;> simp [statusOf]

/-- A claim of another generation is counted and remembered, and changes
    nothing else. -/
theorem finish_stale (h : c.generation ≠ q.generation) :
    (q.finish waiting c result).2 =
      { q with
        executed := q.executed + 1
        history := remember q.historyLimit q.history (q.finish waiting c result).1 } := by
  simp [finish, h]

end

/-- The report of a failed run. -/
def failureText (q : Queue) (c : Claim) (e : CommandError) : String :=
  s!"{e.phase} error while running '{c.entry.command}' in queue {q.id.text}: {e.message}"

/-! ### Clearing -/

/-- How many entries clearing drops: those to run, and one that holds the
    queue or held it and was not let go. -/
def dropCount (q : Queue) : Nat :=
  q.pending.length + if q.inFlight.isSome then 1 else 0

/-- The queue without entries, in a new generation. -/
def clear (q : Queue) : Queue :=
  { q with
    pending := []
    inFlight := none
    dispatching := false
    generation := q.generation + 1
    started := true }

/-- The queue without entries for good. -/
def stop (q : Queue) : Queue :=
  { q.clear with stopped := true }

end Queue

end Cuelist
