/-
  Failures of single entries.

  * `Executor.FailsIdly`: running the entry fails, and does no more than to warn about tags.
    So does an entry without a command (`failsIdly_of_unknown`), and one that its command
    cannot read if it finds out before it does anything (`failsIdly_of_parse`).
  * `failure_isolated`: an entry that fails idly makes no difference to those with it in a held
    queue, wherever it is among them.  If it is reached, the run has a record of its failure and
    reports one error, and everything else is as without it (`Executor.Skips`); if not, it is
    still there (`Executor.Spares`).
  * `Queue.enqueue_eq_refill`: admitting an entry puts it at some place among the others.

  Two runs are compared, without the entry and with it.  Up to the entry they take the same
  steps in worlds that are the same beyond the queue (`ran_before`); after it one queue is ahead
  of the other by a run, which nothing depends on (`Queue.Ahead.runHeld`).
-/
import Cuelist.Proofs.Detached
import Cuelist.Proofs.Outcome

namespace Cuelist

variable {σ : Type} {x : Executor σ} {h : Handle}

/-! ## One step -/

/-- The record of a reply. -/
def Reply.record (reply : Reply σ) : Record :=
  ⟨reply.entry.id, reply.entry.command,
    Queue.statusOf (reply.world.waiting reply.entry.id) reply.result⟩

/-- The queue after its first entry was run with a reply, `rest` being left. -/
def Queue.after (q : Queue) (rest : List Entry) (reply : Reply σ) : Queue :=
  { q with
    pending := rest
    inFlight := if reply.record.status = .waiting then some reply.entry else none
    dispatching := false
    started := true
    executed := q.executed + 1
    history := remember q.historyLimit q.history reply.record }

/-- The world after a reply was taken back by the queue in `h`, which is left as `q`. -/
def Reply.settled (reply : Reply σ) (r : Reporter) (h : Handle) (q : Queue) : World σ :=
  let w := (reply.world.setQueue h q).ring (.queue h)
  match reply.result with
  | .ok () => w
  | .error e => w.tell r (.error (q.failureText ⟨reply.entry, q.generation⟩ e))

namespace Executor
variable {q q' : Queue} {w w' : World σ} {e : Entry} {rest : List Entry}

/-- **A step runs the first entry**, if nothing is in its way. -/
theorem tick_ready (hd : q.dispatching = false) (hh : q.holder? w.waiting = none)
    (hp : q.pending = e :: rest) :
    x.tick h q w = (.ran (x.dispatch e w).record, q.after rest (x.dispatch e w),
      (x.dispatch e w).settled x.reporter h (q.after rest (x.dispatch e w))) := by
  let taken : Queue :=
    { q with inFlight := none, pending := rest, started := true, dispatching := true }
  simp only [tick, Queue.takeNext_ready hd hh hp]
  generalize x.dispatch e w = reply
  have hfinish : taken.finish reply.world.waiting ⟨reply.entry, q.generation⟩ reply.result =
      (reply.record, q.after rest reply) := by
    simp only [Queue.finish, taken, if_true]
    rfl
  have hheld : (reply.world.setQueue h taken).waiting = reply.world.waiting := rfl
  simp only [World.finish, World.queues_setQueue]
  rw [hheld, hfinish]
  cases hresult : reply.result with
  | ok =>
    simp only [Reply.settled, hresult, World.setQueue_setQueue, World.queues_ring,
      World.queues_setQueue, if_true]
  | error err =>
    simp only [Reply.settled, hresult, World.setQueue_setQueue, World.queues_tell,
      World.queues_ring, World.queues_setQueue, if_true]
    rfl

theorem tick_awaiting {id : EntryId} (hd : q.dispatching = false)
    (hh : q.holder? w.waiting = some id) : x.tick h q w = (.awaiting id, q, w) := by
  simp only [tick, Queue.takeNext_awaiting hd hh, Next.idleTick]

theorem tick_empty (hd : q.dispatching = false) (hh : q.holder? w.waiting = none)
    (hp : q.pending = []) : x.tick h q w = (.empty, { q with inFlight := none }, w) := by
  simp only [tick, Queue.takeNext_empty hd hh hp, Next.idleTick]

/-! ## Runs -/

theorem runHeld_awaiting {id : EntryId} (n : Nat) (hd : q.dispatching = false)
    (hh : q.holder? w.waiting = some id) : x.runHeld h n q w = ([], q, w) := by
  cases n with
  | zero => rfl
  | succ n => simp only [runHeld, tick_awaiting hd hh]

theorem runHeld_empty (n : Nat) (hd : q.dispatching = false) (hh : q.holder? w.waiting = none)
    (hp : q.pending = []) :
    x.runHeld h (n + 1) q w = ([], { q with inFlight := none }, w) := by
  simp only [runHeld, tick_empty hd hh hp]

theorem runHeld_ran {r : Record} (n : Nat) (ht : x.tick h q w = (.ran r, q', w')) :
    x.runHeld h (n + 1) q w =
      (r :: (x.runHeld h n q' w').1, (x.runHeld h n q' w').2) := by
  simp only [runHeld, ht]

/-- **A queue remembers the records of a run**, as far as it remembers any. -/
theorem history_runHeld (n : Nat) (hd : q.dispatching = false) :
    (x.runHeld h n q w).2.1.history =
      (x.runHeld h n q w).1.foldl (Queue.remember q.historyLimit) q.history := by
  induction n generalizing q w with
  | zero => rfl
  | succ n ih =>
    cases hh : q.holder? w.waiting with
    | some id => rw [runHeld_awaiting _ hd hh]; rfl
    | none =>
      cases hp : q.pending with
      | nil => rw [runHeld_empty n hd hh hp]; rfl
      | cons e rest =>
        rw [runHeld_ran n (tick_ready hd hh hp), ih rfl]
        rfl

theorem runUntilBlocked_awaiting {id : EntryId} (hd : q.dispatching = false)
    (hh : q.holder? w.waiting = some id) : x.runUntilBlocked h q w = ([], q, w) :=
  runHeld_awaiting _ hd hh

theorem runUntilBlocked_ran {r : Record} (ht : x.tick h q w = (.ran r, q', w')) :
    x.runUntilBlocked h q w =
      (r :: (x.runUntilBlocked h q' w').1, (x.runUntilBlocked h q' w').2) := by
  obtain ⟨-, -, -, hlen⟩ := tick_ran ht
  rw [runUntilBlocked, runHeld_ran _ ht, runHeld_of_lt (by omega)]

end Executor

/-! ## Worlds that are the same beyond the queue -/

namespace Reply.Beyond

variable {older extra : List (Nat × Event)} {reply reply' : Reply σ}

theorem record (hb : reply.Beyond h older extra reply') : reply'.record = reply.record := by
  rw [Reply.record, hb.entry, hb.result, hb.world.waiting, ← Reply.record]

theorem settled (hb : reply.Beyond h older extra reply') (r : Reporter) {q q' : Queue}
    (hid : q'.id = q.id) :
    (reply.settled r h q).Beyond h older extra (reply'.settled r h q') := by
  have hrung := (hb.world.setQueue q q').ring (.queue h)
  unfold Reply.settled
  rw [hb.result, hb.entry]
  cases reply.result with
  | ok => exact hrung
  | error err =>
    simp only [Queue.failureText, hid]
    exact hrung.tell r _

end Reply.Beyond

namespace World.Beyond

variable {older extra : List (Nat × Event)} {w v : World σ}

/-- What comes after the older entries of a log that has no newer ones. -/
theorem log_right (hb : Beyond h w.log extra w v) : v.log = extra ++ w.log := by
  obtain ⟨newer, hw, hv⟩ := hb.log
  have : newer = [] := List.self_eq_append_left.1 hw
  rw [hv, this, List.nil_append]

/-- With nothing between the logs, nothing was seen in one world only. -/
theorem reroot (hb : Beyond h older [] w v) : Beyond h w.log [] w v where
  queues := hb.queues
  bells := hb.bells
  log := by
    obtain ⟨newer, hw, hv⟩ := hb.log
    exact ⟨[], rfl, by rw [hv, hw, List.append_nil]; rfl⟩
  rest := hb.rest

theorem setQueue_right (hb : Beyond h older extra w v) (q : Queue) :
    Beyond h older extra w (v.setQueue h q) where
  queues i hi := (put_other _ _ hi).trans (hb.queues i hi)
  bells := hb.bells
  log := hb.log
  rest := by rw [hb.rest]; rfl

theorem ring_right (hb : Beyond h older extra w v) :
    Beyond h older extra w (v.ring (.queue h)) where
  queues i hi := by rw [queues_ring]; exact hb.queues i hi
  bells b hne := by rw [bells_ring, put_other _ _ hne]; exact hb.bells b hne
  log := by rw [ring_eq]; exact hb.log
  rest := by rw [ring_eq, hb.rest]

/-- What is seen in the second world only comes between the logs. -/
theorem observe_right (hb : Beyond h w.log extra w v) (events : List Event) :
    Beyond h w.log ((events.map (Prod.mk w.now)).reverse ++ extra) w
      (events.foldl World.observe v) := by
  rw [foldl_observe_eq, hb.now]
  exact ⟨hb.queues, hb.bells, ⟨[], rfl, by simp [hb.log_right]⟩, by rw [hb.rest]⟩

/-- So do the events by which a queue takes back a reply that failed. -/
theorem settled_right {reply : Reply σ} {err : CommandError}
    (hb : Beyond h w.log extra w reply.world) (hresult : reply.result = .error err) (r : Reporter)
    (q : Queue) :
    Beyond h w.log (((r.events (.error (q.failureText ⟨reply.entry, q.generation⟩ err))).map
      (Prod.mk w.now)).reverse ++ extra) w (reply.settled r h q) := by
  unfold Reply.settled
  rw [hresult]
  exact ((hb.setQueue_right q).ring_right).observe_right _

/-- So does what is left away in the first one. -/
theorem of_observed {events : List Event}
    (hb : Beyond h w.log [] (events.foldl World.observe w) v) :
    Beyond h w.log (events.map (Prod.mk w.now)).reverse w v := by
  rw [foldl_observe_eq] at hb
  obtain ⟨newer, hw, hv⟩ := hb.log
  have hnewer : (events.map (Prod.mk w.now)).reverse = newer := List.append_cancel_right hw
  exact ⟨hb.queues, hb.bells, ⟨[], rfl, by simp [hv, hnewer]⟩, by rw [hb.rest]⟩

end World.Beyond

/-! ## Queues that are ahead by one -/

/-- Whether a queue was started, counts one run more than another and differs at most in what
    it remembers besides. -/
def Queue.Ahead (q q' : Queue) : Prop :=
  q' = { q with started := true, executed := q.executed + 1, history := q'.history }

section
variable {q q' : Queue} {w v : World σ} {older extra : List (Nat × Event)}

theorem Queue.Ahead.after (ha : q.Ahead q') {reply reply' : Reply σ}
    (hb : reply.Beyond h older extra reply') (rest : List Entry) :
    (q.after rest reply).Ahead (q'.after rest reply') := by
  simp only [Ahead, Queue.after, hb.record, hb.entry]
  rw [ha]

/-- **Being ahead makes no difference** to what is run. -/
theorem Queue.Ahead.runHeld (hx : x.Detached h) (ha : q.Ahead q') (hd : q.dispatching = false)
    (hb : w.Beyond h older extra v) (n : Nat) :
    let done := x.runHeld h n q w
    let done' := x.runHeld h n q' v
    done'.1 = done.1 ∧ done.2.1.Ahead done'.2.1 ∧ done.2.2.Beyond h older extra done'.2.2 := by
  induction n generalizing q q' w v with
  | zero => exact ⟨rfl, ha, hb⟩
  | succ n ih =>
    have hd' : q'.dispatching = false := by rw [ha]; exact hd
    have hholder : q'.holder? v.waiting = q.holder? w.waiting := by
      rw [ha, hb.waiting]; rfl
    have hpending : q'.pending = q.pending := by rw [ha]
    cases hh : q.holder? w.waiting with
    | some id =>
      rw [Executor.runHeld_awaiting _ hd hh, Executor.runHeld_awaiting _ hd' (hholder.trans hh)]
      exact ⟨rfl, ha, hb⟩
    | none =>
      cases hp : q.pending with
      | nil =>
        rw [Executor.runHeld_empty _ hd hh hp,
          Executor.runHeld_empty _ hd' (hholder.trans hh) (hpending.trans hp)]
        exact ⟨rfl, (congrArg (fun q : Queue => { q with inFlight := none }) ha :), hb⟩
      | cons e rest =>
        have hreply := hx older extra e w v hb
        have ht := Executor.tick_ready (x := x) (h := h) hd hh hp
        have ht' := Executor.tick_ready (x := x) (h := h) hd' (hholder.trans hh)
          (hpending.trans hp)
        have hid : (q'.after rest (x.dispatch e v)).id = (q.after rest (x.dispatch e w)).id :=
          (congrArg Queue.id ha :)
        obtain ⟨hrecords, hqueue, hworld⟩ :=
          ih (ha.after hreply rest) rfl (hreply.settled x.reporter hid)
        rw [Executor.runHeld_ran _ ht, Executor.runHeld_ran _ ht']
        exact ⟨congrArg₂ _ hreply.record hrecords, hqueue, hworld⟩

end

/-! ## One entry more -/

/-- The queue with other entries to run. -/
def Queue.refill (q : Queue) (entries : List Entry) : Queue :=
  { q with pending := entries }

@[simp] theorem Queue.holder?_refill (waiting : EntryId → Bool) (q : Queue) (entries : List Entry) :
    (q.refill entries).holder? waiting = q.holder? waiting := rfl

namespace Executor

/-- Whether running an entry fails, and does no more than to warn about its tags. -/
structure FailsIdly (x : Executor σ) (e : Entry) (err : CommandError) (w : World σ) : Prop where
  result : (x.dispatch e w).result = .error err
  world : (x.dispatch e w).world = (x.warned e).foldl World.observe w

/-- Whether a held queue runs `n` entries and can then run another one. -/
def Reaches (x : Executor σ) (h : Handle) (q : Queue) (n : Nat) (w : World σ) : Prop :=
  let done := x.runHeld h n q w
  done.1.length = n ∧ done.2.1.holder? done.2.2.waiting = none

instance (x : Executor σ) (h : Handle) (q : Queue) (n : Nat) (w : World σ) :
    Decidable (x.Reaches h q n w) :=
  inferInstanceAs (Decidable (_ ∧ _))

/-- How a run of a queue goes with an entry more that fails with `err`.  The entry is reached
    in the world `u`, after `n` others. -/
structure Skips (x : Executor σ) (h : Handle) (q : Queue) (n : Nat) (u : World σ) (e : Entry)
    (err : CommandError) (done done' : List Record × Queue × World σ) : Prop where
  /-- There is a record of the failure among the others. -/
  records : done'.1 = done.1.take n ++
    ⟨(x.dispatch e u).entry.id, (x.dispatch e u).entry.command, .failed err.message⟩ ::
      done.1.drop n
  /-- One run more is counted. -/
  queue : done.2.1.Ahead done'.2.1
  /-- Nothing was seen besides but warnings about the tags and the report of the failure. -/
  world : done.2.2.Beyond h u.log
    ((x.warned e ++ x.reporter.events
      (.error (q.failureText ⟨(x.dispatch e u).entry, q.generation⟩ err))).map
        (Prod.mk u.now)).reverse done'.2.2

/-- How a run of a queue goes with an entry more that is not reached: the entry is still there,
    with the same entries behind it. -/
structure Spares (h : Handle) (e : Entry) (behind : List Entry)
    (done done' : List Record × Queue × World σ) : Prop where
  records : done'.1 = done.1
  queue : ∃ before, done.2.1.pending = before ++ behind ∧
    done'.2.1 = done.2.1.refill (before ++ e :: behind)
  world : done.2.2.Beyond h done.2.2.log [] done'.2.2

section
variable {q : Queue} {w v : World σ} {e : Entry} {err : CommandError}

/-- **An entry without a command fails idly.** -/
theorem failsIdly_of_unknown (hu : x.registry.has e.command = false) :
    x.FailsIdly e (.unknownCommand (Key.normalize e.command)) w := by
  have hl := Registry.lookup_of_has_eq_false hu
  rw [← Tag.command_resolveEntry x.resolver e] at hl ⊢
  constructor <;> simp only [dispatch, hl, World.foldl_tell, warned]

/-- **So does one that its command cannot read**, if it finds out before it does anything. -/
theorem failsIdly_of_parse {c : Command σ} (left : Entry)
    (hl : x.registry.lookup e.command = .ok c)
    (hparse : c.parse ⟨e.command, x.reporter, x.scripts⟩ (Tag.resolveEntry x.resolver e).1
      ((x.warned e).foldl World.observe w) =
        ⟨.error err, left, (x.warned e).foldl World.observe w⟩) :
    x.FailsIdly e err w := by
  rw [← Tag.command_resolveEntry x.resolver e] at hl hparse
  unfold warned at hparse
  constructor <;> simp only [dispatch, hl, perform, World.foldl_tell, warned, hparse]

/-- A queue that lets go of an entry goes on as one without. -/
theorem runUntilBlocked_release (hd : q.dispatching = false) (hh : q.holder? w.waiting = none) :
    x.runUntilBlocked h { q with inFlight := none } w = x.runUntilBlocked h q w := by
  have htake : Queue.takeNext w.waiting { q with inFlight := none } = q.takeNext w.waiting := by
    by_cases hp : q.pending = []
    · exact .trans (Queue.takeNext_empty hd rfl hp) (Queue.takeNext_empty hd hh hp).symm
    · obtain ⟨e, rest, hp⟩ := List.exists_cons_of_ne_nil hp
      exact .trans (Queue.takeNext_ready hd rfl hp) (Queue.takeNext_ready hd hh hp).symm
  have htick : x.tick h { q with inFlight := none } w = x.tick h q w := by
    simp only [tick, htake]
  simp only [runUntilBlocked, runHeld, htick]

/-- The entry more is run when it is its turn. -/
theorem skips_now (hx : x.Detached h) (hd : q.dispatching = false)
    (hh : q.holder? w.waiting = none) (hb : w.Beyond h w.log [] v) (hf : x.FailsIdly e err w) :
    x.Skips h q 0 w e err (x.runUntilBlocked h q w)
      (x.runUntilBlocked h (q.refill (e :: q.pending)) v) := by
  have hreply := hx w.log [] e w v hb
  have hh' : (q.refill (e :: q.pending)).holder? v.waiting = none := by
    rwa [Queue.holder?_refill, hb.waiting]
  have ht' := tick_ready (x := x) (h := h) (q := q.refill (e :: q.pending)) hd hh' rfl
  have hrecord : (x.dispatch e v).record =
      ⟨(x.dispatch e w).entry.id, (x.dispatch e w).entry.command, .failed err.message⟩ := by
    rw [hreply.record, Reply.record, hf.result]
    rfl
  have hahead : Queue.Ahead { q with inFlight := none }
      ((q.refill (e :: q.pending)).after q.pending (x.dispatch e v)) := by
    simp [Queue.Ahead, Queue.after, hrecord, Queue.refill, hd]
  have hworld := hreply.world
  rw [hf.world] at hworld
  have hsettled := hworld.of_observed.settled_right (hreply.result.trans hf.result) x.reporter
    ((q.refill (e :: q.pending)).after q.pending (x.dispatch e v))
  obtain ⟨hrecords, hqueue, hrest⟩ := hahead.runHeld hx hd hsettled (q.pending.length + 1)
  rw [runUntilBlocked_ran ht', ← runUntilBlocked_release hd hh]
  refine ⟨congrArg₂ _ hrecord hrecords, hqueue, ?_⟩
  rw [List.map_append, List.reverse_append, ← hreply.entry]
  exact hrest

variable {l r : List Entry}

/-- Before it is its turn, the entry more makes no difference to a step. -/
theorem ran_before {first : Entry} (hx : x.Detached h) (hd : q.dispatching = false)
    (hh : q.holder? w.waiting = none) (hp : q.pending = first :: l ++ r)
    (hb : w.Beyond h w.log [] v) :
    let reply := x.dispatch first w
    let q₁ := q.after (l ++ r) reply
    let w₁ := reply.settled x.reporter h q₁
    ∃ v₁, w₁.Beyond h w₁.log [] v₁ ∧
      (∀ n, x.runHeld h (n + 1) q w =
        (reply.record :: (x.runHeld h n q₁ w₁).1, (x.runHeld h n q₁ w₁).2)) ∧
      x.runUntilBlocked h q w =
        (reply.record :: (x.runUntilBlocked h q₁ w₁).1, (x.runUntilBlocked h q₁ w₁).2) ∧
      x.runUntilBlocked h (q.refill (first :: l ++ e :: r)) v =
        (reply.record :: (x.runUntilBlocked h (q₁.refill (l ++ e :: r)) v₁).1,
          (x.runUntilBlocked h (q₁.refill (l ++ e :: r)) v₁).2) := by
  intro reply q₁ w₁
  have hreply := hx w.log [] first w v hb
  have hh' : (q.refill (first :: l ++ e :: r)).holder? v.waiting = none := by
    rwa [Queue.holder?_refill, hb.waiting]
  have ht := tick_ready (x := x) (h := h) hd hh hp
  have hafter : (q.refill (first :: l ++ e :: r)).after (l ++ e :: r) (x.dispatch first v) =
      q₁.refill (l ++ e :: r) := by
    simp only [Queue.after, hreply.record, hreply.entry]
    rfl
  have ht' : x.tick h (q.refill (first :: l ++ e :: r)) v = (.ran reply.record,
      q₁.refill (l ++ e :: r), (x.dispatch first v).settled x.reporter h
        (q₁.refill (l ++ e :: r))) := by
    rw [← hafter, ← hreply.record]
    exact tick_ready (q := q.refill _) hd hh' rfl
  refine ⟨_, ?_, fun n => runHeld_ran n ht, runUntilBlocked_ran ht, runUntilBlocked_ran ht'⟩
  have hid : (q₁.refill (l ++ e :: r)).id = q₁.id := rfl
  exact (hreply.settled x.reporter hid).reroot

/-- **The entry more is skipped**, if it is reached and fails idly. -/
theorem skips_of_reaches (hx : x.Detached h) (hd : q.dispatching = false)
    (hp : q.pending = l ++ r) (hb : w.Beyond h w.log [] v) (hr : x.Reaches h q l.length w)
    (hf : x.FailsIdly e err (x.runHeld h l.length q w).2.2) :
    x.Skips h q l.length (x.runHeld h l.length q w).2.2 e err (x.runUntilBlocked h q w)
      (x.runUntilBlocked h (q.refill (l ++ e :: r)) v) := by
  induction l generalizing q w v with
  | nil =>
    obtain rfl : q.pending = r := hp
    exact skips_now hx hd hr.2 hb hf
  | cons first l ih =>
    cases hh : q.holder? w.waiting with
    | some id =>
      have hnone := hr.1
      rw [runHeld_awaiting _ hd hh] at hnone
      cases hnone
    | none =>
      obtain ⟨v₁, hb₁, hheld, hdone, hdone'⟩ := ran_before (e := e) hx hd hh hp hb
      rw [List.length_cons, Reaches, hheld] at hr
      rw [List.length_cons, hheld] at hf ⊢
      obtain ⟨hrecords, hqueue, hworld⟩ := ih rfl rfl hb₁ ⟨Nat.succ.inj hr.1, hr.2⟩ hf
      rw [hdone, hdone']
      exact ⟨congrArg (List.cons _) hrecords, hqueue, hworld⟩

theorem spares_of_awaiting {id : EntryId} (hd : q.dispatching = false)
    (hh : q.holder? w.waiting = some id) (hp : q.pending = l ++ r) (hb : w.Beyond h w.log [] v) :
    Spares h e r (x.runUntilBlocked h q w)
      (x.runUntilBlocked h (q.refill (l ++ e :: r)) v) := by
  have hdone' : x.runUntilBlocked h (q.refill (l ++ e :: r)) v =
      ([], q.refill (l ++ e :: r), v) :=
    runUntilBlocked_awaiting hd (by rwa [Queue.holder?_refill, hb.waiting])
  rw [runUntilBlocked_awaiting hd hh, hdone']
  exact ⟨rfl, ⟨l, hp, rfl⟩, hb⟩

/-- **The entry more is spared**, if it is not reached. -/
theorem spares_of_not_reaches (hx : x.Detached h) (hd : q.dispatching = false)
    (hp : q.pending = l ++ r) (hb : w.Beyond h w.log [] v) (hr : ¬ x.Reaches h q l.length w) :
    Spares h e r (x.runUntilBlocked h q w)
      (x.runUntilBlocked h (q.refill (l ++ e :: r)) v) := by
  induction l generalizing q w v with
  | nil =>
    cases hh : q.holder? w.waiting with
    | some id => exact spares_of_awaiting hd hh hp hb
    | none => exact absurd ⟨rfl, hh⟩ hr
  | cons first l ih =>
    cases hh : q.holder? w.waiting with
    | some id => exact spares_of_awaiting hd hh hp hb
    | none =>
      obtain ⟨v₁, hb₁, hheld, hdone, hdone'⟩ := ran_before (e := e) hx hd hh hp hb
      rw [List.length_cons, Reaches, hheld] at hr
      obtain ⟨hrecords, hqueue, hworld⟩ := ih rfl rfl hb₁ fun hr₁ =>
        hr ⟨congrArg (· + 1) hr₁.1, hr₁.2⟩
      rw [hdone, hdone']
      exact ⟨congrArg (List.cons _) hrecords, hqueue, hworld⟩

end
end Executor

theorem Wait.failsIdly {e e' : Entry} {err : CommandError} {w : World σ}
    (hl : x.registry.lookup e.command = .ok command)
    (hread : read (Tag.resolveEntry x.resolver e).1 = (.error err, e')) : x.FailsIdly e err w :=
  Executor.failsIdly_of_parse e' hl (by simp only [command, hread])

/-- A line of text that cannot be read fails idly if all of its targets are there. -/
theorem Narrate.failsIdly {directory : Directory} {e e' : Entry} {err : CommandError}
    {w : World σ} (hl : x.registry.lookup e.command = .ok (command directory))
    (hread : read (directory w.cast) x.scripts (Tag.resolveEntry x.resolver e).1 =
      (.error err, ⟨e', []⟩)) : x.FailsIdly e err w :=
  Executor.failsIdly_of_parse e' hl (by
    simp only [command, World.cast_foldl_observe, hread, List.foldl_nil])

theorem Queue.splice_eq (e : Entry) (pending : List Entry) :
    ∃ l r, pending = l ++ r ∧ splice e pending = l ++ e :: r := by
  unfold splice
  split
  · exact ⟨_, _, List.takeWhile_append_dropWhile.symm, rfl⟩
  · exact ⟨pending, [], (List.append_nil _).symm, rfl⟩

/-- An entry that is admitted stands somewhere among the others. -/
theorem Queue.enqueue_eq_refill {q q' : Queue} {e : Entry} (h : q.enqueue e = .ok q') :
    ∃ l r, q.pending = l ++ r ∧ q' = q.refill (l ++ e.attach q.id :: r) := by
  obtain ⟨l, r, hp, hsplice⟩ := splice_eq (e.attach q.id) q.pending
  unfold enqueue at h
  split at h
  · cases h
  · exact ⟨l, r, hp, by rw [← Except.ok.inj h, hsplice]; rfl⟩

/-- **Failures are isolated.**  Let a queue without a claim have another entry among those to
    run.  If the entry is reached, and fails idly where it is reached, the run skips it; if it is
    not reached, it is spared.  In both cases the queue remembers the records of its run. -/
theorem failure_isolated (hx : x.Detached h) {q : Queue} (hd : q.dispatching = false)
    {l r : List Entry} (hp : q.pending = l ++ r) (e : Entry) (w : World σ) :
    let u := (x.runHeld h l.length q w).2.2
    let done := x.runUntilBlocked h q w
    let done' := x.runUntilBlocked h (q.refill (l ++ e :: r)) w
    (x.Reaches h q l.length w → ∀ err, x.FailsIdly e err u →
      x.Skips h q l.length u e err done done') ∧
    (¬ x.Reaches h q l.length w → Executor.Spares h e r done done') ∧
    done'.2.1.history = done'.1.foldl (Queue.remember q.historyLimit) q.history :=
  ⟨fun hr _ hf => Executor.skips_of_reaches hx hd hp (.refl h w) hr hf,
    fun hr => Executor.spares_of_not_reaches hx hd hp (.refl h w) hr,
    Executor.history_runHeld (q := q.refill _) _ hd⟩

/-- A name that nobody knows between two lines of text is skipped, and spared behind an entry
    that holds the queue. -/
theorem failure_isolated_between :
    let x := Executor.deserted {}
    let w : World Unit := .start () {} true
    let unknown := Entry.make ⟨0⟩ .normal "NOSUCH" ["all"] none
    let hello := Entry.make ⟨1⟩ .normal "NARRATE" ["hello"] none
    let goodbye := Entry.make ⟨2⟩ .normal "NARRATE" ["goodbye"] none
    let wait := Entry.make ⟨3⟩ .normal "WAIT" [] none
    let q := (Queue.make ⟨"MAIN"⟩ Queue.defaultHistoryLimit).refill [hello, goodbye]
    let q' := (Queue.make ⟨"MAIN"⟩ Queue.defaultHistoryLimit).refill [wait, goodbye]
    x.Skips ⟨0⟩ q 1 (x.runHeld ⟨0⟩ 1 q w).2.2 unknown (.unknownCommand "NOSUCH")
        (x.runUntilBlocked ⟨0⟩ q w)
        (x.runUntilBlocked ⟨0⟩ (q.refill [hello, unknown, goodbye]) w) ∧
      Executor.Spares ⟨0⟩ unknown [goodbye] (x.runUntilBlocked ⟨0⟩ q' w)
        (x.runUntilBlocked ⟨0⟩ (q'.refill [wait, unknown, goodbye]) w) := by
  intro x w unknown hello goodbye wait q q'
  have hx : x.Detached ⟨0⟩ := detached_bundled _ _ _ _
  have hu : x.registry.has unknown.command = false := by decide +kernel
  have hname : Key.normalize unknown.command = "NOSUCH" := by decide +kernel
  have hr : x.Reaches ⟨0⟩ q 1 w := by decide +kernel
  have hr' : ¬ x.Reaches ⟨0⟩ q' 1 w := by decide +kernel
  exact ⟨(failure_isolated (l := [hello]) hx rfl rfl unknown w).1 hr _
      (hname ▸ Executor.failsIdly_of_unknown hu),
    (failure_isolated (l := [wait]) (q := q') hx rfl rfl unknown w).2.1 hr'⟩

end Cuelist
