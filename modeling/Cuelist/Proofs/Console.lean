/-
  What the summary of a run counts.

  The summary of a list of entries counts the runs on the side of the player and the
  failures on the side of the queue.  A player that is alone with its queue runs every
  entry once, in the order in which they were admitted (`Solo`); the queue remembers the
  last runs only.  So a summary counts all lines, but of the failures only those among the
  last lines, as many as the settings let a queue remember (`ending_counts`).

  Whether a line fails does not depend on when it is run (`dispatch_fails`), because what
  running an entry comes to depends on the entry and the actors alone.
-/
import Cuelist.CommandLine.Answer
import Cuelist.Proofs.Outcome
import Cuelist.Proofs.Session.History

namespace Cuelist

open World

/-! ## Counts -/

/-- Lists with the same marks have as many marked items among the last ones. -/
theorem countP_rtake_congr {α β : Type} {f : α → Bool} {g : β → Bool} {as : List α} {bs : List β}
    (h : as.map f = bs.map g) (n : Nat) : (as.rtake n).countP f = (bs.rtake n).countP g := by
  have hmap : ∀ {γ : Type} (k : γ → Bool) (cs : List γ),
      (cs.rtake n).countP k = ((cs.map k).rtake n).countP id := fun k cs => by
    rw [List.rtake, List.rtake, List.length_map, ← List.map_drop, List.countP_map]
    rfl
  rw [hmap, h, ← hmap]

namespace Console

/-! ## Entries that fail -/

/-- Whether running an entry returns an error. -/
def fails (s : Settings) (e : Entry) : Bool :=
  !((executor s).dispatch e (World.start () cast true)).result.isOk

section
variable {s : Settings} {w : World Unit}

theorem mem_commands : ∀ p ∈ (executor s).registry.index.pairs,
    p.2 = Wait.command ∨ p.2 = Narrate.command directory :=
  fun _ => Registry.mem_withBundled

theorem impartial (s : Settings) : (executor s).reporter.Impartial :=
  Reporter.trace_impartial s.debug s.filters

/-- **Whether an entry fails does not depend on when it is run.** -/
theorem dispatch_fails (hw : w.cast = cast) (e : Entry) :
    ((executor s).dispatch e w).result.isOk = !fails s e := by
  obtain ⟨o, ho, -⟩ := Executor.bundled_has (x := executor s) mem_commands (impartial s) e cast
  have hthere : ((executor s).dispatch e w).Has w (o.withId e.id) := ho e.id w hw
  have hstart : ((executor s).dispatch e (World.start () cast true)).Has _ (o.withId e.id) :=
    ho e.id _ rfl
  rw [fails, hthere.result, hstart.result, Bool.not_not]

/-- Nor does it depend on the identity of the entry. -/
theorem fails_withId (e : Entry) (id : EntryId) : fails s (e.withId id) = fails s e := by
  obtain ⟨o, ho, -⟩ := Executor.bundled_has (x := executor s) mem_commands (impartial s) e cast
  have hown : ((executor s).dispatch e (World.start () cast true)).Has _ (o.withId e.id) :=
    ho e.id _ rfl
  rw [fails, fails, (ho id _ rfl).result, hown.result]
  rfl

/-- No event of a reporter or a command tells that a player left. -/
theorem left?_eq_none {event : Event} (he : event.From (executor s).reporter) (time : Nat) :
    left? (time, event) = none := by
  rcases he with ⟨notice, he⟩ | ⟨actor, message, rfl⟩
  · cases notice with
    | summary e command text =>
      simp only [executor, Settings.reporter, Reporter.trace] at he
      split at he
      · rw [List.mem_singleton.1 he]; rfl
      · cases he
    | error | warning => rw [List.mem_singleton.1 he]; rfl
  · rfl

theorem isFailure_eq {r : Record} {waits : Bool} {result : Except CommandError Unit}
    (hr : r.status = Queue.statusOf waits result) : isFailure r = !result.isOk := by
  cases result <;> cases waits <;> simp [isFailure, hr, Queue.statusOf, Except.isOk, Except.toBool]

theorem left?_logged {w' : World Unit} {events : List Event} (hl : w.Logged w' events)
    (he : ∀ event ∈ events, event.From (executor s).reporter) :
    w'.log.findSome? left? = w.log.findSome? left? := by
  have hnone : (events.map (Prod.mk w.now)).reverse.findSome? left? = none := by
    simp only [List.findSome?_eq_none_iff, List.mem_reverse, List.mem_map]
    rintro _ ⟨event, hevent, rfl⟩
    exact left?_eq_none (he event hevent) w.now
  rw [hl, List.findSome?_append, hnone, Option.none_or]

theorem left?_finish (w : World Unit) (h : Handle) (c : Claim)
    (result : Except CommandError Unit) :
    (w.finish (executor s).reporter h c result).2.log.findSome? left? =
      w.log.findSome? left? := by
  have hring : ∀ (v : World Unit) b, (v.ring b).log = v.log := fun v b => by rw [ring_eq]
  have htell : ∀ (v : World Unit) m,
      (v.tell (executor s).reporter (.error m)).log.findSome? left? = v.log.findSome? left? :=
    fun v m => left?_logged (logged_foldl_observe _ v) fun event he => .inl ⟨_, he⟩
  unfold World.finish
  cases result with
  | ok => simp only; split <;> simp only [hring, setQueue]
  | error err => simp only [htell]; split <;> simp only [hring, setQueue]

end

/-! ## Beside the player -/

/-- A change that leaves the player and its queue alone. -/
structure Aside (w v : World Unit) : Prop where
  cast : v.cast = w.cast
  known : w.taskCount ≤ v.taskCount
  queue : v.queues ⟨0⟩ = w.queues ⟨0⟩
  task : v.tasks ⟨0⟩ = w.tasks ⟨0⟩
  players : ∀ t p, v.tasks t = .player p → w.tasks t = .player p
  left : v.log.findSome? left? = w.log.findSome? left?

namespace Aside

variable {s : Settings} {w v u : World Unit}

theorem trans (hv : Aside w v) (hu : Aside v u) : Aside w u where
  cast := hu.cast.trans hv.cast
  known := Nat.le_trans hv.known hu.known
  queue := hu.queue.trans hv.queue
  task := hu.task.trans hv.task
  players t p hp := hv.players t p (hu.players t p hp)
  left := hu.left.trans hv.left

theorem glanced (hg : Glanced w v) : Aside w v := by
  obtain ⟨_, _, _, rfl⟩ := hg
  exact ⟨rfl, Nat.le_refl _, rfl, rfl, fun _ _ hp => hp, rfl⟩

theorem strike (w : World Unit) (time : Nat) : Aside w (w.strike time) := by
  rw [strike_eq]
  exact ⟨rfl, Nat.le_refl _, rfl, rfl, fun _ _ hp => hp, rfl⟩

/-- Another task goes on that is no player. -/
theorem setTask (w : World Unit) {t : TaskId} (ht : t ≠ ⟨0⟩) (task : Task)
    (hn : ∀ p, task ≠ .player p) : Aside w (w.setTask t task) where
  cast := rfl
  known := Nat.le_refl _
  queue := rfl
  task := put_other _ _ ht.symm
  players t' p hp := by
    by_cases hsame : t' = t
    · subst hsame
      exact absurd ((put_same ..).symm.trans hp) (hn p)
    · exact (put_other _ _ hsame).symm.trans hp
  left := rfl

theorem markFinished (w : World Unit) (id : EntryId) : Aside w (w.markFinished id true) := by
  rw [World.markFinished, if_pos rfl, ring_eq]
  exact ⟨rfl, Nat.le_refl _, rfl, rfl, fun _ _ hp => hp, rfl⟩

/-- A task that is no player is polled. -/
theorem poll {x : Executor Unit} {t : TaskId} (ht : t ≠ ⟨0⟩) (hn : ∀ p, w.tasks t ≠ .player p) :
    Aside w (w.poll x t) := by
  have hsleep : ∀ v : World Unit, Aside v (afterTurn t (.sleep, v)) := fun v =>
    glanced ⟨_, v.ready.erase t, _, rfl⟩
  have halarm : ∀ id due, Aside w (afterTurn t (w.advanceAlarm t id due)) := by
    intro id due
    unfold advanceAlarm
    split
    · have hdone := (glanced (.disarm w t)).trans (setTask _ ht .done (by simp))
      exact (hdone.trans (markFinished _ id)).trans (hsleep _)
    · have harmed := (glanced (.arm w due t)).trans (setTask _ ht (.armed id due) (by simp))
      exact harmed.trans (hsleep _)
  rw [World.poll, advance]
  cases htask : w.tasks t with
  | player p => exact absurd htask (hn p)
  | alarm id length => exact halarm id _
  | armed id due => exact halarm id due
  | done => exact hsleep w

/-- An entry is run. -/
theorem dispatch (hk : 0 < w.taskCount) (hw : w.cast = Console.cast) (e : Entry) :
    Aside w ((executor s).dispatch e w).world := by
  obtain ⟨o, ho, hfrom⟩ :=
    Executor.bundled_has (x := executor s) mem_commands (impartial s) e Console.cast
  have hleft : ((executor s).dispatch e w).world.log.findSome? left? = w.log.findSome? left? :=
    left?_logged (ho e.id w hw).logged hfrom
  obtain ⟨log, hv | ⟨id, d, hv⟩⟩ := Executor.bundled_arms (x := executor s) mem_commands e w
  · rw [hv] at hleft ⊢
    exact ⟨rfl, Nat.le_refl _, rfl, rfl, fun _ _ hp => hp, hleft⟩
  rw [hv] at hleft ⊢
  unfold Wait.arm at hleft ⊢
  split
  next hlive =>
    have hne : (⟨w.taskCount⟩ : TaskId) ≠ ⟨0⟩ := fun hc => by
      have := TaskId.mk.inj hc
      omega
    have hset := setTask w hne (.alarm id d) (by simp)
    rw [if_pos hlive, spawn_eq] at hleft
    rw [spawn_eq]
    exact ⟨rfl, Nat.le_succ _, rfl, hset.task, hset.players, hleft⟩
  next hlive =>
    rw [if_neg hlive] at hleft
    have hdone := markFinished { w with log } id
    exact ⟨hdone.cast, hdone.known, hdone.queue, hdone.task, hdone.players, hleft⟩

end Aside

/-! ## The run of an entry -/

/-- What the run of the first entry leaves behind. -/
structure Ran (s : Settings) (e : Entry) (record : Record) (w u : World Unit) : Prop where
  cast : u.cast = w.cast
  known : w.taskCount ≤ u.taskCount
  players : ∀ t p, u.tasks t = .player p → w.tasks t = .player p
  left : u.log.findSome? left? = w.log.findSome? left?
  id : (u.queues ⟨0⟩).id = (w.queues ⟨0⟩).id
  pending : (w.queues ⟨0⟩).pending = e :: (u.queues ⟨0⟩).pending
  stopped : (u.queues ⟨0⟩).stopped = (w.queues ⟨0⟩).stopped
  free : (u.queues ⟨0⟩).dispatching = false
  limit : (u.queues ⟨0⟩).historyLimit = (w.queues ⟨0⟩).historyLimit
  history : (u.queues ⟨0⟩).history =
    Queue.remember (w.queues ⟨0⟩).historyLimit (w.queues ⟨0⟩).history record
  failed : isFailure record = fails s e

section
variable {s : Settings} {w v : World Unit} {e : Entry}

/-- A claim on the first entry is taken back after its run. -/
theorem Ran.finish {rest : List Entry} (hpending : (w.queues ⟨0⟩).pending = e :: rest)
    {q : Queue} (hq : q = { w.queues ⟨0⟩ with
      inFlight := none, pending := rest, started := true, dispatching := true })
    {reply : Reply Unit} (ha : Aside (w.setQueue ⟨0⟩ q) reply.world)
    (hfails : reply.result.isOk = !fails s e) {c : Claim}
    (hc : c.generation = (w.queues ⟨0⟩).generation) :
    ∃ record, Ran s e record w
      (reply.world.finish (executor s).reporter ⟨0⟩ c reply.result).2 := by
  have hqueue := ha.queue
  rw [queues_setQueue, hq] at hqueue
  have hu := finish_eq reply.world (executor s).reporter ⟨0⟩ c reply.result
  have hdone := queues_finish reply.world (executor s).reporter ⟨0⟩ c reply.result
  have hleft := left?_finish (s := s) reply.world ⟨0⟩ c reply.result
  generalize (reply.world.finish (executor s).reporter ⟨0⟩ c reply.result).2 = u at hu hdone hleft
  refine ⟨((reply.world.queues ⟨0⟩).finish reply.world.waiting c reply.result).1, ?_⟩
  exact {
    cast := by rw [hu]; exact ha.cast
    known := by rw [hu]; exact ha.known
    players := fun t p hp => ha.players t p (by rwa [hu] at hp)
    left := hleft.trans ha.left
    id := by rw [hdone, Queue.finish_id, hqueue]
    pending := by rw [hdone, Queue.finish_pending, hqueue, hpending]
    stopped := by rw [hdone, Queue.finish_stopped, hqueue]
    free := by rw [hdone, Queue.finish_dispatching (by rw [hqueue, hc])]
    limit := by rw [hdone, Queue.finish_historyLimit, hqueue]
    history := by rw [hdone, Queue.finish_history, hqueue]
    failed := by rw [isFailure_eq Queue.finish_status, hfails, Bool.not_not] }

/-- **A queue that hands out an entry runs its first one.** -/
theorem Ran.step (hw : w.cast = Console.cast) (hk : 0 < w.taskCount) {c : Claim}
    (hn : w.takeNext ⟨0⟩ = (.ready c, v)) :
    ∃ e record r u, (executor s).step ⟨0⟩ w = (.ran r, u) ∧ Ran s e record w u := by
  rcases htake : (w.queues ⟨0⟩).takeNext w.waiting with ⟨next, q⟩
  obtain ⟨rfl, rfl⟩ := Prod.mk.inj ((World.takeNext_eq htake).symm.trans hn)
  obtain ⟨e, rest, hpending, rfl, hq⟩ := Queue.takeNext_eq_ready htake
  have ha : Aside (w.setQueue ⟨0⟩ q) ((executor s).dispatch e (w.setQueue ⟨0⟩ q)).world :=
    Aside.dispatch (w := w.setQueue ⟨0⟩ q) hk hw e
  have hfails := dispatch_fails (s := s) (w := w.setQueue ⟨0⟩ q) hw e
  obtain ⟨record, hran⟩ := Ran.finish hpending hq ha hfails
    (c := ⟨_, (w.queues ⟨0⟩).generation⟩) rfl
  exact ⟨e, record, _, _, Executor.step_ready hn, hran⟩

end

/-! ## A player that is alone with its queue -/

/-- What a player made of the entries `es`, with the records of its runs so far. -/
structure Solo (s : Settings) (queue : QueueId) (es : List Entry) (records : List Record)
    (p : Player) (w : World Unit) : Prop where
  cast : w.cast = Console.cast
  known : 0 < w.taskCount
  task : w.tasks ⟨0⟩ = .player p
  alone : ∀ t p', w.tasks t = .player p' → t = ⟨0⟩
  handle : p.queue = ⟨0⟩
  id : (w.queues ⟨0⟩).id = queue
  stays : (w.queues ⟨0⟩).stopped = false
  free : (w.queues ⟨0⟩).dispatching = false
  limit : (w.queues ⟨0⟩).historyLimit = s.historyLimit
  /-- The entries are run in order. -/
  ran : ∃ done, es = done ++ (w.queues ⟨0⟩).pending ∧
    records.map isFailure = done.map (fails s)
  remembered : (w.queues ⟨0⟩).history = records.rtake s.historyLimit
  played : p.played = records.length
  here : p.rest ≠ .gone → w.log.findSome? left? = none
  /-- The player leaves when it ran all entries. -/
  gone : p.rest = .gone → (w.queues ⟨0⟩).pending = [] ∧ (w.queues ⟨0⟩).inFlight = none ∧
    ∃ time, w.log.findSome? left? = some (time, p.played)

namespace Solo

variable {s : Settings} {queue : QueueId} {es : List Entry} {records : List Record}
  {p : Player} {w v : World Unit}

theorem aside (hs : Solo s queue es records p w) (ha : Aside w v) :
    Solo s queue es records p v where
  cast := ha.cast.trans hs.cast
  known := Nat.lt_of_lt_of_le hs.known ha.known
  task := ha.task.trans hs.task
  alone t p' hp := hs.alone t p' (ha.players t p' hp)
  handle := hs.handle
  id := by rw [ha.queue]; exact hs.id
  stays := by rw [ha.queue]; exact hs.stays
  free := by rw [ha.queue]; exact hs.free
  limit := by rw [ha.queue]; exact hs.limit
  ran := by rw [ha.queue]; exact hs.ran
  remembered := by rw [ha.queue]; exact hs.remembered
  played := hs.played
  here hr := ha.left.trans (hs.here hr)
  gone hr := by rw [ha.queue, ha.left]; exact hs.gone hr

/-- The queue lets an entry in flight go. -/
theorem letGo (hs : Solo s queue es records p w) :
    Solo s queue es records p (w.setQueue ⟨0⟩ { w.queues ⟨0⟩ with inFlight := none }) := by
  have hqueue := queues_setQueue w ⟨0⟩ { w.queues ⟨0⟩ with inFlight := none }
  exact { hs with
    id := by rw [hqueue]; exact hs.id
    stays := by rw [hqueue]; exact hs.stays
    free := by rw [hqueue]; exact hs.free
    limit := by rw [hqueue]; exact hs.limit
    ran := by rw [hqueue]; exact hs.ran
    remembered := by rw [hqueue]; exact hs.remembered
    gone := fun hr => by rw [hqueue]; exact ⟨(hs.gone hr).1, rfl, (hs.gone hr).2.2⟩ }

theorem alone_put (hs : Solo s queue es records p w) (task : Task) :
    ∀ t p', (w.setTask ⟨0⟩ task).tasks t = .player p' → t = ⟨0⟩ := fun t p' ht => by
  by_contra hne
  exact hne (hs.alone t p' ((put_other _ _ hne).symm.trans ht))

/-- The player stays and changes its rest. -/
theorem rest (hs : Solo s queue es records p w) (hp : p.rest ≠ .gone) {r : Rest} (hr : r ≠ .gone) :
    Solo s queue es records { p with rest := r } (w.rest ⟨0⟩ p r) :=
  { hs with
    task := put_same w.tasks ⟨0⟩ _
    alone := hs.alone_put _
    here := fun _ => hs.here hp
    gone := fun hg => absurd hg hr }

/-- The player leaves. -/
theorem depart (hs : Solo s queue es records p w) (hpending : (w.queues ⟨0⟩).pending = [])
    (hflight : (w.queues ⟨0⟩).inFlight = none) :
    Solo s queue es records { p with rest := .gone } (w.depart ⟨0⟩ p) :=
  { hs with
    task := put_same w.tasks ⟨0⟩ _
    alone := hs.alone_put _
    here := fun hg => absurd rfl hg
    gone := fun _ => ⟨hpending, hflight, w.now, rfl⟩ }

/-- **The player runs the first entry.** -/
theorem run (hs : Solo s queue es records p w) (hp : p.rest = .awake) {e : Entry} {record : Record}
    (hr : Ran s e record w v) (instant : Bool) :
    Solo s queue es (records ++ [record]) (p.afterRun v.now instant)
      (v.setTask ⟨0⟩ (.player (p.afterRun v.now instant))) where
  cast := hr.cast.trans hs.cast
  known := Nat.lt_of_lt_of_le hs.known hr.known
  task := put_same v.tasks ⟨0⟩ _
  alone t p' ht := by
    by_contra hne
    exact hne (hs.alone t p' (hr.players t p' ((put_other _ _ hne).symm.trans ht)))
  handle := hs.handle
  id := hr.id.trans hs.id
  stays := hr.stopped.trans hs.stays
  free := hr.free
  limit := hr.limit.trans hs.limit
  ran := by
    obtain ⟨done, hes, hfailed⟩ := hs.ran
    refine ⟨done ++ [e], ?_, ?_⟩
    · rw [hes, hr.pending, List.append_cons]; rfl
    · rw [List.map_append, List.map_append, hfailed, List.map_singleton, List.map_singleton,
        hr.failed]
  remembered := by
    have hhistory := hr.history
    rw [hs.limit, hs.remembered, Queue.remember_rtake] at hhistory
    exact hhistory
  played := by simp [Player.afterRun, hs.played]
  here _ := hr.left.trans (hs.here (by simp [hp]))
  gone hg := by simp [Player.afterRun, hp] at hg

/-- **A poll of the player** runs the first entry at most. -/
theorem poll (hs : Solo s queue es records p w) :
    ∃ records' p', Solo s queue es records' p' (w.poll (executor s) ⟨0⟩) := by
  by_cases hgone : p.rest = .gone
  · rw [poll_gone hs.task hgone]
    exact ⟨records, p, hs.aside (.glanced ⟨_, w.ready.erase ⟨0⟩, _, rfl⟩)⟩
  by_cases hawake : p.rest = .awake
  · rw [poll_awake hs.task hawake]
    simp only [World.play]
    cases hask : w.chance p with
    | leave =>
      have hstopped := chance_leave.1 hask
      rw [hs.handle, hs.stays] at hstopped
      cases hstopped
    | delay due => exact ⟨records, _, hs.rest hgone (by simp)⟩
    | ask instant =>
      simp only [hs.handle]
      cases hh : (w.queues ⟨0⟩).holder? w.waiting with
      | some id =>
        have hn := World.takeNext_eq (Queue.takeNext_awaiting hs.free hh)
        rw [setQueue_self] at hn
        rw [Executor.step_awaiting hn]
        exact ⟨records, _, hs.rest hgone (by simp)⟩
      | none =>
        cases hp : (w.queues ⟨0⟩).pending with
        | nil =>
          have hlet := hs.letGo
          rw [Executor.step_empty (World.takeNext_eq (Queue.takeNext_empty hs.free hh hp))]
          simp only
          split
          · have hdone := hlet.depart (by rw [queues_setQueue]; exact hp) (by rw [queues_setQueue])
            exact ⟨records, _, hdone⟩
          · exact ⟨records, _, hlet.rest hgone (by simp)⟩
        | cons e rest =>
          obtain ⟨e, record, r, u, hstep, hran⟩ := Ran.step (s := s) hs.cast hs.known
            (World.takeNext_eq (Queue.takeNext_ready hs.free hh hp))
          rw [hstep]
          exact ⟨_, _, hs.run hawake hran instant⟩
  · obtain ⟨v, r, hv, hr, hpoll⟩ := poll_looks (x := executor s) hs.task hawake hgone
    rw [hpoll]
    exact ⟨records, _, (hs.aside (.glanced hv)).rest hgone hr⟩

/-- A pulse polls the player or a task beside it. -/
theorem pulse (hs : Solo s queue es records p w) :
    ∃ records' p', Solo s queue es records' p' (pulse (executor s) w) := by
  cases hready : w.ready with
  | nil =>
    have hsame : World.pulse (executor s) w = w := by simp [World.pulse, hready]
    exact ⟨records, p, by rwa [hsame]⟩
  | cons t rest =>
    rw [pulse_eq_poll _ hready]
    by_cases ht : t = ⟨0⟩
    · rw [ht]
      exact hs.poll
    · exact ⟨records, p, hs.aside (.poll ht fun p' hp => ht (hs.alone t p' hp))⟩

/-- **Whatever the clock makes of it, a player that is alone runs the entries in order.** -/
theorem playOut (hs : Solo s queue es records p w) (limit timers : Nat) :
    ∃ records' p', Solo s queue es records' p' (w.playOut (executor s) limit timers) :=
  playOut_keeps (P := fun v => ∃ records p, Solo s queue es records p v)
    (fun _ ⟨_, _, hv⟩ => hv.pulse) (fun v time ⟨_, _, hv⟩ => ⟨_, _, hv.aside (.strike v time)⟩)
    limit timers ⟨records, p, hs⟩

/-- A player that starts has run nothing. -/
theorem start (hcast : w.cast = Console.cast) (hcount : w.taskCount = 0)
    (htasks : ∀ t p, w.tasks t ≠ .player p) (hlog : w.log = [])
    (hid : (w.queues ⟨0⟩).id = queue) (hstays : (w.queues ⟨0⟩).stopped = false)
    (hfree : (w.queues ⟨0⟩).dispatching = false)
    (hlimit : (w.queues ⟨0⟩).historyLimit = s.historyLimit)
    (hhistory : (w.queues ⟨0⟩).history = []) :
    Solo s queue (w.queues ⟨0⟩).pending [] ⟨⟨0⟩, s.speed, true, none, 0, .awake⟩
      (w.startPlayer ⟨0⟩ s.speed true) := by
  rw [startPlayer, spawn_eq, hcount]
  exact {
    cast := hcast
    known := Nat.one_pos
    task := put_same w.tasks ⟨0⟩ _
    alone := fun t p' ht => by
      by_contra hne
      exact htasks t p' ((put_other _ _ hne).symm.trans ht)
    handle := rfl
    id := hid
    stays := hstays
    free := hfree
    limit := hlimit
    ran := ⟨[], rfl, rfl⟩
    remembered := hhistory.trans (List.rtake_nil ..).symm
    played := rfl
    here := fun _ => congrArg (List.findSome? left?) hlog
    gone := fun hg => by cases hg }

end Solo

end Console

/-! ## Lines -/

namespace ConsoleLine

/-- Whether the entry of a line is instant. -/
def instant (line : ConsoleLine) : Bool := line.command.toList.head? == some '^'

/-- The entry that a queue gets for a line, if it can be made. -/
def queued? (queue : QueueId) (line : ConsoleLine) : Option Entry :=
  (line.entry (World.start () Console.cast true)).toOption.map fun made => made.1.attach queue

/-- Whether running the entry of a line returns an error. -/
def fails (s : Settings) (queue : QueueId) (line : ConsoleLine) : Bool :=
  (line.queued? queue).any (Console.fails s)

/-- The lines in the order in which they are run: the instant ones first. -/
def inRunOrder (lines : List ConsoleLine) : List ConsoleLine :=
  lines.filter (fun line => line.instant) ++ lines.filter fun line => !line.instant

theorem inRunOrder_perm (lines : List ConsoleLine) : (inRunOrder lines).Perm lines :=
  List.filter_append_perm ..

theorem instant_of_readCommand {text name : String} {timing : Timing}
    (h : readCommand text = .ok (timing, name)) :
    (timing == .instant) = (text.toList.head? == some '^') := by
  unfold readCommand at h
  split at h
  · cases h
  · cases h
  · cases h
  next htext => cases h; rw [htext]; rfl
  next htext => cases h; rw [htext]; rfl
  next hinstant _ =>
    cases h
    cases htext : text.toList with
    | nil => rfl
    | cons c rest =>
      have hc : c ≠ '^' := fun hc => hinstant rest (hc ▸ htext)
      simp [hc]

/-- The entry that is made for a line, for an identity. -/
def made (line : ConsoleLine) (id : EntryId) (timing : Timing) (name : String) : Entry :=
  let e := Entry.make id timing name line.arguments none
  if line.console then e.setSubject (some Console.ref) else e

theorem entry_of_readCommand {line : ConsoleLine} {timing : Timing} {name : String}
    (h : readCommand line.command = .ok (timing, name)) (w : World Unit) :
    line.entry w = .ok (line.made ⟨w.entryCount⟩ timing name, { w with
      entryCount := w.entryCount + 1
      waiting := put w.waiting ⟨w.entryCount⟩ (timing == .waitFor) }) := by
  simp only [entry, newEntry, h, Except.map, made]

/-- **Whether the entry of a line fails is known from the line**, and so is whether it is
    instant; nothing else changes but which entries were made and which wait. -/
theorem of_entry (s : Settings) (queue : QueueId) {line : ConsoleLine} {w w' : World Unit}
    {e : Entry} (he : line.entry w = .ok (e, w')) :
    (∃ entryCount waiting, w' = { w with entryCount, waiting }) ∧
      (e.attach queue).instant = line.instant ∧
        Console.fails s (e.attach queue) = line.fails s queue := by
  cases hread : readCommand line.command with
  | error err => simp [entry, newEntry, hread, Except.map] at he
  | ok made =>
    obtain ⟨timing, name⟩ := made
    rw [entry_of_readCommand hread] at he
    obtain ⟨rfl, rfl⟩ := Prod.mk.inj (Except.ok.inj he)
    refine ⟨⟨_, _, rfl⟩, ?_, ?_⟩
    · rw [instant, ← instant_of_readCommand hread]
      simp only [ConsoleLine.made]
      split <;> rfl
    · have hid : (line.made ⟨w.entryCount⟩ timing name).attach queue =
          ((line.made ⟨0⟩ timing name).attach queue).withId ⟨w.entryCount⟩ := by
        simp only [ConsoleLine.made]
        split <;> rfl
      simp only [hid, Console.fails_withId, fails, queued?, entry_of_readCommand hread,
        Except.toOption, Option.map_some, Option.any_some]
      rfl

end ConsoleLine

namespace Console

/-! ## Admission -/

open Session

/-- Whether entries are those of lines in the order in which they are run, as far as one
    can tell from whether they are instant and fail. -/
structure Lined (s : Settings) (queue : QueueId) (lines : List ConsoleLine) (es : List Entry) :
    Prop where
  instantsFirst : InstantsFirst es
  failing : ∀ b, (ofClass b es).map (fails s) =
    (lines.filter fun line => line.instant == b).map (ConsoleLine.fails s queue)

section
variable {s : Settings} {queue : QueueId} {lines : List ConsoleLine} {es : List Entry}

theorem Lined.splice (hl : Lined s queue lines es) {line : ConsoleLine} {e : Entry}
    (hi : e.instant = line.instant) (hf : fails s e = line.fails s queue) :
    Lined s queue (lines ++ [line]) (Queue.splice e es) where
  instantsFirst := hl.instantsFirst.splice e
  failing b := by
    rw [ofClass_splice hl.instantsFirst, List.map_append, hl.failing, List.filter_append,
      List.map_append]
    congr 1
    simp only [ofClass, List.filter_singleton, hi]
    cases line.instant == b
    · rfl
    · exact congrArg (fun failed => [failed]) hf

/-- The entries fail as the lines do, in the order in which these are run. -/
theorem Lined.map_fails (hl : Lined s queue lines es) :
    es.map (fails s) = (ConsoleLine.inRunOrder lines).map (ConsoleLine.fails s queue) := by
  rw [hl.instantsFirst.eq_append, List.map_append, hl.failing, hl.failing,
    ConsoleLine.inRunOrder, List.map_append]
  simp

/-- There are as many entries as lines. -/
theorem Lined.length_eq (hl : Lined s queue lines es) : es.length = lines.length := by
  have hlength := congrArg List.length hl.map_fails
  rwa [List.length_map, List.length_map, (ConsoleLine.inRunOrder_perm lines).length_eq] at hlength

/-- What admission leaves as it is. -/
structure Admits (h : Handle) (w w' : World Unit) : Prop where
  cast : w'.cast = w.cast
  calm : w.Calm w'
  log : w'.log = w.log
  queue : ∃ pending, w'.queues h = { w.queues h with pending }

theorem hushed_opened (s : Settings) (queue : QueueId) : (opened s queue).Hushed :=
  fun _ => ⟨rfl, rfl⟩

/-- **Admission puts the entries of all lines in the order in which they are run.** -/
theorem admitAll_lined {h : Handle} {w w' : World Unit} (done : List ConsoleLine)
    (hw : Lined s queue done (w.queues h).pending) (hid : (w.queues h).id = queue)
    (hhushed : w.Hushed) (ha : admitAll h lines w = .ok w') :
    Lined s queue (done ++ lines) (w'.queues h).pending ∧ Admits h w w' := by
  induction lines generalizing done w with
  | nil =>
    obtain rfl := Except.ok.inj ha
    exact ⟨by rwa [List.append_nil], rfl, ⟨hhushed, rfl, rfl, rfl, rfl, rfl⟩, rfl, _, rfl⟩
  | cons line lines ih =>
    simp only [admitAll] at ha
    cases hentry : line.entry w with
    | error err => rw [hentry] at ha; cases ha
    | ok made =>
      obtain ⟨e, v⟩ := made
      obtain ⟨⟨entryCount, waiting, rfl⟩, hinstant, hfails⟩ := ConsoleLine.of_entry s queue hentry
      rw [hentry] at ha
      simp only at ha
      cases henqueue : World.enqueue { w with entryCount, waiting } h e with
      | error err => rw [henqueue] at ha; cases ha
      | ok u =>
        rw [henqueue] at ha
        have hu := enqueue_eq henqueue
        have hcalm : w.Calm u := by
          have hmade : w.Calm { w with entryCount, waiting } :=
            ⟨hhushed, rfl, rfl, rfl, rfl, rfl⟩
          rw [hu]
          refine hmade.trans ((World.Calm.setQueue hmade.hushed h _).trans (.ring ?_ _))
          exact hmade.hushed
        rw [ring_eq] at hu
        have hqueue : u.queues h = { w.queues h with
            pending := Queue.splice (e.attach queue) (w.queues h).pending } := by
          rw [hu, ← hid]
          exact put_same ..
        obtain ⟨hlined, hadmits⟩ := ih (w := u) (done ++ [line])
          (by rw [hqueue]; exact hw.splice hinstant hfails) (by rw [hqueue, hid]) hcalm.hushed ha
        obtain ⟨pending, hpending⟩ := hadmits.queue
        exact ⟨by rwa [List.append_assoc] at hlined, hadmits.cast.trans (by rw [hu]; rfl),
          hcalm.trans hadmits.calm, hadmits.log.trans (by rw [hu]; rfl), pending,
          by rw [hpending, hqueue]⟩

/-! ## Summaries -/

/-- A run is what the clock makes of a player and a queue with the entries of all lines. -/
theorem of_play {w : World Unit} (hplay : play s queue lines = .ok w) :
    ∃ v, Lined s queue lines (v.queues ⟨0⟩).pending ∧ Admits ⟨0⟩ (opened s queue) v ∧
      w = (v.startPlayer ⟨0⟩ s.speed true).playOut (executor s) (stepBound lines.length)
        (stepBound lines.length) := by
  cases hadmit : admitAll handle lines (opened s queue) with
  | error message => rw [play, hadmit] at hplay; cases hplay
  | ok v =>
    rw [play, hadmit] at hplay
    obtain ⟨hlined, ha⟩ := admitAll_lined (w := opened s queue) (h := handle) (s := s) []
      ⟨.nil, fun _ => rfl⟩ rfl (hushed_opened s queue) hadmit
    exact ⟨v, hlined, ha, (Except.ok.inj hplay).symm⟩

/-- **The player of a run is alone with its queue** until the end. -/
theorem play_solo {w : World Unit} (hplay : play s queue lines = .ok w) :
    ∃ es records p, Lined s queue lines es ∧ Solo s queue es records p w := by
  obtain ⟨v, hlined, ha, rfl⟩ := of_play hplay
  obtain ⟨pending, hqueue⟩ := ha.queue
  have hstart : Solo s queue (v.queues ⟨0⟩).pending [] _ _ :=
    .start ha.cast ha.calm.taskCount (fun t p ht => by rw [ha.calm.tasks] at ht; cases ht) ha.log
      (by rw [hqueue]; rfl) (by rw [hqueue]; rfl) (by rw [hqueue]; rfl) (by rw [hqueue]; rfl)
      (by rw [hqueue]; rfl)
  obtain ⟨records, p, hs⟩ := hstart.playOut (stepBound lines.length) (stepBound lines.length)
  exact ⟨_, records, p, hlined, hs⟩

/-- **The summary of a run** counts all lines, and those that fail among the last ones that
    are run, as many as the queue remembers. -/
theorem ending_counts {w : World Unit} (hplay : play s queue lines = .ok w) {e : Ending}
    (he : ending? w = some e) :
    e.queue = queue ∧ e.played = lines.length ∧ e.failed =
      ((ConsoleLine.inRunOrder lines).rtake s.historyLimit).countP (ConsoleLine.fails s queue) := by
  obtain ⟨es, records, p, hlined, hs⟩ := play_solo hplay
  obtain ⟨⟨time, played⟩, hleft, rfl⟩ := Option.map_eq_some_iff.1 he
  have hgone : p.rest = .gone := by
    by_contra hne
    rw [hs.here hne] at hleft
    cases hleft
  obtain ⟨hpending, -, _, hleft'⟩ := hs.gone hgone
  obtain ⟨-, rfl⟩ := Prod.mk.inj (Option.some.inj (hleft'.symm.trans hleft))
  obtain ⟨done, hdone, hfailed⟩ := hs.ran
  rw [hpending, List.append_nil] at hdone
  rw [← hdone] at hfailed
  have hlength := congrArg List.length hfailed
  rw [List.length_map, List.length_map, hlined.length_eq] at hlength
  rw [hlined.map_fails] at hfailed
  refine ⟨hs.id, hs.played.trans hlength, ?_⟩
  simp only [hs.remembered]
  exact countP_rtake_congr hfailed s.historyLimit

end

end Console

end Cuelist
