/-
  Three ways to drive a queue.

  A queue can be held while its entries run, it can be open, and a player can run it in
  its own time.  `run_ways` says that the three agree in every session, for executors
  that keep off the queue and off the clock: they run the same entries with the same
  outcomes, show the same and leave the same queue.

  Executors whose commands only `Speak` are of this kind: what they do is to report, and
  they look at nothing but the cast.  The command that sends a line of text is one.
-/
import Cuelist.Command.Narrate
import Cuelist.Proofs.Player.Course
import Cuelist.Proofs.Session.Stop

namespace Cuelist

variable {σ : Type} {h : Handle}

/-! ## Executors that only speak -/

/-- Whether all that is done for an entry is to report, looking at nothing but the
    cast. -/
def Speaks (run : Entry → World σ → Reply σ) : Prop :=
  ∀ e, ∃ say : Cast → Except CommandError Unit × Entry × List Event, ∀ w,
    run e w = ⟨(say w.cast).1, (say w.cast).2.1, (say w.cast).2.2.foldl World.observe w⟩

theorem World.cast_foldl_observe (events : List Event) (w : World σ) :
    (events.foldl observe w).cast = w.cast :=
  List.foldlRecOn (motive := fun v : World σ => v.cast = w.cast) events _ rfl fun _ hv _ _ => hv

theorem World.setQueue_foldl_observe (events : List Event) (w : World σ) (q : Queue) :
    events.foldl observe (w.setQueue h q) = (events.foldl observe w).setQueue h q :=
  List.foldl_hom (setQueue · h q) fun _ _ => rfl

theorem World.Calm.foldl_observe {w : World σ} (hw : w.Hushed) (events : List Event) :
    w.Calm (events.foldl observe w) :=
  List.foldlRecOn (motive := w.Calm) events _ ⟨hw, rfl, rfl, rfl, rfl, rfl⟩
    fun _ hv _ _ => hv.trans ⟨hv.hushed, rfl, rfl, rfl, rfl, rfl⟩

section
variable {x : Executor σ}

theorem Speaks.aloof (hx : Speaks x.dispatch) : x.Aloof h := by
  intro e w q
  obtain ⟨say, hsay⟩ := hx e
  rw [hsay, hsay, World.setQueue_foldl_observe]
  rfl

theorem Speaks.timeless (hx : Speaks x.dispatch) : x.Timeless h where
  alike e w v hs := by
    obtain ⟨say, hsay⟩ := hx e
    have hcast : v.cast = w.cast := by rw [hs.rest]
    rw [hsay, hsay, hcast]
    exact ⟨rfl, rfl, List.foldl_rel hs fun e _ _ _ hs => hs.observe e⟩
  calm e w hw := by
    obtain ⟨say, hsay⟩ := hx e
    rw [hsay]
    exact .foldl_observe hw _

theorem World.foldl_tell {α : Type} (r : Reporter) (notice : α → Notice) (as : List α)
    (w : World σ) : as.foldl (fun w a => w.tell r (notice a)) w =
      (as.flatMap fun a => r.events (notice a)).foldl observe w := by
  rw [List.foldl_flatMap]
  rfl

/-- It is enough to know what is done in the worlds with one cast. -/
theorem speaks_of_cast {run : Entry → World σ → Reply σ}
    (hr : ∀ e cast, ∃ said : Except CommandError Unit × Entry × List Event, ∀ w, w.cast = cast →
      run e w = ⟨said.1, said.2.1, said.2.2.foldl World.observe w⟩) : Speaks run := by
  intro e
  choose say hsay using hr e
  exact ⟨say, fun w => hsay w.cast w rfl⟩

/-- **An executor speaks if all its commands do.** -/
theorem speaks_of_commands (hc : ∀ p ∈ x.registry.index.pairs, ∀ call,
    Speaks (p.2.parse call) ∧ Speaks (p.2.execute call)) : Speaks x.dispatch := by
  refine speaks_of_cast fun e cast => ?_
  rcases hr : Tag.resolveEntry x.resolver e with ⟨e', warnings⟩
  let warned := warnings.flatMap fun m => x.reporter.events (.warning m)
  cases hl : x.registry.lookup e'.command with
  | error err =>
    refine ⟨(.error err, e', warned), fun w _ => ?_⟩
    simp only [Executor.dispatch, hr, hl, World.foldl_tell, warned]
  | ok c =>
    obtain ⟨key, hm⟩ := Registry.mem_of_lookup hl
    let call : Call := ⟨e'.command, x.reporter, x.scripts⟩
    have hphases : Speaks (c.parse call) ∧ Speaks (c.execute call) := hc _ hm call
    obtain ⟨parse, hparse⟩ := hphases.1 e'
    cases hp : (parse cast).1 with
    | error err =>
      refine ⟨(.error err, (parse cast).2.1, warned ++ (parse cast).2.2), fun w hw => ?_⟩
      simp only [Executor.dispatch, hr, hl, World.foldl_tell, Executor.perform]
      rw [hparse, World.cast_foldl_observe, hw, hp, List.foldl_append]
    | ok =>
      obtain ⟨execute, hexecute⟩ := hphases.2 (parse cast).2.1
      refine ⟨((execute cast).1, (execute cast).2.1,
        warned ++ (parse cast).2.2 ++ (execute cast).2.2), fun w hw => ?_⟩
      simp only [Executor.dispatch, hr, hl, World.foldl_tell, Executor.perform]
      rw [hparse, World.cast_foldl_observe, hw, hp]
      simp only [hexecute, World.cast_foldl_observe, hw, List.foldl_append, warned, call]

/-- What an effect of a line of text shows. -/
def Narrate.Effect.events (call : Call) (e : Entry) : Narrate.Effect → List Event
  | .report text => call.reporter.events (.summary e call.command text)
  | .send actor message => [.sent actor message]
  | .fail message => call.reporter.events (.error message)

theorem Narrate.apply_eq (call : Call) (e : Entry) (w : World σ) (effect : Narrate.Effect) :
    effect.apply call e w = (effect.events call e).foldl World.observe w := by
  cases effect <;> rfl

theorem Narrate.speaks (directory : Narrate.Directory) (call : Call) :
    Speaks ((Narrate.command (σ := σ) directory).parse call) ∧
      Speaks ((Narrate.command (σ := σ) directory).execute call) := by
  constructor
  · intro e
    refine ⟨fun cast =>
      let read := read (directory cast) call.scripts e
      (read.1, read.2.entry, read.2.errors.flatMap fun m => call.reporter.events (.error m)),
      fun w => ?_⟩
    simp only [Narrate.command, World.foldl_tell]
  · refine speaks_of_cast fun e cast => ?_
    cases hw : work cast e with
    | error err =>
      refine ⟨(.error err, e, []), fun w hcast => ?_⟩
      simp only [Narrate.command, hcast, hw, List.foldl_nil]
    | ok effects =>
      refine ⟨(.ok (), e, effects.flatMap (Effect.events call e)), fun w hcast => ?_⟩
      simp only [Narrate.command, hcast, hw, List.foldl_flatMap, ← apply_eq]

end

namespace Session

/-! ## Three ways to drive a queue -/

open World

variable {x : Executor σ} {w : World σ}

/-- A drained queue has no claim out. -/
theorem dispatching_of_drained {waiting : EntryId → Bool} {q : Queue}
    (hq : q.state waiting = .drained) : q.dispatching = false := by
  simp only [Queue.state] at hq
  split at hq
  · cases hq
  split at hq
  · cases hq
  next hrun => simp_all

/-- A queue that a run drains had no claim out. -/
theorem dispatching_of_runQueue {n : Nat}
    (hdrained : ((x.runQueue h n w).2.queues h).state (x.runQueue h n w).2.waiting = .drained) :
    (w.queues h).dispatching = false := by
  cases n with
  | zero => exact dispatching_of_drained hdrained
  | succ n =>
    cases hd : (w.queues h).dispatching with
    | false => rfl
    | true =>
      have hn := World.takeNext_eq (w := w) (Queue.takeNext_busy hd)
      rw [World.setQueue_self] at hn
      simp only [Executor.runQueue, Executor.step, hn, Next.idleTick] at hdrained
      rw [dispatching_of_drained hdrained] at hd
      cases hd

theorem poised_startPlayer (hushed : w.Hushed) (ready : w.ready = []) (timers : w.timers = [])
    (speed : Span) (leaves : Bool) :
    Poised ⟨w.taskCount⟩ ⟨h, speed, leaves, none, 0, .awake⟩ (w.startPlayer h speed leaves) ∧
      w.Alike h (w.startPlayer h speed leaves) := by
  have hstart : w.startPlayer h speed leaves = { w with
      tasks := put w.tasks ⟨w.taskCount⟩ (.player ⟨h, speed, leaves, none, 0, .awake⟩)
      taskCount := w.taskCount + 1
      ready := [⟨w.taskCount⟩] } := by
    simp [startPlayer, spawn, wake, setTask, ready]
  rw [hstart]
  exact ⟨⟨put_same .., rfl, rfl, timers, hushed⟩, fun _ _ => rfl, rfl, rfl⟩

/-- A player leaves a queue that was stopped, and nothing more comes of the queue. -/
theorem leaves_closed {t : TaskId} {p : Player} {v : World σ} (hs : w.Alike p.queue v)
    (hp : Poised t p v) (hstop : (w.queues p.queue).stopped = true)
    (hclosed : Closed (w.queues p.queue)) (n : Nat) :
    ∃ u, Course x v (x.runQueue p.queue (n + 1) w).1 u ∧
      Parted p.queue t (p.played + (x.runQueue p.queue (n + 1) w).1.length)
        (x.runQueue p.queue (n + 1) w).2 u := by
  have hleave : v.chance p = .leave := chance_leave.2 (by rw [hs.queues]; exact hstop)
  have hcalm : v.Calm v := ⟨hp.hushed, rfl, rfl, rfl, rfl, rfl⟩
  obtain ⟨u, hcourse, hend⟩ := hp.departs (x := x) hcalm (hp.turn_silent (by simp [hleave]))
    (by simp only [play, hleave])
  rw [hclosed.runQueue x (n + 1)]
  exact ⟨u, hcourse, hend.of_alike hs⟩

/-- **However a queue is driven, the same entries run.**  In every session with a new
    queue and for every executor that keeps off the queue, running the open queue with a
    limit above the number of entries to run is running the held queue until it is
    blocked: the records and the whole world are the same.

    If the executor keeps off the clock too, nothing else goes on in the world and the
    run drains the queue, then a player that leaves when the queue is drained has a
    course of its own, at any speed, that runs the entries with the same records and
    leaves the same behind: the same queue, and the same was seen but for the player
    that left.  The player counted the records, and letting time pass ends there. -/
theorem run_ways (h : Handle) (w : World σ) (id : QueueId) (limit : Nat)
    (acts : List (Act σ)) (x : Executor σ) (aloof : x.Aloof h) :
    let s := (start h w id limit).run h acts
    let done := Executor.holding h s.world (x.runUntilBlocked h)
    (∀ n > (s.queue h).pending.length, x.runQueue h n s.world = done) ∧
      (x.Timeless h → s.world.Hushed → s.world.ready = [] → s.world.timers = [] →
        (done.2.queues h).state done.2.waiting = .drained → ∀ speed,
          let v := s.world.startPlayer h speed true
          ∃ u, Course x v done.1 u ∧
            Parted h ⟨s.world.taskCount⟩ done.1.length done.2 u ∧
              ∃ n, ∀ pulses ≥ n, ∀ timers ≥ n, playOut x pulses timers v = u) := by
  intro s done
  have hrun : ∀ n > (s.queue h).pending.length, x.runQueue h n s.world = done :=
    fun n hn => Executor.runQueue_eq aloof hn
  refine ⟨hrun, ?_⟩
  intro timeless hushed ready timers hdrained speed v
  obtain ⟨hp, hs⟩ := poised_startPlayer (h := h) hushed ready timers speed true
  obtain ⟨n, hn⟩ : ∃ n, (s.queue h).pending.length < n + 1 := ⟨_, Nat.lt_succ_self _⟩
  rw [← hrun _ hn] at hdrained ⊢
  have hends : ∃ u, Course x v (x.runQueue h (n + 1) s.world).1 u ∧
      Parted h ⟨s.world.taskCount⟩ (0 + (x.runQueue h (n + 1) s.world).1.length)
        (x.runQueue h (n + 1) s.world).2 u := by
    cases hstop : (s.queue h).stopped with
    | true => exact leaves_closed hs hp hstop (run_closed h w id limit acts hstop) n
    | false =>
      have hfree := dispatching_of_runQueue hdrained
      exact hp.performs aloof timeless rfl hs rfl hfree hstop hn hdrained
  obtain ⟨u, hcourse, hend⟩ := hends
  rw [Nat.zero_add] at hend
  obtain ⟨n, -, hplay⟩ := hcourse.playOut hend.ready hend.timers
  exact ⟨u, hcourse, hend, n, hplay⟩

/-- A player runs two entries that fail, in the order in which they are run without
    it, and leaves. -/
theorem run_ways_failing :
    let e := Entry.make ⟨0⟩ .normal "last" [] none
    let f := Entry.make ⟨1⟩ .instant "first" [] none
    let x : Executor Unit := ⟨.empty, Tag.keep, .plain, {}⟩
    let s := (start ⟨0⟩ (World.start () {} true) ⟨"main"⟩ 0).run ⟨0⟩ [.enqueue e, .enqueue f]
    let records := (Executor.holding ⟨0⟩ s.world (x.runUntilBlocked ⟨0⟩)).1
    let v := s.world.startPlayer ⟨0⟩ (Span.ofMillis 5) true
    records.map Record.entry = [⟨1⟩, ⟨0⟩] ∧ (x.runQueue ⟨0⟩ 5 s.world).1 = records ∧
      ∃ u, Course x v records u ∧ (∃ p, u.tasks ⟨0⟩ = .player p ∧ p.played = 2) ∧
        ∃ n, ∀ pulses ≥ n, ∀ timers ≥ n, playOut x pulses timers v = u := by
  intro e f x s records v
  have hspeaks : Speaks x.dispatch := speaks_of_commands fun p hp => absurd hp List.not_mem_nil
  obtain ⟨hopen, hplayer⟩ := run_ways ⟨0⟩ (World.start () {} true) ⟨"main"⟩ 0
    [.enqueue e, .enqueue f] x hspeaks.aloof
  have hushed : s.world.Hushed := by
    have hbells : s.world.bells = put (put (fun _ => {}) (.queue ⟨0⟩) ⟨true, [], []⟩) (.queue ⟨0⟩)
      ⟨true, [], []⟩ := rfl
    intro b
    rw [hbells, put_put]
    by_cases hb : b = .queue ⟨0⟩ <;> simp [put, hb]
  obtain ⟨u, hcourse, hend, hplay⟩ :=
    hplayer hspeaks.timeless hushed rfl rfl rfl (Span.ofMillis 5)
  obtain ⟨p, htask, -, hcount⟩ := hend.gone
  exact ⟨rfl, congrArg Prod.fst (hopen 5 (by decide)), u, hcourse, ⟨p, htask, hcount⟩, hplay⟩

end Session

end Cuelist
