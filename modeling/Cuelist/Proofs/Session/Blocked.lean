/-
  Running a held queue until it is blocked.

  A run goes on as long as its last tick ran an entry (`Executor.Loop`).

  * `Executor.loop_iff`: every run of every queue ends, in one way.
  * `Executor.exists_advances`: if nothing keeps the queue back, the run takes its entries in order,
    each in the world that the one before left (`Executor.runEach`), up to the first that holds the
    queue (`Reply.Holds`) or to the end.
  * `Session.run_until_blocked`: in a session a current claim and an entry that waits keep a queue
    back, and nothing else does; not even a claim from before the queue was cleared
    (`cleared_claim_keeps_nothing_back`).
-/
import Cuelist.Proofs.Isolation
import Cuelist.Proofs.Session.Claims

namespace Cuelist

variable {σ : Type} {x : Executor σ} {h : Handle}

namespace Executor

variable {q q' : Queue} {w w' : World σ} {done : List Record × Queue × World σ}

/-! ## Runs end -/

/-- How a queue held in `h` is run: it is advanced until no entry was run. -/
inductive Loop (x : Executor σ) (h : Handle) :
    Queue → World σ → List Record × Queue × World σ → Prop
  | stop {q : Queue} {w : World σ} {t : Tick} {q' : Queue} {w' : World σ}
      (tick : x.tick h q w = (t, q', w')) (idle : t.records = []) : Loop x h q w ([], q', w')
  | more {q : Queue} {w : World σ} {r : Record} {q' : Queue} {w' : World σ}
      {done : List Record × Queue × World σ}
      (tick : x.tick h q w = (.ran r, q', w')) (next : Loop x h q' w' done) :
      Loop x h q w (r :: done.1, done.2)

theorem runUntilBlocked_stop {t : Tick} (ht : x.tick h q w = (t, q', w')) (hidle : t.records = []) :
    x.runUntilBlocked h q w = ([], q', w') := by
  cases t with
  | ran r => cases hidle
  | awaiting | empty | busy => simp only [runUntilBlocked, runHeld, ht]

/-- **Every run of a queue ends**: each tick that runs an entry leaves one less. -/
theorem loop_runUntilBlocked (n : Nat) (hn : q.pending.length < n) (w : World σ) :
    x.Loop h q w (x.runUntilBlocked h q w) := by
  induction n generalizing q w with
  | zero => exact absurd hn (Nat.not_lt_zero _)
  | succ n ih =>
    rcases ht : x.tick h q w with ⟨t, q', w'⟩
    cases t with
    | ran r =>
      obtain ⟨-, -, -, hlen⟩ := tick_ran ht
      rw [runUntilBlocked_ran ht]
      exact .more ht (ih (by omega) w')
    | awaiting | empty | busy =>
      rw [runUntilBlocked_stop ht rfl]
      exact .stop ht rfl

/-- **It ends in one way only.** -/
theorem loop_iff : x.Loop h q w done ↔ done = x.runUntilBlocked h q w := by
  constructor
  · intro hloop
    induction hloop with
    | stop ht hidle => exact (runUntilBlocked_stop ht hidle).symm
    | more ht _ ih => rw [runUntilBlocked_ran ht, ← ih]
  · rintro rfl
    exact loop_runUntilBlocked _ (Nat.lt_succ_self _) w

/-- A queue with a claim out is not run. -/
theorem runUntilBlocked_busy (hd : q.dispatching = true) :
    x.runUntilBlocked h q w = ([], q, w) := by
  have ht : x.tick h q w = (.busy, q, w) := by
    simp only [tick, Queue.takeNext_busy hd, Next.idleTick]
  exact runUntilBlocked_stop ht rfl

end Executor

/-! ## Where runs stop -/

/-- Whether a run went well and left its entry waiting for a signal. -/
def Reply.Holds (reply : Reply σ) : Prop :=
  reply.result = .ok () ∧ reply.world.waiting reply.entry.id = true

instance (reply : Reply σ) : Decidable reply.Holds :=
  inferInstanceAs (Decidable (_ ∧ _))

theorem Reply.holds_iff {reply : Reply σ} : reply.Holds ↔ reply.record.status = .waiting :=
  and_comm.trans Queue.statusOf_eq_waiting.symm

@[simp] theorem Reply.waiting_settled (reply : Reply σ) (r : Reporter) (h : Handle) (q : Queue) :
    (reply.settled r h q).waiting = reply.world.waiting := by
  have hrung : ((reply.world.setQueue h q).ring (.queue h)).waiting = reply.world.waiting := by
    rw [World.waiting_ring]
    rfl
  unfold settled
  cases reply.result with
  | ok => exact hrung
  | error err =>
    simp only
    rw [World.tell_eq]
    exact hrung

/-- An entry that holds its queue is in flight after it was run. -/
theorem Reply.Holds.holder? {reply : Reply σ} (hr : reply.Holds) (r : Reporter) (h : Handle)
    (q : Queue) (rest : List Entry) :
    let left := q.after rest reply
    left.holder? (reply.settled r h left).waiting = some reply.entry.id := by
  intro left
  rw [waiting_settled, Queue.holder?_eq_some]
  exact ⟨reply.entry, if_pos (holds_iff.1 hr), rfl, hr.2⟩

/-- After any other entry none is. -/
theorem Reply.holder?_of_not_holds {reply : Reply σ} (hr : ¬reply.Holds) (r : Reporter)
    (h : Handle) (q : Queue) (rest : List Entry) :
    let left := q.after rest reply
    left.holder? (reply.settled r h left).waiting = none := by
  intro left
  have hnone : left.inFlight = none := if_neg (mt holds_iff.2 hr)
  rw [Queue.holder?_eq_none, hnone]
  intro e he
  cases he

namespace Executor

/-- Runs entries, the first ones of a queue held in `h`, each in the world that the one before
    left. -/
def runEach (x : Executor σ) (h : Handle) :
    List Entry → Queue → World σ → List (Reply σ) × Queue × World σ
  | [], q, w => ([], q, w)
  | e :: es, q, w =>
    let reply := x.dispatch e w
    let q := q.after q.pending.tail reply
    let (replies, done) := x.runEach h es q (reply.settled x.reporter h q)
    (reply :: replies, done)

/-- How a run of a queue goes that nothing keeps back: the entries `ran` are run and `rest` is
    left.  The queue goes on after the replies `passed`; `last` holds it, if there is one. -/
structure Advances (x : Executor σ) (h : Handle) (q : Queue) (w : World σ)
    (done : List Record × Queue × World σ) (ran rest : List Entry) (passed : List (Reply σ))
    (last : Option (Reply σ)) : Prop where
  entries : q.pending = ran ++ rest
  each : (x.runEach h ran q w).1 = passed ++ last.toList
  one_each : done.1.length = ran.length
  records : done.1 = (passed ++ last.toList).map Reply.record
  goes_on : ∀ reply ∈ passed, ¬reply.Holds
  holds : ∀ reply ∈ last, reply.Holds
  /-- Without an entry that holds the queue all are run. -/
  all : last = none → rest = []
  left : done.2.1.pending = rest
  world : done.2.2 = (x.runEach h ran q w).2.2
  holder : done.2.1.holder? done.2.2.waiting = last.map fun reply => reply.entry.id

section
variable {e : Entry} {ran rest rest' : List Entry} {passed : List (Reply σ)}
  {last : Option (Reply σ)}

theorem runEach_nil (q : Queue) (w : World σ) : x.runEach h [] q w = ([], q, w) := rfl

theorem runEach_cons (hp : q.pending = e :: rest) (ran : List Entry) (w : World σ) :
    x.runEach h (e :: ran) q w =
      let reply := x.dispatch e w
      let left := q.after rest reply
      let next := x.runEach h ran left (reply.settled x.reporter h left)
      (reply :: next.1, next.2) := by
  simp only [runEach, hp, List.tail_cons]

/-- A run that comes to an end before its first entry. -/
theorem Advances.none (hp : q.pending = []) :
    x.Advances h q w ([], { q with inFlight := none }, w) [] [] [] none where
  entries := hp
  each := rfl
  one_each := rfl
  records := rfl
  goes_on _ hmem := absurd hmem List.not_mem_nil
  holds _ hmem := absurd hmem (Option.not_mem_none _)
  all _ := rfl
  left := hp
  world := rfl
  holder := rfl

/-- A run whose first entry holds the queue. -/
theorem Advances.one (hp : q.pending = e :: rest) (hr : (x.dispatch e w).Holds) :
    let left := q.after rest (x.dispatch e w)
    x.Advances h q w
      ([(x.dispatch e w).record], left, (x.dispatch e w).settled x.reporter h left) [e] rest []
      (some (x.dispatch e w)) where
  entries := hp
  each := by simp only [runEach_cons hp, runEach_nil, List.nil_append, Option.toList_some]
  one_each := rfl
  records := rfl
  goes_on _ hmem := absurd hmem List.not_mem_nil
  holds reply hmem := by
    obtain rfl : x.dispatch e w = reply := Option.mem_some_iff.1 hmem
    exact hr
  all hnone := absurd hnone (Option.some_ne_none _)
  left := rfl
  world := by simp only [runEach_cons hp, runEach_nil]
  holder := hr.holder? x.reporter h q rest

/-- A run with one entry before it that does not hold the queue. -/
theorem Advances.cons (hp : q.pending = e :: rest') (hr : ¬(x.dispatch e w).Holds)
    (ha : x.Advances h (q.after rest' (x.dispatch e w))
      ((x.dispatch e w).settled x.reporter h (q.after rest' (x.dispatch e w))) done ran rest passed
      last) :
    x.Advances h q w ((x.dispatch e w).record :: done.1, done.2) (e :: ran) rest
      (x.dispatch e w :: passed) last where
  entries := by
    have hentries : rest' = ran ++ rest := ha.entries
    rw [hp, hentries, List.cons_append]
  each := by simp only [runEach_cons hp, ha.each, List.cons_append]
  one_each := congrArg (· + 1) ha.one_each
  records := by rw [ha.records, List.cons_append, List.map_cons]
  goes_on := List.forall_mem_cons.2 ⟨hr, ha.goes_on⟩
  holds := ha.holds
  all := ha.all
  left := ha.left
  world := by simp only [runEach_cons hp, ha.world]
  holder := ha.holder

end

/-- **A queue that nothing keeps back is run up to the first entry that holds it**, or to its
    end. -/
theorem exists_advances (hd : q.dispatching = false) (hh : q.holder? w.waiting = none) :
    ∃ ran rest passed last,
      x.Advances h q w (x.runUntilBlocked h q w) ran rest passed last := by
  induction hp : q.pending generalizing q w with
  | nil =>
    rw [runUntilBlocked_stop (tick_empty hd hh hp) rfl]
    exact ⟨_, _, _, _, .none hp⟩
  | cons e rest ih =>
    rw [runUntilBlocked_ran (tick_ready hd hh hp)]
    by_cases hr : (x.dispatch e w).Holds
    · rw [runUntilBlocked_awaiting rfl (hr.holder? x.reporter h q rest)]
      exact ⟨_, _, _, _, .one hp hr⟩
    · have hholder := Reply.holder?_of_not_holds hr x.reporter h q rest
      obtain ⟨ran, left, passed, last, ha⟩ := ih rfl hholder rfl
      exact ⟨_, _, _, _, ha.cons hp hr⟩

end Executor

/-! ## Sessions -/

namespace Session

/-- Whether a queue is kept back: a claim of its generation is out, or an entry waits for its
    signal. -/
def Blocked (h : Handle) (s : Session σ) : Prop :=
  (∃ c ∈ s.claims, c.generation = (s.queue h).generation) ∨
    ((s.queue h).holder? s.world.waiting).isSome

instance (h : Handle) (s : Session σ) : Decidable (s.Blocked h) :=
  inferInstanceAs (Decidable (_ ∨ _))

theorem Guarded.dispatching_eq_false {s : Session σ} (hs : Guarded h s)
    (hold : ∀ c ∈ s.claims, c.generation ≠ (s.queue h).generation) :
    (s.queue h).dispatching = false := by
  have hnone : s.current h = [] := by
    rw [current, List.filter_eq_nil_iff]
    intro c hc
    simpa using hold c hc
  have hsingle := hs.single
  rw [hnone] at hsingle
  cases hd : (s.queue h).dispatching with
  | false => rfl
  | true => rw [hd] at hsingle; cases hsingle

/-- **Running a queue until it is blocked ends, and stops for the right reason.**  In every session
    with a new queue and for all executors: the ticks come to an end, and in one way.  While a claim
    of the queue's generation is out or an entry waits, nothing is run.  Otherwise the entries are
    run in order, once each and with one record, up to the first whose run goes well and leaves it
    waiting, or else all of them.  Those that were not run are still there, and an entry is in
    flight if and only if it is such a one. -/
theorem run_until_blocked (h : Handle) (w : World σ) (id : QueueId) (limit : Nat)
    (acts : List (Act σ)) (x : Executor σ) :
    let s := (start h w id limit).run h acts
    let done := x.runUntilBlocked h (s.queue h) s.world
    (∀ ended, x.Loop h (s.queue h) s.world ended ↔ ended = done) ∧
      (s.Blocked h → done = ([], s.queue h, s.world)) ∧
      (¬s.Blocked h → ∃ ran rest passed last,
        x.Advances h (s.queue h) s.world done ran rest passed last) := by
  intro s done
  have hs : Guarded h s := run_guarded h w id limit acts
  refine ⟨fun _ => Executor.loop_iff, ?_, ?_⟩
  · intro hblocked
    cases hd : (s.queue h).dispatching with
    | true => exact Executor.runUntilBlocked_busy hd
    | false =>
      rcases hblocked with ⟨c, hc, hcurrent⟩ | hholder
      · obtain ⟨place, hplace⟩ := List.getElem?_of_mem hc
        rw [hs.dispatching_of_current hplace hcurrent] at hd
        cases hd
      · obtain ⟨id, hid⟩ := Option.isSome_iff_exists.1 hholder
        exact Executor.runUntilBlocked_awaiting hd hid
  · intro hfree
    obtain ⟨hold, hholder⟩ := not_or.1 hfree
    apply Executor.exists_advances
    · apply hs.dispatching_eq_false
      intro c hc hcurrent
      exact hold ⟨c, hc, hcurrent⟩
    · exact Option.not_isSome_iff_eq_none.1 hholder

/-- A queue with an entry that asks for a signal before its last one; and the same queue after the
    two ticks that come to this. -/
theorem run_until_blocked_waiting :
    let x := Executor.deserted {}
    let entries := [Entry.make ⟨0⟩ .normal "NARRATE" ["hello"] none,
      Entry.make ⟨1⟩ .waitFor "WAIT" [] none, Entry.make ⟨2⟩ .normal "NARRATE" ["goodbye"] none]
    let s := (start ⟨0⟩ (World.start () {} true) ⟨"MAIN"⟩ 0).run ⟨0⟩ [.enqueueAll entries]
    let done := x.runUntilBlocked ⟨0⟩ (s.queue ⟨0⟩) s.world
    let t := (start ⟨0⟩ (World.start () {} true) ⟨"MAIN"⟩ 0).run ⟨0⟩
      [.enqueueAll entries, .tick x, .tick x]
    (¬s.Blocked ⟨0⟩ ∧
        (∃ ran rest passed last,
          x.Advances ⟨0⟩ (s.queue ⟨0⟩) s.world done ran rest passed last) ∧
        done.1.map Record.entry = [⟨0⟩, ⟨1⟩] ∧ done.2.1.pending.map Entry.id = [⟨2⟩]) ∧
      t.Blocked ⟨0⟩ ∧
      x.runUntilBlocked ⟨0⟩ (t.queue ⟨0⟩) t.world = ([], t.queue ⟨0⟩, t.world) := by
  intro x entries s done t
  have hs : ¬s.Blocked ⟨0⟩ := by decide +kernel
  have ht : t.Blocked ⟨0⟩ := by decide +kernel
  have hran : done.1.map Record.entry = [⟨0⟩, ⟨1⟩] := by decide +kernel
  have hleft : done.2.1.pending.map Entry.id = [⟨2⟩] := by decide +kernel
  obtain ⟨-, -, hruns⟩ := run_until_blocked ⟨0⟩ (World.start () {} true) ⟨"MAIN"⟩ 0
    [.enqueueAll entries] x
  obtain ⟨-, hrests, -⟩ := run_until_blocked ⟨0⟩ (World.start () {} true) ⟨"MAIN"⟩ 0
    [.enqueueAll entries, .tick x, .tick x] x
  exact ⟨⟨hs, hruns hs, hran, hleft⟩, ht, hrests ht⟩

/-- A claim that was out when the queue was cleared keeps nothing back. -/
theorem cleared_claim_keeps_nothing_back :
    let before := Entry.make ⟨0⟩ .normal "NARRATE" ["before"] none
    let after := Entry.make ⟨1⟩ .normal "NARRATE" ["after"] none
    let s := (start ⟨0⟩ (World.start () {} true) ⟨"MAIN"⟩ 0).run ⟨0⟩
      [.enqueue before, .takeNext, .clear, .enqueue after]
    let done := (Executor.deserted {}).runUntilBlocked ⟨0⟩ (s.queue ⟨0⟩) s.world
    s.claims.map (fun c => c.entry.id) = [⟨0⟩] ∧ done.1.map Record.entry = [⟨1⟩] := by
  decide +kernel

end Session

end Cuelist
