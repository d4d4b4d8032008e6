/-
  Dispatch: how the entries of queues are run.

  `dispatch` fills the tags of an entry, finds its command and runs the two
  phases; the second one is not reached if the first fails.  `step` advances a
  queue by one entry and `runQueue` until nothing more can be run.  During
  these the queue is open to the commands.  `tick` and `runUntilBlocked` do the
  same for a queue that is held: the commands see the world without the change.
-/
import Cuelist.Command
import Cuelist.Tag

namespace Cuelist

/-- What dispatch needs. -/
structure Executor (σ : Type) where
  registry : Registry (Command σ)
  resolver : Resolver
  reporter : Reporter
  scripts : Library

/-- What came of advancing a queue. -/
inductive Tick where
  | ran (record : Record)
  /-- An entry waits for its signal. -/
  | awaiting (entry : EntryId)
  | empty
  /-- A claim is out. -/
  | busy
deriving Repr, DecidableEq

/-- What comes of a queue that hands out no entry. -/
def Next.idleTick : Next → Tick
  | .ready _ | .empty => .empty
  | .awaiting id => .awaiting id
  | .busy => .busy

namespace Executor

variable {σ : Type} (x : Executor σ)

/-- Runs an entry with a command: both phases, unless the first fails. -/
def perform (c : Command σ) (e : Entry) (w : World σ) : Reply σ :=
  let call : Call := ⟨e.command, x.reporter, x.scripts⟩
  let parsed := c.parse call e w
  match parsed.result with
  | .ok () => c.execute call parsed.entry parsed.world
  | .error _ => parsed

/-- Runs an entry. -/
def dispatch (e : Entry) (w : World σ) : Reply σ :=
  let (e, warnings) := Tag.resolveEntry x.resolver e
  let w := warnings.foldl (fun w m => w.tell x.reporter (.warning m)) w
  match x.registry.lookup e.command with
  | .ok c => x.perform c e w
  | .error err => ⟨.error err, e, w⟩

/-- What every event and both phases of all commands keep, running an entry keeps. -/
theorem dispatch_keeps {P : World σ → Prop} (ho : ∀ w e, P w → P (w.observe e))
    (hc : ∀ p ∈ x.registry.index.pairs, ∀ call e w, P w →
      P (p.2.parse call e w).world ∧ P (p.2.execute call e w).world)
    (e : Entry) {w : World σ} (hw : P w) : P (x.dispatch e w).world := by
  rcases hr : Tag.resolveEntry x.resolver e with ⟨e', warnings⟩
  have hwarn : P (warnings.foldl (fun w m => w.tell x.reporter (.warning m)) w) :=
    List.foldlRecOn warnings _ hw fun w hw m _ => World.tell_keeps ho hw x.reporter (.warning m)
  simp only [dispatch, hr]
  cases hl : x.registry.lookup e'.command with
  | error err => exact hwarn
  | ok c =>
    obtain ⟨key, hm⟩ := Registry.mem_of_lookup hl
    have hparse := (hc _ hm ⟨e'.command, x.reporter, x.scripts⟩ e' _ hwarn).1
    simp only [perform]
    split
    next => exact (hc _ hm _ _ _ hparse).2
    next => exact hparse

/-! ## Open queues -/

/-- Advances a queue by at most one entry. -/
def step (h : Handle) (w : World σ) : Tick × World σ :=
  match w.takeNext h with
  | (.ready c, w) =>
    let reply := x.dispatch c.entry w
    let (record, w) := reply.world.finish x.reporter h { c with entry := reply.entry } reply.result
    (.ran record, w)
  | (next, w) => (next.idleTick, w)

section
variable {x} {h : Handle} {w w' : World σ}

theorem step_ready {c : Claim} (hn : w.takeNext h = (.ready c, w')) :
    let reply := x.dispatch c.entry w'
    let done := reply.world.finish x.reporter h { c with entry := reply.entry } reply.result
    x.step h w = (.ran done.1, done.2) := by
  simp only [step, hn]

theorem step_awaiting {id : EntryId} (hn : w.takeNext h = (.awaiting id, w')) :
    x.step h w = (.awaiting id, w') := by
  simp only [step, hn, Next.idleTick]

theorem step_empty (hn : w.takeNext h = (.empty, w')) : x.step h w = (.empty, w') := by
  simp only [step, hn, Next.idleTick]

/-- What a take, running an entry and taking back its claim keep, a step keeps. -/
theorem step_keeps {P : World σ → Prop} (htake : P (w.takeNext h).2)
    (hdispatch : ∀ e v, P v → P (x.dispatch e v).world)
    (hfinish : ∀ c result v, P v → P (v.finish x.reporter h c result).2) : P (x.step h w).2 := by
  rcases hn : w.takeNext h with ⟨next, v⟩
  rw [hn] at htake
  cases next with
  | ready c =>
    rw [step_ready hn]
    exact hfinish _ _ _ (hdispatch c.entry v htake)
  | awaiting | empty | busy =>
    simp only [step, hn]
    exact htake

end

/-- Advances a queue until nothing more can be run, by at most `limit`
    entries. -/
def runQueue (h : Handle) : (limit : Nat) → World σ → List Record × World σ
  | 0, w => ([], w)
  | limit + 1, w =>
    match x.step h w with
    | (.ran record, w) =>
      let (records, w) := runQueue h limit w
      (record :: records, w)
    | (_, w) => ([], w)

/-! ## Held queues -/

/-- Advances a held queue, whose place is `h`, by at most one entry. -/
def tick (h : Handle) (q : Queue) (w : World σ) : Tick × Queue × World σ :=
  match q.takeNext w.waiting with
  | (.ready c, q) =>
    let reply := x.dispatch c.entry w
    let held := reply.world.setQueue h q
    let (record, w) := held.finish x.reporter h { c with entry := reply.entry } reply.result
    (.ran record, w.queues h, w)
  | (next, q) => (next.idleTick, q, w)

/-- Advances a held queue until nothing more can be run, by at most `limit`
    entries. -/
def runHeld (h : Handle) : (limit : Nat) → Queue → World σ → List Record × Queue × World σ
  | 0, q, w => ([], q, w)
  | limit + 1, q, w =>
    match x.tick h q w with
    | (.ran record, q, w) =>
      let (records, q, w) := runHeld h limit q w
      (record :: records, q, w)
    | (_, q, w) => ([], q, w)

/-- Advances a held queue until nothing more can be run.  Each entry that runs is
    one of those that are there at the start. -/
def runUntilBlocked (h : Handle) (q : Queue) (w : World σ) : List Record × Queue × World σ :=
  x.runHeld h (q.pending.length + 1) q w

/-- Holds a queue of the world while it is advanced. -/
def holding {α : Type} (h : Handle) (w : World σ)
    (run : Queue → World σ → α × Queue × World σ) : α × World σ :=
  let (a, q, w) := run (w.queues h) w
  (a, w.setQueue h q)

end Executor

end Cuelist
