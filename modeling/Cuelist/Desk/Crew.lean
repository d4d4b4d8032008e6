/-
  The commands of a desk.

  A `Crew` says which commands there are: the bundled ones and the routines.
  `Crew.executor` runs them.  A routine that advances a queue runs the entries
  of the queue with the same crew; how deep this may go is limited.
-/
import Cuelist.Command.Narrate
import Cuelist.Command.Wait
import Cuelist.Desk.Routine
import Cuelist.Settings

namespace Cuelist

/-- Finds an actor whose name differs at most in the case of ASCII letters. -/
def Narrate.byName : Narrate.Directory := fun cast name =>
  cast.find? fun n => Text.sameIgnoringAsciiCase n.toList name.toList

/-- A registry with the bundled commands. -/
def Registry.withBundled {σ : Type} (r : Registry (Command σ)) (directory : Narrate.Directory) :
    Registry (Command σ) :=
  (r.register "narrate" (Narrate.command directory)).register "wait" Wait.command

theorem Registry.mem_withBundled {σ : Type} {directory : Narrate.Directory}
    {p : String × Command σ} (hp : p ∈ (empty.withBundled directory).index.pairs) :
    p.2 = Wait.command ∨ p.2 = Narrate.command directory := by
  refine (mem_register hp).imp_right fun hp => ?_
  exact (mem_register hp).resolve_right List.not_mem_nil

/-- What holds after an entry of the bundled commands if observations and alarms keep it. -/
theorem Executor.bundled_keeps {σ : Type} {P : World σ → Prop} {x : Executor σ}
    {directory : Narrate.Directory}
    (hx : ∀ p ∈ x.registry.index.pairs, p.2 = Wait.command ∨ p.2 = Narrate.command directory)
    (ho : ∀ w e, P w → P (w.observe e)) (harm : ∀ w id d, P w → P (Wait.arm w id d)) (e : Entry)
    {w : World σ} (hw : P w) : P (x.dispatch e w).world := by
  refine x.dispatch_keeps ho (fun p hp call e v hv => ?_) e hw
  rcases hx p hp with hc | hc
  · rw [hc]
    refine ⟨hv, ?_⟩
    simp only [Wait.command]
    split
    next => exact hv
    next d _ => exact harm _ e.id d (World.tell_keeps ho hv ..)
  · rw [hc]
    exact Narrate.command_keeps ho directory call e hv

/-- **Running an entry of the bundled commands adds to the log, and may start one alarm.** -/
theorem Executor.bundled_arms {σ : Type} {x : Executor σ} {directory : Narrate.Directory}
    (hx : ∀ p ∈ x.registry.index.pairs, p.2 = Wait.command ∨ p.2 = Narrate.command directory)
    (e : Entry) (w : World σ) :
    ∃ log, (x.dispatch e w).world = { w with log } ∨
      ∃ id d, (x.dispatch e w).world = Wait.arm { w with log } id d := by
  let P (v : World σ) : Prop := ∃ log, v = { w with log }
  have ho : ∀ v event, P v → P (v.observe event) := by
    rintro v event ⟨log, rfl⟩
    exact ⟨_, rfl⟩
  rcases hr : Tag.resolveEntry x.resolver e with ⟨e', warnings⟩
  have hwarn : P (warnings.foldl (fun w m => w.tell x.reporter (.warning m)) w) :=
    List.foldlRecOn warnings _ ⟨w.log, rfl⟩ fun v hv m _ => World.tell_keeps ho hv ..
  simp only [dispatch, hr]
  generalize warnings.foldl (fun w m => w.tell x.reporter (.warning m)) w = v at hwarn ⊢
  have hleft : ∀ u, P u → ∃ log, u = { w with log } ∨ ∃ id d, u = Wait.arm { w with log } id d := by
    rintro u ⟨log, hu⟩
    exact ⟨log, .inl hu⟩
  cases hl : x.registry.lookup e'.command with
  | error err => exact hleft _ hwarn
  | ok c =>
    obtain ⟨key, hm⟩ := Registry.mem_of_lookup hl
    simp only [perform]
    rcases hx _ hm with hc | hc
    · obtain rfl : c = Wait.command := hc
      rcases hread : Wait.read e' with ⟨result, e''⟩
      simp only [Wait.command, hread]
      cases result with
      | error err => exact hleft _ hwarn
      | ok =>
        simp only
        cases Wait.length e'' with
        | error err => exact hleft _ hwarn
        | ok d =>
          obtain ⟨log, htold⟩ := World.tell_keeps ho hwarn x.reporter
            (.summary e'' e'.command (reportPart "Duration" d.render))
          exact ⟨log, .inr ⟨_, d, congrArg (Wait.arm · _ d) htold⟩⟩
    · obtain rfl : c = Narrate.command directory := hc
      have hparse := (Narrate.command_keeps ho directory ⟨e'.command, x.reporter, x.scripts⟩ e'
        hwarn).1
      split
      next => exact hleft _ (Narrate.command_keeps ho directory _ _ hparse).2
      next => exact hleft _ hparse

namespace Desk

/-- What the commands of a desk are and what they work with. -/
structure Crew where
  /-- Whether the bundled commands are there. -/
  bundled : Bool
  routines : List Routine
  resolver : Resolver
  reporter : Reporter
  scripts : Library

namespace Crew

/-- The commands, with a way for routines to advance a queue. -/
def registry (c : Crew) (advance : Stepper) : Registry (Command Desk) :=
  let first : Registry (Command Desk) :=
    if c.bundled then Registry.empty.withBundled Narrate.byName else .empty
  c.routines.foldl (fun r routine => r.register routine.name (routine.command advance)) first

/-- Runs the commands, with a way for routines to advance a queue. -/
def executorWith (c : Crew) (advance : Stepper) : Executor Desk :=
  ⟨c.registry advance, c.resolver, c.reporter, c.scripts⟩

/-- Advances a queue, where routines can do so in turn to a depth. -/
def stepper (c : Crew) : (depth : Nat) → Stepper
  | 0 => fun _ w => (.busy, w)
  | depth + 1 => fun h w => (c.executorWith (stepper c depth)).step h w

/-- How deep routines can advance queues within each other. -/
def maxDepth : Nat := 256

/-- Runs the commands. -/
def executor (c : Crew) : Executor Desk :=
  c.executorWith (c.stepper maxDepth)

end Crew

end Desk

end Cuelist
