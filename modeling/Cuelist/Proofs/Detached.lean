/-
  Executors that know nothing of a queue.

  Two worlds are the same `Beyond` a queue if they differ at most in the queue, in who listens
  for news of it, in the tasks to poll and in a piece of the log.  What queues and reporters
  do keeps worlds the same beyond the queue, with the same piece of the log between them.

  An executor is `Detached` from a queue if the entries that it runs do the same in such
  worlds.  It is detached if its commands are (`detached_of_commands`), and the bundled
  commands are (`detached_bundled`).
-/
import Cuelist.Proofs.Signal

namespace Cuelist

variable {σ : Type}

/-! ## Worlds that are the same beyond a queue -/

/-- Whether two worlds differ at most in the queue in `h`, in who listens for news of it, in the
    tasks to poll, and in that the log of the second one has `extra` behind what came after
    `older`. -/
structure World.Beyond (h : Handle) (older extra : List (Nat × Event)) (w v : World σ) : Prop where
  queues : ∀ i, i ≠ h → v.queues i = w.queues i
  bells : ∀ b, b ≠ .queue h → v.bells b = w.bells b
  log : ∃ newer, w.log = newer ++ older ∧ v.log = newer ++ extra ++ older
  rest : v = { w with queues := v.queues, bells := v.bells, ready := v.ready, log := v.log }

namespace World.Beyond

variable {h : Handle} {older extra : List (Nat × Event)} {w v : World σ}

theorem refl (h : Handle) (w : World σ) : Beyond h w.log [] w w :=
  ⟨fun _ _ => rfl, fun _ _ => rfl, ⟨[], rfl, rfl⟩, rfl⟩

theorem waiting (hb : Beyond h older extra w v) : v.waiting = w.waiting := by rw [hb.rest]

theorem cast (hb : Beyond h older extra w v) : v.cast = w.cast := by rw [hb.rest]

theorem now (hb : Beyond h older extra w v) : v.now = w.now := by rw [hb.rest]

theorem live (hb : Beyond h older extra w v) : v.live = w.live := by rw [hb.rest]

/-- The queue in `h` may be any. -/
theorem setQueue (hb : Beyond h older extra w v) (q q' : Queue) :
    Beyond h older extra (w.setQueue h q) (v.setQueue h q') where
  queues i hi := by
    simp only [World.setQueue, put_other _ _ hi]
    exact hb.queues i hi
  bells := hb.bells
  log := hb.log
  rest := by rw [hb.rest]; rfl

theorem ring (hb : Beyond h older extra w v) (b : Bell) :
    Beyond h older extra (w.ring b) (v.ring b) where
  queues i hi := by rw [queues_ring, queues_ring]; exact hb.queues i hi
  bells b' hne := by
    rw [bells_ring, bells_ring]
    by_cases hbb : b' = b
    · subst hbb; rw [put_same, put_same, hb.bells b' hne]
    · rw [put_other _ _ hbb, put_other _ _ hbb]; exact hb.bells b' hne
  log := by rw [ring_eq v, ring_eq w]; exact hb.log
  rest := by rw [ring_eq v, ring_eq w, hb.rest]

theorem observe (hb : Beyond h older extra w v) (e : Event) :
    Beyond h older extra (w.observe e) (v.observe e) where
  queues := hb.queues
  bells := hb.bells
  log := by
    obtain ⟨newer, hw, hv⟩ := hb.log
    exact ⟨(w.now, e) :: newer, by simp [World.observe, hw], by simp [World.observe, hv, hb.now]⟩
  rest := by rw [hb.rest]; rfl

theorem tell (hb : Beyond h older extra w v) (r : Reporter) (n : Notice) :
    Beyond h older extra (w.tell r n) (v.tell r n) :=
  List.foldl_rel hb fun e _ _ _ hb => hb.observe e

theorem tellEach (hb : Beyond h older extra w v) (r : Reporter) {α : Type} (notice : α → Notice)
    (as : List α) : Beyond h older extra (as.foldl (fun w a => w.tell r (notice a)) w)
      (as.foldl (fun w a => w.tell r (notice a)) v) :=
  List.foldl_rel hb fun a _ _ _ hb => hb.tell r (notice a)

theorem setWaiting (hb : Beyond h older extra w v) (id : EntryId) (waits : Bool) :
    Beyond h older extra (w.setWaiting id waits) (v.setWaiting id waits) where
  queues := hb.queues
  bells := hb.bells
  log := hb.log
  rest := by rw [hb.rest]; rfl

theorem markFinished (hb : Beyond h older extra w v) (id : EntryId) (finished : Bool) :
    Beyond h older extra (w.markFinished id finished) (v.markFinished id finished) := by
  cases finished with
  | true => exact (hb.setWaiting id false).ring (.entry id)
  | false => exact hb.setWaiting id true

theorem spawn (hb : Beyond h older extra w v) (task : Task) :
    Beyond h older extra (w.spawn task) (v.spawn task) where
  queues := by rw [spawn_eq v, spawn_eq w]; exact hb.queues
  bells := by rw [spawn_eq v, spawn_eq w]; exact hb.bells
  log := by rw [spawn_eq v, spawn_eq w]; exact hb.log
  rest := by rw [spawn_eq v, spawn_eq w, hb.rest]; rfl

end World.Beyond

/-! ## Executors -/

/-- Whether two replies differ at most as worlds do that are the same beyond a queue. -/
structure Reply.Beyond (h : Handle) (older extra : List (Nat × Event)) (r r' : Reply σ) : Prop where
  result : r'.result = r.result
  entry : r'.entry = r.entry
  world : r.world.Beyond h older extra r'.world

/-- Whether the entries that are run know nothing of the queue in `h`: they do the same whatever
    it is, whoever listens for news of it, and whatever was reported. -/
def Executor.Detached (h : Handle) (x : Executor σ) : Prop :=
  ∀ older extra e w v, w.Beyond h older extra v →
    (x.dispatch e w).Beyond h older extra (x.dispatch e v)

/-- Whether a phase knows nothing of the queue in `h`. -/
def Phase.Detached (h : Handle) (p : Phase σ) : Prop :=
  ∀ older extra call e w v, w.Beyond h older extra v →
    (p call e w).Beyond h older extra (p call e v)

section
variable {h : Handle}

/-- **An executor whose commands are detached is detached.** -/
theorem detached_of_commands {x : Executor σ} (hc : ∀ p ∈ x.registry.index.pairs,
    Phase.Detached h p.2.parse ∧ Phase.Detached h p.2.execute) : x.Detached h := by
  intro older extra e w v hb
  rcases hr : Tag.resolveEntry x.resolver e with ⟨e', warnings⟩
  have hwarn := hb.tellEach x.reporter .warning warnings
  simp only [Executor.dispatch, hr]
  cases hl : x.registry.lookup e'.command with
  | error err => exact ⟨rfl, rfl, hwarn⟩
  | ok c =>
    obtain ⟨key, hm⟩ := Registry.mem_of_lookup hl
    have hphases : Phase.Detached h c.parse ∧ Phase.Detached h c.execute := hc _ hm
    have hparse := hphases.1 older extra ⟨e'.command, x.reporter, x.scripts⟩ e' _ _ hwarn
    simp only [Executor.perform]
    rw [hparse.result, hparse.entry]
    cases (c.parse ⟨e'.command, x.reporter, x.scripts⟩ e' (warnings.foldl
      (fun w m => w.tell x.reporter (.warning m)) w)).result with
    | error err => exact hparse
    | ok => exact hphases.2 older extra _ _ _ _ hparse.world

theorem Narrate.detached (directory : Narrate.Directory) :
    Phase.Detached h (Narrate.command (σ := σ) directory).parse ∧
      Phase.Detached h (Narrate.command (σ := σ) directory).execute := by
  constructor
  · intro older extra call e w v hb
    simp only [Narrate.command, hb.cast]
    exact ⟨rfl, rfl, hb.tellEach call.reporter .error _⟩
  · intro older extra call e w v hb
    simp only [Narrate.command, hb.cast]
    cases work w.cast e with
    | error err => exact ⟨rfl, rfl, hb⟩
    | ok effects =>
      refine ⟨rfl, rfl, List.foldl_rel hb fun effect _ w v hb => ?_⟩
      cases effect with
      | report | fail => exact hb.tell ..
      | send => exact hb.observe _

theorem Wait.beyond_arm {older extra : List (Nat × Event)} {w v : World σ}
    (hb : w.Beyond h older extra v) (id : EntryId) (d : Span) :
    (arm w id d).Beyond h older extra (arm v id d) := by
  unfold arm
  rw [hb.live]
  split
  · exact (hb.setWaiting id true).spawn _
  · exact hb.markFinished id true

theorem Wait.detached : Phase.Detached h (Wait.command (σ := σ)).parse ∧
    Phase.Detached h (Wait.command (σ := σ)).execute := by
  constructor
  · exact fun _ _ _ _ _ _ hb => ⟨rfl, rfl, hb⟩
  · intro older extra call e w v hb
    simp only [Wait.command]
    cases Wait.length e with
    | error err => exact ⟨rfl, rfl, hb⟩
    | ok d =>
      have htold := hb.tell call.reporter (.summary e call.command (reportPart "Duration" d.render))
      exact ⟨rfl, rfl, beyond_arm htold e.id d⟩

/-- **The bundled commands are detached from every queue.** -/
theorem detached_bundled (directory : Narrate.Directory) (resolver : Resolver)
    (reporter : Reporter) (scripts : Library) :
    Executor.Detached (σ := σ) h
      ⟨Registry.empty.withBundled directory, resolver, reporter, scripts⟩ := by
  refine detached_of_commands fun p hp => ?_
  rcases Registry.mem_withBundled hp with hc | hc
  · rw [hc]; exact Wait.detached
  · rw [hc]; exact Narrate.detached directory

end

end Cuelist
