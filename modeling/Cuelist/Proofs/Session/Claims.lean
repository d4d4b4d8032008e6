/-
  The claims of a queue.

  Clearing a queue begins a new generation and forgets the claim that is out, so
  that several claims can be out at once; only one of them can be current.
  `run_claims` says this of every session, and that a claim of an older generation
  can be given back without harm to the queue as it is now.
-/
import Cuelist.Proofs.Session
import Mathlib.Data.List.Perm.Basic

namespace Cuelist.Session

variable {σ : Type} {h : Handle}

/-- The claims that are out and belong to the generation of the queue. -/
def current (h : Handle) (s : Session σ) : List Claim :=
  s.claims.filter fun c => c.generation == (s.queue h).generation

/-- What holds of the claims of a queue at any moment. -/
structure Guarded (h : Handle) (s : Session σ) : Prop where
  bounded : ∀ c ∈ s.claims, c.generation ≤ (s.queue h).generation
  /-- The queue knows whether a current claim is out, and there is no second. -/
  single : (s.current h).length = (s.queue h).dispatching.toNat
  free : (s.queue h).dispatching = true → (s.queue h).inFlight = none

theorem start_guarded (h : Handle) (w : World σ) (id : QueueId) (limit : Nat) :
    Guarded h (start h w id limit) where
  bounded := by simp [start]
  single := by simp [current, start, queue, Queue.make]
  free := by simp [start, queue, Queue.make]

section
variable {s t : Session σ}

/-- The claims are guarded as long as they, the generation and what the queue
    knows of them are the same. -/
theorem Guarded.congr (hs : Guarded h s) (hc : t.claims = s.claims)
    (hg : (t.queue h).generation = (s.queue h).generation)
    (hd : (t.queue h).dispatching = (s.queue h).dispatching)
    (hf : (s.queue h).dispatching = true → (t.queue h).inFlight = none) : Guarded h t where
  bounded := by rw [hc, hg]; exact hs.bounded
  single := by
    have hs := hs.single
    rw [current] at hs ⊢
    rw [hc, hg, hd, hs]
  free := by rw [hd]; exact hf

theorem Guarded.clear (hs : Guarded h s) (hc : t.claims = s.claims)
    (hg : (t.queue h).generation = (s.queue h).generation + 1)
    (hd : (t.queue h).dispatching = false) : Guarded h t where
  bounded c hm := by
    rw [hc] at hm
    have := hs.bounded c hm
    omega
  single := by
    have hold : t.current h = [] := List.filter_eq_nil_iff.2 fun c hm => by
      rw [hc] at hm
      have := hs.bounded c hm
      simp only [beq_iff_eq]; omega
    rw [hold, hd]; rfl
  free := by simp [hd]

theorem length_filter_eraseIdx {claims : List Claim} {place : Nat} {c : Claim}
    (hget : claims[place]? = some c) (p : Claim → Bool) :
    (claims.filter p).length = ((claims.eraseIdx place).filter p).length + (p c).toNat := by
  obtain ⟨hlt, rfl⟩ := List.getElem?_eq_some_iff.1 hget
  rw [← ((List.getElem_cons_eraseIdx_perm hlt).filter p).length_eq, List.filter_cons]
  cases p claims[place] <;> simp

theorem Guarded.takeBack (hs : Guarded h s) {place : Nat} {c : Claim}
    (hget : s.claims[place]? = some c) {e : Entry} {result : Except CommandError Unit}
    (hq : t.queue h = ((s.queue h).finish s.world.waiting { c with entry := e } result).2)
    (hc : t.claims = s.claims.eraseIdx place) : Guarded h t := by
  have hg : (t.queue h).generation = (s.queue h).generation := by rw [hq, Queue.finish_generation]
  have hbounded : ∀ c ∈ t.claims, c.generation ≤ (t.queue h).generation := fun c hm => by
    rw [hg]; exact hs.bounded c (List.mem_of_mem_eraseIdx (hc ▸ hm))
  have hlen := length_filter_eraseIdx hget fun c => c.generation == (s.queue h).generation
  rw [← current, hs.single, ← hc, ← hg, ← current] at hlen
  by_cases hcur : c.generation = (t.queue h).generation
  · have hd : (t.queue h).dispatching = false := by
      rw [hq]; exact Queue.finish_dispatching (hcur.trans hg)
    refine ⟨hbounded, ?_, by simp [hd]⟩
    rw [hd]
    have hle := Bool.toNat_le (s.queue h).dispatching
    simp only [hcur, beq_self_eq_true, Bool.toNat_true] at hlen
    simp only [Bool.toNat_false]; omega
  · have hne : { c with entry := e }.generation ≠ (s.queue h).generation := fun hc' =>
      hcur (hc'.trans hg.symm)
    rw [Queue.finish_stale hne] at hq
    have hd : (t.queue h).dispatching = (s.queue h).dispatching := by rw [hq]
    have hf : (t.queue h).inFlight = (s.queue h).inFlight := by rw [hq]
    refine ⟨hbounded, ?_, by rw [hd, hf]; exact hs.free⟩
    rw [hd, hlen]
    simp [hcur]

/-- A current claim is out only while the queue is dispatching. -/
theorem Guarded.dispatching_of_current (hs : Guarded h s) {place : Nat} {c : Claim}
    (hget : s.claims[place]? = some c) (hc : c.generation = (s.queue h).generation) :
    (s.queue h).dispatching = true := by
  have hm : c ∈ s.current h := List.mem_filter.2 ⟨List.mem_of_getElem? hget, by simpa using hc⟩
  have hpos := List.length_pos_of_mem hm
  rw [hs.single] at hpos
  cases hd : (s.queue h).dispatching with
  | true => rfl
  | false => simp [hd] at hpos

theorem Outcome.guarded {a : Act σ} (ho : Outcome h s t a) (hs : Guarded h s) : Guarded h t := by
  cases ho with
  | same hq hc hl => exact hs.congr hc (by rw [hq]) (by rw [hq]) (by rw [hq]; exact hs.free)
  | accept e hopen hq hc hl =>
    exact hs.congr hc (by rw [hq]) (by rw [hq]) (by rw [hq]; exact hs.free)
  | release hd hh hp hq hc hl => exact hs.congr hc (by rw [hq]) (by rw [hq]) (by rw [hq]; simp)
  | hand e rest hd hh hp hq hc hl =>
    refine ⟨fun c hm => ?_, ?_, by rw [hq]; simp⟩
    · rw [hq]
      rcases List.mem_append.1 (hc ▸ hm) with hm | hm
      · exact hs.bounded c hm
      · exact Nat.le_of_eq (congrArg Claim.generation (List.mem_singleton.1 hm))
    · have hnone := hs.single
      rw [hd, current] at hnone
      simp only [current, hc, hq, List.filter_append, List.length_append, hnone]
      simp
  | takeBack place c e result r hget hq hc hl => exact hs.takeBack hget hq hc
  | clear hq hc hl => exact hs.clear hc (by rw [hq]; rfl) (by rw [hq]; rfl)
  | stop hq hc hl => exact hs.clear hc (by rw [hq]; rfl) (by rw [hq]; rfl)

end

theorem run_guarded (h : Handle) (w : World σ) (id : QueueId) (limit : Nat)
    (acts : List (Act σ)) : Guarded h ((start h w id limit).run h acts) :=
  run_induction (fun _ _ _ ho hs => ho.guarded hs) (start_guarded h w id limit) acts

/-- **One claim at a time is current.**  In every session with a new queue at most
    one claim that is out belongs to the generation of the queue, and the queue
    knows whether one does.  As long as one does, no entry is in flight and every
    take finds the queue busy.  A claim that does not is of an older generation;
    taken back with any entry and result, it is counted and remembered and changes
    nothing else of the queue, and no bell rings. -/
theorem run_claims (h : Handle) (w : World σ) (id : QueueId) (limit : Nat)
    (acts : List (Act σ)) :
    let s := (start h w id limit).run h acts
    let q := s.queue h
    (s.current h).length ≤ 1 ∧
      (q.dispatching = true ↔ ∃ c ∈ s.claims, c.generation = q.generation) ∧
      (q.dispatching = true → q.inFlight = none ∧ s.world.takeNext h = (.busy, s.world)) ∧
      ∀ c ∈ s.claims, c.generation ≠ q.generation →
        c.generation < q.generation ∧ ∀ e result r,
          let done := s.world.finish r h { c with entry := e } result
          done.2.queues h = { q with
              executed := q.executed + 1
              history := Queue.remember q.historyLimit q.history done.1 } ∧
            done.2.bells = s.world.bells := by
  intro s q
  have hs : Guarded h s := run_guarded h w id limit acts
  have hsingle := hs.single
  refine ⟨by rw [hsingle]; exact Bool.toNat_le _, ?_, fun hd => ⟨hs.free hd, ?_⟩,
    fun c hm hne => ⟨Nat.lt_of_le_of_ne (hs.bounded c hm) hne, fun e result r => ⟨?_, ?_⟩⟩⟩
  · have hmem : (∃ c ∈ s.claims, c.generation = q.generation) ↔ 0 < (s.current h).length := by
      simp [current, List.length_pos_iff_exists_mem, q]
    rw [hmem, hsingle]
    cases q.dispatching <;> simp
  · rw [World.takeNext_eq (Queue.takeNext_busy hd), World.setQueue_self]
  · rw [World.queues_finish, World.record_finish]
    exact Queue.finish_stale hne
  · exact World.bells_finish_stale s.world r h result hne

/-- A claim that was out when the queue was cleared comes back while a newer one is
    out, with an entry that waits. -/
theorem run_claims_stale :
    let e := Entry.make ⟨0⟩ .waitFor "old" [] none
    let f := Entry.make ⟨1⟩ .normal "new" [] none
    let w := { World.start () {} false with waiting := fun _ => true }
    let s := (start ⟨0⟩ w ⟨"main"⟩ 0).run ⟨0⟩
      [.enqueue e, .takeNext, .clear, .enqueue f, .takeNext]
    let q := s.queue ⟨0⟩
    let done := s.world.finish .plain ⟨0⟩ ⟨e, 0⟩ (.ok ())
    s.world.takeNext ⟨0⟩ = (.busy, s.world) ∧
      done.2.queues ⟨0⟩ = { q with
          executed := q.executed + 1
          history := Queue.remember q.historyLimit q.history done.1 } := by
  intro e f w s q done
  obtain ⟨-, -, hbusy, hstale⟩ := run_claims ⟨0⟩ w ⟨"main"⟩ 0
    [.enqueue e, .takeNext, .clear, .enqueue f, .takeNext]
  have hout : (⟨e.attach ⟨"main"⟩, 0⟩ : Claim) ∈ s.claims := List.mem_cons_self
  have hold : 0 ≠ q.generation := by decide
  have hcurrent : q.dispatching = true := by decide
  have hback := (hstale _ hout hold).2 e (.ok ()) .plain
  exact ⟨(hbusy hcurrent).2, hback.1⟩

end Cuelist.Session
