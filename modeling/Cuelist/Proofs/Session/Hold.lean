/-
  Entries that hold their queue.

  An entry that asked for a signal is in flight from the end of its run on.  While
  it waits, the queue hands out nothing; the first take after it no longer waits
  lets it go.

  * `Patient e` leaves the queue alone, and asks it for entries only while `e`
    waits: `patient_run` says that such acts leave `e` where it is;
  * `Honest` gives back each claim with its own entry; `Spent` counts the claims on
    an entry that are used up for good;
  * `run_hold` says all of this of every session with a new queue.
-/
import Cuelist.Proofs.Session.Claims
import Cuelist.Proofs.Session.Order
import Mathlib.Data.List.Nodup

namespace Cuelist.Session

variable {σ : Type} {h : Handle}

/-! ## While the entry waits -/

/-- Whether an act neither clears nor stops the queue, nor asks it for an entry when
    `e` no longer waits. -/
def Patient (e : Entry) (s : Session σ) : Act σ → Prop
  | .clear | .stop => False
  | .takeNext | .tick _ => s.world.waiting e.id = true
  | _ => True

/-- What holds while `e` is in flight, if the entries in `gone` had left before. -/
structure Held (h : Handle) (e : Entry) (gone : List Entry) (s : Session σ) : Prop where
  guarded : Guarded h s
  inFlight : (s.queue h).inFlight = some e
  departed : s.departed = gone

section
variable {e : Entry} {gone : List Entry} {s t : Session σ}

theorem Held.free (hs : Held h e gone s) : (s.queue h).dispatching = false :=
  Bool.eq_false_iff.2 fun hd => by simpa [hs.inFlight] using hs.guarded.free hd

/-- No claim that is out is current. -/
theorem Held.stale (hs : Held h e gone s) {c : Claim} (hm : c ∈ s.claims) :
    c.generation ≠ (s.queue h).generation := fun hc => by
  have hlen := hs.guarded.single
  rw [hs.free, Bool.toNat_false, List.length_eq_zero_iff, current, List.filter_eq_nil_iff] at hlen
  exact hlen c hm (by simpa using hc)

theorem Held.holder (hs : Held h e gone s) (hw : s.world.waiting e.id = true) :
    (s.queue h).holder? s.world.waiting = some e.id :=
  Queue.holder?_eq_some.2 ⟨e, hs.inFlight, rfl, hw⟩

theorem Held.takeNext (hs : Held h e gone s) (hw : s.world.waiting e.id = true) :
    s.world.takeNext h = (.awaiting e.id, s.world) := by
  rw [World.takeNext_eq (Queue.takeNext_awaiting hs.free (hs.holder hw)), World.setQueue_self]

theorem Held.outcome (hs : Held h e gone s) {a : Act σ} (ho : Outcome h s t a)
    (ha : Patient e s a) : Held h e gone t := by
  have hg := ho.guarded hs.guarded
  have hi := hs.inFlight
  have hd := hs.departed
  cases ho with
  | same hq hc hl =>
    have hdt : t.departed = s.departed := by rw [Session.departed, hl]; rfl
    exact ⟨hg, by rw [hq, hi], hdt.trans hd⟩
  | accept f hopen hq hc hl =>
    have hdt : t.departed = s.departed := (departed_deed hl).trans (List.append_nil _)
    exact ⟨hg, by rw [hq, hi], hdt.trans hd⟩
  | release _ hh => rw [hs.holder ha] at hh; cases hh
  | hand _ _ _ hh => rw [hs.holder ha] at hh; cases hh
  | takeBack place c f result r hget hq hc hl =>
    -- A claim that is still out is of an older generation.
    have hne := hs.stale (List.mem_of_getElem? hget)
    have hdt : t.departed = s.departed := (departed_deed hl).trans (List.append_nil _)
    refine ⟨hg, ?_, hdt.trans hd⟩
    rw [hq, Queue.finish_stale (c := { c with entry := f }) hne]
    exact hi
  | clear => exact ha.elim
  | stop => exact ha.elim

theorem Held.parts (hs : Held h e gone s) {a : Act σ} (ha : Patient e s a) :
    Along (Patient e) h s (s.parts h a) := by
  cases a with
  | enqueueAll es => exact along_enqueue (fun _ _ => trivial) es s
  | tick x =>
    have hn : s.handed h = [] := by rw [handed, hs.takeNext ha]; rfl
    rw [Session.parts, hn]
    exact ⟨ha, trivial⟩
  | _ => exact ⟨ha, trivial⟩

theorem patient_run (hs : Held h e gone s) {acts : List (Act σ)}
    (ha : Along (Patient e) h s acts) : Held h e gone (s.run h acts) :=
  along_induction (fun _ _ hs ha => hs.parts ha) (fun _ _ _ ho ha hs => hs.outcome ho ha) hs ha

end

/-! ## Entries that are used up -/

theorem handed_cases (s : Session σ) : s.handed h = [] ∨ ∃ c, s.handed h = [c] := by
  rw [handed]
  cases (s.world.takeNext h).1 with
  | ready c => exact .inr ⟨c, rfl⟩
  | _ => exact .inl rfl

/-- Whether an act gives back claims with the entries that they are on. -/
def Honest (h : Handle) (s : Session σ) : Act σ → Prop
  | .finish place e _ _ => ∀ c, s.claims[place]? = some c → e.id = c.entry.id
  | .tick x => ∀ c ∈ s.handed h, (x.dispatch c.entry s.world).entry.id = c.entry.id
  | _ => True

theorem Honest.parts {s : Session σ} {a : Act σ} (ha : Honest h s a) :
    Along (Honest h) h s (s.parts h a) := by
  cases a with
  | enqueueAll es => exact along_enqueue (fun _ _ => trivial) es s
  | tick x =>
    refine ⟨trivial, ?_⟩
    rcases handed_cases s with hn | ⟨c, hn⟩
    · rw [hn]; trivial
    · rw [hn]
      refine ⟨trivial, fun d hd => ?_, trivial⟩
      have hget : (s.claims ++ s.handed h)[s.claims.length]? = some d := hd
      rw [hn, List.getElem?_concat_length] at hget
      obtain rfl := Option.some.inj hget
      exact ha c (by simp [hn])
  | finish place e result r => exact ⟨ha, trivial⟩
  | _ => exact ⟨trivial, trivial⟩

/-- How many entries of a list have an identity. -/
def copies (id : EntryId) (es : List Entry) : Nat := es.countP fun e => e.id == id

/-- Of the claims on an entry that were handed out, at least `used` are neither out
    nor left their entry in flight. -/
def Spent (h : Handle) (id : EntryId) (used : Nat) (s : Session σ) : Prop :=
  copies id (s.claims.map Claim.entry) + copies id (s.queue h).inFlight.toList + used ≤
    copies id s.claimed

@[simp] theorem copies_nil (id : EntryId) : copies id [] = 0 := rfl

theorem copies_append (id : EntryId) (es fs : List Entry) :
    copies id (es ++ fs) = copies id es + copies id fs :=
  List.countP_append

theorem copies_singleton {id : EntryId} {e f : Entry} (h : e.id = f.id) :
    copies id [e] = copies id [f] := by
  simp [copies, h]

section
variable {id : EntryId} {used : Nat} {s t : Session σ}

theorem copies_takeBack {claims : List Claim} {place : Nat} {c : Claim}
    (hget : claims[place]? = some c) (id : EntryId) :
    copies id (claims.map Claim.entry) =
      copies id ((claims.eraseIdx place).map Claim.entry) + copies id [c.entry] := by
  obtain ⟨hlt, rfl⟩ := List.getElem?_eq_some_iff.1 hget
  have hp := (List.getElem_cons_eraseIdx_perm hlt).map Claim.entry
  rw [copies, ← hp.countP_eq, List.map_cons, List.countP_cons, ← copies]
  simp [copies]

/-- The entry that is in flight after a claim was taken back was in flight before, or
    the claim is on it. -/
theorem copies_finish {waiting : EntryId → Bool} {q : Queue} {c : Claim}
    {result : Except CommandError Unit} :
    copies id (q.finish waiting c result).2.inFlight.toList ≤
      copies id q.inFlight.toList + copies id [c.entry] := by
  cases hf : (q.finish waiting c result).2.inFlight with
  | none => exact Nat.zero_le _
  | some f =>
    rcases Queue.finish_inFlight hf with hq | ⟨-, -, rfl, -⟩
    · rw [hq]; exact Nat.le_add_right ..
    · exact Nat.le_add_left ..

theorem Spent.congr (hs : Spent h id used s) (hc : t.claims = s.claims)
    (hg : t.claimed = s.claimed)
    (hi : (t.queue h).inFlight = (s.queue h).inFlight ∨ (t.queue h).inFlight = none) :
    Spent h id used t := by
  unfold Spent at hs ⊢
  rw [hc, hg]
  rcases hi with hi | hi
  · rw [hi]; exact hs
  · rw [hi, Option.toList_none, copies_nil]; omega

theorem inFlight_takeNext (hd : (s.queue h).dispatching = false)
    (hh : (s.queue h).holder? s.world.waiting = none) :
    ((s.act h .takeNext).queue h).inFlight = none := by
  simp only [act, queue, World.takeNext, World.queues_setQueue]
  exact (Queue.takeNext_free hd hh).2

/-- A take of a free queue uses up the entry that was in flight. -/
theorem Spent.release (hs : Spent h id used s) (hd : (s.queue h).dispatching = false)
    (hh : (s.queue h).holder? s.world.waiting = none) :
    Spent h id (used + copies id (s.queue h).inFlight.toList) (s.act h .takeNext) := by
  have hi := inFlight_takeNext hd hh
  have hc : (s.act h .takeNext).claims = s.claims ++ s.handed h := rfl
  have hg : (s.act h .takeNext).claimed = s.claimed ++ (s.handed h).map Claim.entry := by
    rw [claimed, act, List.flatMap_append, List.flatMap_map, List.map_eq_flatMap]
    rfl
  unfold Spent at hs ⊢
  rw [hi, hc, hg, List.map_append, copies_append, copies_append, Option.toList_none, copies_nil]
  omega

theorem Spent.outcome (hs : Spent h id used s) {a : Act σ} (ho : Outcome h s t a)
    (ha : Honest h s a) : Spent h id used t := by
  cases ho with
  | same hq hc hl => exact hs.congr hc (by rw [claimed, hl]; rfl) (.inl (by rw [hq]))
  | accept e hopen hq hc hl =>
    exact hs.congr hc ((claimed_deed hl).trans (List.append_nil _)) (.inl (by rw [hq]))
  | release hd hh hp hq hc hl => exact hs.congr hc (by rw [claimed, hl]; rfl) (.inr (by rw [hq]))
  | hand e rest hd hh hp hq hc hl =>
    have hg : t.claimed = s.claimed ++ [e] := claimed_deed hl
    unfold Spent at hs ⊢
    rw [hq, hc, hg, List.map_append, copies_append, copies_append]
    simp only [List.map_cons, List.map_nil, Option.toList_none, copies_nil]
    omega
  | takeBack place c e result r hget hq hc hl =>
    have hg : t.claimed = s.claimed := (claimed_deed hl).trans (List.append_nil _)
    have hback := copies_takeBack hget id
    have hsame : copies id [e] = copies id [c.entry] := copies_singleton (ha c hget)
    have hfin : copies id (t.queue h).inFlight.toList ≤
        copies id (s.queue h).inFlight.toList + copies id [e] := hq ▸ copies_finish
    unfold Spent at hs ⊢
    rw [hc, hg]
    omega
  | clear hq hc hl =>
    exact hs.congr hc ((claimed_deed hl).trans (List.append_nil _)) (.inr (by rw [hq]; rfl))
  | stop hq hc hl =>
    exact hs.congr hc ((claimed_deed hl).trans (List.append_nil _)) (.inr (by rw [hq]; rfl))

theorem honest_run (hs : Spent h id used s) {acts : List (Act σ)}
    (ha : Along (Honest h) h s acts) : Spent h id used (s.run h acts) :=
  along_induction (P := Spent h id used) (fun _ _ _ ha => ha.parts)
    (fun _ _ _ ho ha hs => hs.outcome ho ha) hs ha

end

/-- An entry that was let go is not in flight again, if claims come back with their
    entries and each entry was admitted once. -/
theorem Spent.not_inFlight {s : Session σ} {id : EntryId} (hs : Spent h id 1 s)
    (ho : Ordered h s) (hn : (s.admitted.map Entry.id).Nodup) {f : Entry}
    (hf : (s.queue h).inFlight = some f) : f.id ≠ id := fun hid => by
  have hclaimed : copies id s.claimed ≤ copies id s.admitted := by
    simp only [copies, ho.perm.countP_eq, List.countP_append]
    omega
  have honce : copies id s.admitted ≤ 1 := by
    have hcount := List.nodup_iff_count_le_one.1 hn id
    rwa [List.count, List.countP_map] at hcount
  have hheld : copies id (s.queue h).inFlight.toList = 1 := by
    simp [hf, copies, hid]
  -- The one claim that there can be is used up, and this would be another.
  unfold Spent at hs
  omega

/-! ## Becoming in flight -/

/-- Whether an act puts `f` in flight: a run of `f` on the current claim went well,
    and `f` waits at its end. -/
def Installs (h : Handle) (s : Session σ) (f : Entry) : Act σ → Prop
  | .finish place e result _ => ∃ c, s.claims[place]? = some c ∧
      c.generation = (s.queue h).generation ∧ result = .ok () ∧ e = f ∧
      s.world.waiting f.id = true
  | .tick x => ∃ c ∈ s.handed h,
      let reply := x.dispatch c.entry s.world
      reply.result = .ok () ∧ reply.entry = f ∧ reply.world.waiting f.id = true
  | _ => False

theorem Outcome.installs {s t : Session σ} {a : Act σ} (ho : Outcome h s t a) {f : Entry}
    (hf : (t.queue h).inFlight = some f) :
    (s.queue h).inFlight = some f ∨ Installs h s f a := by
  cases ho with
  | same hq => exact .inl (hq ▸ hf)
  | accept e hopen hq => rw [hq] at hf; exact .inl hf
  | release _ _ _ hq => rw [hq] at hf; cases hf
  | hand _ _ _ _ _ hq => rw [hq] at hf; cases hf
  | takeBack place c e result r hget hq =>
    rw [hq] at hf
    rcases Queue.finish_inFlight hf with hf | ⟨hc, hr, he, hw⟩
    · exact .inl hf
    · exact .inr ⟨c, hget, hc, hr, he, hw⟩
  | clear hq => rw [hq] at hf; cases hf
  | stop hq => rw [hq] at hf; cases hf

/-- An act puts an entry in flight only by taking it back. -/
theorem act_installs (s : Session σ) (a : Act σ) {f : Entry}
    (hf : ((s.act h a).queue h).inFlight = some f) :
    (s.queue h).inFlight = some f ∨ Installs h s f a := by
  cases a with
  | enqueueAll es =>
    rw [← run_enqueue] at hf
    refine .inl ?_
    induction es generalizing s with
    | nil => exact hf
    | cons e es ih =>
      rcases (act_outcome s (a := .enqueue e) trivial).installs (ih _ hf) with hi | hi
      · exact hi
      · exact hi.elim
  | tick x =>
    have htake : ((s.act h .takeNext).queue h).inFlight = some f →
        (s.queue h).inFlight = some f := fun hi =>
      ((takeNext_outcome s).installs hi).elim id fun hi => hi.elim
    rw [← run_parts, parts, run_cons] at hf
    rcases handed_cases s with hn | ⟨c, hn⟩
    · rw [hn] at hf; exact .inl (htake hf)
    · rw [hn] at hf
      let reply := x.dispatch c.entry s.world
      let t := (s.act h .takeNext).act h (.elsewhere fun _ => reply.world)
      have ho : Outcome h t _ (.finish s.claims.length reply.entry reply.result x.reporter) :=
        act_outcome t trivial
      rcases ho.installs hf with hi | ⟨d, hget, -, hr, he, hw⟩
      · have hq : t.queue h = (s.act h .takeNext).queue h := World.queues_setQueue ..
        exact .inl (htake (hq ▸ hi))
      · exact .inr ⟨c, by simp [hn], hr, he, hw⟩
  | enqueue | takeNext | finish | clear | stop | signal | elsewhere =>
    exact (act_outcome s (by trivial)).installs hf

/-! ## Every session -/

section
variable {e : Entry} {gone : List Entry} {s : Session σ}

theorem Held.step (hs : Held h e gone s) (hw : s.world.waiting e.id = true) (x : Executor σ) :
    x.step h s.world = (.awaiting e.id, s.world) :=
  Executor.step_awaiting (hs.takeNext hw)

theorem Held.tick (hs : Held h e gone s) (hw : s.world.waiting e.id = true) (x : Executor σ) :
    Executor.holding h s.world (x.tick h) = (.awaiting e.id, s.world) := by
  have hn : (s.world.queues h).takeNext s.world.waiting = (.awaiting e.id, s.world.queues h) :=
    Queue.takeNext_awaiting hs.free (hs.holder hw)
  simp only [Executor.holding, Executor.tick, hn, Next.idleTick, World.setQueue_self]

theorem Held.unheld (hs : Held h e gone s) (hw : s.world.waiting e.id = false) :
    (s.queue h).holder? s.world.waiting = none :=
  Queue.holder?_eq_none.2 fun f hf => by
    obtain rfl := Option.some.inj (hs.inFlight.symm.trans hf)
    exact hw

/-- A failed run leaves what is in flight as it is; after one on the current claim
    that is nothing. -/
theorem Guarded.fail (hs : Guarded h s) {place : Nat} {c : Claim}
    (hget : s.claims[place]? = some c) (f : Entry) (err : CommandError) (r : Reporter) :
    let t := s.act h (.finish place f (.error err) r)
    (t.queue h).inFlight = (s.queue h).inFlight ∧
      (c.generation = (s.queue h).generation → (t.world.takeNext h).1 = (t.queue h).front) := by
  intro t
  have hq : t.queue h =
      ((s.queue h).finish s.world.waiting { c with entry := f } (.error err)).2 := by
    simp only [t, act, hget, queue, World.queues_finish]
  have hi : (t.queue h).inFlight = (s.queue h).inFlight := by rw [hq, Queue.finish_error]
  refine ⟨hi, fun hc => ?_⟩
  have hd : (t.queue h).dispatching = false := by rw [hq]; exact Queue.finish_dispatching hc
  have hout : (s.queue h).dispatching = true := hs.dispatching_of_current hget hc
  have hh : (t.queue h).holder? t.world.waiting = none :=
    Queue.holder?_eq_none.2 fun g hg => by simp [hi, hs.free hout] at hg
  exact (Queue.takeNext_free hd hh).1

/-- The entry that a take lets go is used up for good. -/
theorem Held.released {w : World σ} {id : QueueId} {limit : Nat} {before rest : List (Act σ)}
    (ht : Held h e gone ((start h w id limit).run h before))
    (hw : ((start h w id limit).run h before).world.waiting e.id = false)
    (honest : Along (Honest h) h (start h w id limit) (before ++ .takeNext :: rest)) :
    Spent h e.id 1 ((start h w id limit).run h (before ++ .takeNext :: rest)) := by
  obtain ⟨hbefore, -, hafter⟩ := along_append.1 honest
  have hzero : Spent h e.id 0 (start h w id limit) := by
    simp [Spent, start, queue, Queue.make, copies]
  have hone := (honest_run hzero hbefore).release ht.free (ht.unheld hw)
  rw [ht.inFlight, Option.toList_some, copies, List.countP_singleton, beq_self_eq_true] at hone
  rw [run_append, run_cons]
  exact honest_run hone hafter

end

/-- **An entry holds its queue until it is signalled.**  In every session with a new
    queue, an entry `e` that is in flight stays there, and no other leaves the
    queue, as long as nobody clears or stops the queue or asks it for an entry while
    `e` does not wait.  While `e` waits, whoever asks is told to wait for `e` and
    changes nothing.  The first take that does not find `e` waiting hands out the
    first entry to run, if there is one; `e` is let go and, if claims come back with
    their entries and no entry is admitted twice, not in flight ever again.

    An entry becomes in flight only by the end of a good run on the current claim,
    if it waits then.  After a failed run on that claim nothing holds the queue,
    whether the entry waits or not. -/
theorem run_hold (h : Handle) (w : World σ) (id : QueueId) (limit : Nat)
    (acts : List (Act σ)) :
    let s := (start h w id limit).run h acts
    (∀ e, (s.queue h).inFlight = some e → ∀ more, Along (Patient e) h s more →
      let t := s.run h more
      (t.queue h).inFlight = some e ∧ t.departed = s.departed ∧
        (t.world.waiting e.id = true → t.world.takeNext h = (.awaiting e.id, t.world) ∧
          ∀ x : Executor σ, x.step h t.world = (.awaiting e.id, t.world) ∧
            Executor.holding h t.world (x.tick h) = (.awaiting e.id, t.world)) ∧
        (t.world.waiting e.id = false →
          (t.world.takeNext h).1 = (t.queue h).front ∧
            ((t.act h .takeNext).queue h).inFlight = none ∧
            ∀ rest, Along (Honest h) h (start h w id limit) (acts ++ more ++ .takeNext :: rest) →
              let u := (start h w id limit).run h (acts ++ more ++ .takeNext :: rest)
              (u.admitted.map Entry.id).Nodup →
                ∀ f, (u.queue h).inFlight = some f → f.id ≠ e.id)) ∧
      (∀ a f, ((s.act h a).queue h).inFlight = some f →
        (s.queue h).inFlight = some f ∨ Installs h s f a) ∧
      ∀ place c f err r, s.claims[place]? = some c →
        let t := s.act h (.finish place f (.error err) r)
        (t.queue h).inFlight = (s.queue h).inFlight ∧
          (c.generation = (s.queue h).generation → (t.world.takeNext h).1 = (t.queue h).front) := by
  intro s
  have hs : Guarded h s := run_guarded h w id limit acts
  refine ⟨fun e he more hmore => ?_, fun a f hf => act_installs s a hf,
    fun place c f err r hget => hs.fail hget f err r⟩
  intro t
  have ht : Held h e s.departed t := patient_run ⟨hs, he, rfl⟩ hmore
  refine ⟨ht.inFlight, ht.departed,
    fun hw => ⟨ht.takeNext hw, fun x => ⟨ht.step hw x, ht.tick hw x⟩⟩, fun hw => ?_⟩
  refine ⟨(Queue.takeNext_free ht.free (ht.unheld hw)).1,
    inFlight_takeNext ht.free (ht.unheld hw), fun rest honest hn f hf => ?_⟩
  have hrun : s.run h more = (start h w id limit).run h (acts ++ more) := (run_append ..).symm
  simp only [t, hrun] at ht hw
  exact (ht.released hw honest).not_inFlight (run_ordered h w id limit _) hn hf

/-- An entry that waits for its signal keeps back an instant one. -/
theorem run_hold_instant :
    let e := Entry.make ⟨0⟩ .waitFor "hold" [] none
    let f := Entry.make ⟨1⟩ .instant "next" [] none
    let w := { World.start () {} false with waiting := fun _ => true }
    let s := (start ⟨0⟩ w ⟨"main"⟩ 0).run ⟨0⟩
      [.enqueue e, .takeNext, .finish 0 e (.ok ()) .plain]
    let t := s.run ⟨0⟩ [.enqueue f, .takeNext]
    t.world.takeNext ⟨0⟩ = (.awaiting ⟨0⟩, t.world) := by
  intro e f w s t
  have hall := run_hold ⟨0⟩ w ⟨"main"⟩ 0 [.enqueue e, .takeNext, .finish 0 e (.ok ()) .plain]
  have hs := hall.1 e rfl [.enqueue f, .takeNext] ⟨trivial, rfl, trivial⟩
  exact (hs.2.2.1 rfl).1

end Cuelist.Session
