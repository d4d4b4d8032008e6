/-
  The order in which a queue hands out its entries.

  Of the entries that were admitted, `claimed` were handed out and `dropped` were
  to run when the queue was cleared or stopped; `departed` are both, in the order
  in which they left.  `remaining b` are the admitted entries of one class,
  instant or normal, less as many as left: those that are still to run, if the
  class leaves in the order of admission.

  `run_order` says that it does: in every session the entries to run are the
  remaining instant ones before the remaining normal ones, the first of them is
  handed out next, and every admission is accounted for once.
-/
import Cuelist.Proofs.Session
import Mathlib.Data.List.Perm.Basic

namespace Cuelist

/-! ## What became of entries -/

namespace Deed

/-- The entry that was admitted. -/
def admissions : Deed → List Entry
  | .admitted e => [e]
  | _ => []

/-- The entry that was handed out. -/
def handedOut : Deed → List Entry
  | .claimed e => [e]
  | _ => []

/-- The entries that were dropped before they were handed out. -/
def discarded : Deed → List Entry
  | .dropped es => es
  | _ => []

end Deed

namespace Session

open scoped List

variable {σ : Type}

/-- The entries that were admitted, in order. -/
def admitted (s : Session σ) : List Entry := s.log.flatMap Deed.admissions

/-- The entries that were handed out, in order. -/
def claimed (s : Session σ) : List Entry := s.log.flatMap Deed.handedOut

/-- The entries that were dropped while they were to run. -/
def dropped (s : Session σ) : List Entry := s.log.flatMap Deed.discarded

/-- The entries that were handed out or dropped, in the order in which they
    left. -/
def departed (s : Session σ) : List Entry := s.log.flatMap fun d => d.handedOut ++ d.discarded

section
variable {s t : Session σ} {d : Deed}

theorem admitted_deed (hl : t.log = s.log ++ [d]) : t.admitted = s.admitted ++ d.admissions := by
  simp [admitted, hl]

theorem claimed_deed (hl : t.log = s.log ++ [d]) : t.claimed = s.claimed ++ d.handedOut := by
  simp [claimed, hl]

theorem departed_deed (hl : t.log = s.log ++ [d]) :
    t.departed = s.departed ++ (d.handedOut ++ d.discarded) := by
  simp [departed, hl]

end

/-- The entries of a list that are instant, or that are normal. -/
def ofClass (instant : Bool) (es : List Entry) : List Entry :=
  es.filter fun e => e.instant == instant

/-- The admitted entries of a class, less as many as left. -/
def remaining (instant : Bool) (s : Session σ) : List Entry :=
  (ofClass instant s.admitted).drop (ofClass instant s.departed).length

/-! ## Lists of entries in run order -/

/-- Whether the instant entries of a list come first. -/
def InstantsFirst (es : List Entry) : Prop :=
  es.Pairwise fun a b => b.instant = true → a.instant = true

@[simp] theorem ofClass_nil (b : Bool) : ofClass b [] = [] := rfl

theorem ofClass_append (b : Bool) (es fs : List Entry) :
    ofClass b (es ++ fs) = ofClass b es ++ ofClass b fs :=
  List.filter_append ..

theorem InstantsFirst.takeWhile_eq {es : List Entry} (h : InstantsFirst es) :
    es.takeWhile Entry.instant = ofClass true es ∧
      es.dropWhile Entry.instant = ofClass false es := by
  induction es with
  | nil => exact ⟨rfl, rfl⟩
  | cons e es ih =>
    obtain ⟨he, h⟩ := List.pairwise_cons.1 h
    cases hi : e.instant with
    | true =>
      obtain ⟨ht, hd⟩ := ih h
      simp [ofClass, hi, ht, hd]
    | false =>
      have hn : ∀ f ∈ es, f.instant = false := fun f hf =>
        Bool.eq_false_iff.2 fun hc => by simpa [hi] using he f hf hc
      have ht : ofClass true (e :: es) = [] :=
        List.filter_eq_nil_iff.2 (by simpa [hi] using hn)
      have hd : ofClass false (e :: es) = e :: es :=
        List.filter_eq_self.2 (by simpa [hi] using hn)
      simp [ht, hd, hi]

theorem InstantsFirst.eq_append {es : List Entry} (h : InstantsFirst es) :
    es = ofClass true es ++ ofClass false es := by
  rw [← h.takeWhile_eq.1, ← h.takeWhile_eq.2, List.takeWhile_append_dropWhile]

theorem ofClass_splice {es : List Entry} (h : InstantsFirst es) (e : Entry) (b : Bool) :
    ofClass b (Queue.splice e es) = ofClass b es ++ ofClass b [e] := by
  unfold Queue.splice
  split
  next hi =>
    rw [h.takeWhile_eq.1, h.takeWhile_eq.2]
    cases b <;> simp [ofClass, hi, List.filter_filter]
  next => exact ofClass_append b es [e]

theorem instantsFirst_append {is ns : List Entry} (hi : ∀ e ∈ is, e.instant = true)
    (hn : ∀ e ∈ ns, e.instant = false) : InstantsFirst (is ++ ns) := by
  refine List.pairwise_append.2 ⟨?_, ?_, fun a ha _ _ _ => hi a ha⟩
  · exact List.pairwise_of_forall_mem_list fun a ha _ _ _ => hi a ha
  · exact List.pairwise_of_forall_mem_list fun a ha b hb h => by simp [hn b hb] at h

theorem instant_of_mem_ofClass {b : Bool} {e : Entry} {es : List Entry} (h : e ∈ ofClass b es) :
    e.instant = b := by
  simpa using (List.mem_filter.1 h).2

theorem InstantsFirst.splice {es : List Entry} (h : InstantsFirst es) (e : Entry) :
    InstantsFirst (Queue.splice e es) := by
  unfold Queue.splice
  split
  next hi =>
    rw [h.takeWhile_eq.1, h.takeWhile_eq.2, List.append_cons]
    refine instantsFirst_append (fun f hf => ?_) fun f hf => instant_of_mem_ofClass hf
    rcases List.mem_append.1 hf with hf | hf
    · exact instant_of_mem_ofClass hf
    · rw [List.mem_singleton.1 hf]; exact hi
  next hi =>
    rw [h.eq_append, List.append_assoc]
    refine instantsFirst_append (fun f hf => instant_of_mem_ofClass hf) fun f hf => ?_
    rcases List.mem_append.1 hf with hf | hf
    · exact instant_of_mem_ofClass hf
    · rw [List.mem_singleton.1 hf]; simpa using hi

theorem ofClass_perm (es : List Entry) : (ofClass true es ++ ofClass false es).Perm es := by
  have hf : ofClass false es = es.filter fun e => !(e.instant == true) :=
    List.filter_congr fun e _ => by cases e.instant <;> rfl
  rw [hf]
  exact List.filter_append_perm _ es

/-! ## Every session -/

/-- What holds of the entries of a queue at any moment. -/
structure Ordered (h : Handle) (s : Session σ) : Prop where
  instants_first : InstantsFirst (s.queue h).pending
  /-- Each class leaves in the order of its admission. -/
  fifo : ∀ b, ofClass b s.admitted = ofClass b s.departed ++ ofClass b (s.queue h).pending

theorem start_ordered (h : Handle) (w : World σ) (id : QueueId) (limit : Nat) :
    Ordered h (start h w id limit) where
  instants_first := by simp [InstantsFirst, queue, start, Queue.make]
  fifo := by simp [admitted, departed, queue, start, Queue.make, ofClass]

section
variable {h : Handle} {s t : Session σ}

theorem Ordered.congr (hs : Ordered h s) (hp : (t.queue h).pending = (s.queue h).pending)
    (hl : t.log = s.log) : Ordered h t where
  instants_first := hp ▸ hs.instants_first
  fifo b := by simpa only [admitted, departed, hl, hp] using hs.fifo b

/-- A deed keeps the order if, in each class, the entries to run with the admitted
    one are those that leave before those that stay. -/
theorem Ordered.deed (hs : Ordered h s) {d : Deed} (hl : t.log = s.log ++ [d])
    (hi : InstantsFirst (t.queue h).pending)
    (hd : ∀ b, ofClass b (s.queue h).pending ++ ofClass b d.admissions =
      ofClass b (d.handedOut ++ d.discarded) ++ ofClass b (t.queue h).pending) :
    Ordered h t where
  instants_first := hi
  fifo b := by
    rw [admitted_deed hl, departed_deed hl, ofClass_append, ofClass_append, hs.fifo b,
      List.append_assoc, hd b, List.append_assoc]

theorem Ordered.drop (hs : Ordered h s) (hp : (t.queue h).pending = [])
    (hl : t.log = s.log ++ [.dropped (s.queue h).pending]) : Ordered h t :=
  hs.deed hl (hp ▸ .nil) fun b => by simp [hp, Deed.admissions, Deed.handedOut, Deed.discarded]

theorem Outcome.ordered {a : Act σ} (ho : Outcome h s t a) (hs : Ordered h s) : Ordered h t := by
  cases ho with
  | same hq hc hl => exact hs.congr (by rw [hq]) hl
  | accept e hopen hq hc hl =>
    refine hs.deed hl ?_ fun b => ?_
    · rw [hq]; exact hs.instants_first.splice _
    · rw [hq, ofClass_splice hs.instants_first]; rfl
  | release hd hh hp hq hc hl => exact hs.congr (by rw [hq]) hl
  | hand e rest hd hh hp hq hc hl =>
    refine hs.deed hl ?_ fun b => ?_
    · rw [hq]; exact (hp ▸ hs.instants_first).tail
    · have hcons := ofClass_append b [e] rest
      simpa [hp, hq, Deed.admissions, Deed.handedOut, Deed.discarded] using hcons
  | takeBack place c e result r hget hq hc hl =>
    have hp : (t.queue h).pending = (s.queue h).pending := by rw [hq, Queue.finish_pending]
    exact hs.deed hl (hp ▸ hs.instants_first) fun b => by
      simp [hp, Deed.admissions, Deed.handedOut, Deed.discarded]
  | clear hq hc hl => exact hs.drop (by rw [hq]; rfl) hl
  | stop hq hc hl => exact hs.drop (by rw [hq]; rfl) hl

end

theorem run_ordered (h : Handle) (w : World σ) (id : QueueId) (limit : Nat)
    (acts : List (Act σ)) : Ordered h ((start h w id limit).run h acts) :=
  run_induction (fun _ _ _ ho hs => ho.ordered hs) (start_ordered h w id limit) acts

theorem Ordered.remaining_eq {h : Handle} {s : Session σ} (hs : Ordered h s) (b : Bool) :
    s.remaining b = ofClass b (s.queue h).pending := by
  rw [remaining, hs.fifo b, List.drop_left]

theorem departed_perm (s : Session σ) : s.departed.Perm (s.claimed ++ s.dropped) :=
  (List.flatMap_append_perm s.log Deed.handedOut Deed.discarded).symm

/-- Every admission is accounted for once. -/
theorem Ordered.perm {h : Handle} {s : Session σ} (hs : Ordered h s) :
    s.admitted.Perm ((s.queue h).pending ++ (s.claimed ++ s.dropped)) :=
  calc s.admitted
    _ ~ ofClass true s.admitted ++ ofClass false s.admitted := (ofClass_perm _).symm
    _ = ofClass true s.departed ++ (ofClass true (s.queue h).pending ++
          (ofClass false s.departed ++ ofClass false (s.queue h).pending)) := by
      rw [hs.fifo, hs.fifo, List.append_assoc]
    _ ~ ofClass true s.departed ++ (ofClass false s.departed ++
          (ofClass true (s.queue h).pending ++ ofClass false (s.queue h).pending)) :=
      (List.perm_append_comm_assoc ..).append_left _
    _ = (ofClass true s.departed ++ ofClass false s.departed) ++ (s.queue h).pending := by
      rw [← hs.instants_first.eq_append, List.append_assoc]
    _ ~ s.departed ++ (s.queue h).pending := (ofClass_perm _).append_right _
    _ ~ (s.queue h).pending ++ s.departed := List.perm_append_comm
    _ ~ (s.queue h).pending ++ (s.claimed ++ s.dropped) := (departed_perm s).append_left _

theorem InstantsFirst.nextIsInstant_iff {q : Queue} (h : InstantsFirst q.pending) :
    q.nextIsInstant = true ↔ ∃ e ∈ q.pending, e.instant = true := by
  unfold Queue.nextIsInstant
  cases hp : q.pending with
  | nil => simp
  | cons e rest =>
    have hf := (List.pairwise_cons.1 (hp ▸ h : InstantsFirst (e :: rest))).1
    constructor
    · intro he; exact ⟨e, by simp, he⟩
    · rintro ⟨f, hm, hi⟩
      rcases List.mem_cons.1 hm with rfl | hm
      · exact hi
      · exact hf f hm hi

/-- **Entries are handed out in order.**  In every session with a new queue the
    entries to run are the remaining instant ones, in the order of their
    admission, before the remaining normal ones.  Each class leaves in the order of
    its admission.  The admitted entries are those that are to run, that were
    handed out and that were dropped, so that one that was admitted once is
    exactly one of these, once.  A take hands out the first entry to run or none; it
    does hand it out if no claim and no entry holds the queue.  The next entry is
    instant if any is. -/
theorem run_order (h : Handle) (w : World σ) (id : QueueId) (limit : Nat)
    (acts : List (Act σ)) :
    let s := (start h w id limit).run h acts
    let q := s.queue h
    q.pending = s.remaining true ++ s.remaining false ∧
      (∀ b, ofClass b s.departed <+: ofClass b s.admitted) ∧
      s.admitted.Perm (q.pending ++ (s.claimed ++ s.dropped)) ∧
      ((s.admitted.map Entry.id).Nodup →
        ((q.pending ++ (s.claimed ++ s.dropped)).map Entry.id).Nodup) ∧
      (∀ next w', s.world.takeNext h = (next, w') →
        q.pending = next.claims.map Claim.entry ++ (w'.queues h).pending ∧
          (q.dispatching = false → q.holder? s.world.waiting = none → next = q.front)) ∧
      (q.nextIsInstant = true ↔ ∃ e ∈ q.pending, e.instant = true) := by
  intro s q
  have hs : Ordered h s := run_ordered h w id limit acts
  refine ⟨?_, fun b => ?_, hs.perm, ?_,
    fun next w' hn => ⟨World.pending_takeNext hn, fun hd hh => ?_⟩,
    hs.instants_first.nextIsInstant_iff⟩
  · rw [hs.remaining_eq, hs.remaining_eq]
    exact hs.instants_first.eq_append
  · exact ⟨_, (hs.fifo b).symm⟩
  · exact fun hn => (hs.perm.map Entry.id).nodup_iff.1 hn
  · rw [← (Queue.takeNext_free hd hh).1]
    exact congrArg Prod.fst hn.symm

/-- An instant entry is handed out before a normal one that was admitted earlier. -/
theorem run_order_instant :
    let f := Entry.make ⟨0⟩ .normal "last" [] none
    let i := Entry.make ⟨1⟩ .instant "next" [] none
    let s := (start ⟨0⟩ (World.start () {} false) ⟨"main"⟩ 0).run ⟨0⟩ [.enqueue f, .enqueue i]
    (((s.queue ⟨0⟩).pending ++ (s.claimed ++ s.dropped)).map Entry.id).Nodup ∧
      (s.world.takeNext ⟨0⟩).1 = .ready ⟨i.attach ⟨"main"⟩, 0⟩ := by
  intro f i s
  obtain ⟨-, -, -, honce, htake, -⟩ := run_order ⟨0⟩ (World.start () {} false) ⟨"main"⟩ 0
    [.enqueue f, .enqueue i]
  have hdistinct : (s.admitted.map Entry.id).Nodup := by decide
  have hfirst := (htake _ _ rfl).2 rfl rfl
  exact ⟨honce hdistinct, hfirst⟩

end Session

end Cuelist
