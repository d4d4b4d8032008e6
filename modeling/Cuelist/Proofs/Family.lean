/-
  Entries and their copies.

  A `Family` is what a host holds of entries in a world: each of them was made for a call, or
  copied from another one, and `Member.call` has the arguments of the call at the root of its
  chain of copies.  `Family.step` does one thing with a family, `Family.run` one after the other.
  The handle by which an entry is signalled is its identity, and stays when the entry is gone.

  * `Entry.Becomes`: what nothing that is done to an entry changes, with one lemma for each
    thing that can be done.
  * `World.Concerns`: whether a change of the world concerns one entry alone;
    `BundledExecutor.concerns_dispatch` for the run of an entry.
  * `Family.Outcome`: all that an act can come to.  From it follow what every family is like
    (`Family.Sound`) and what an act spares (`Family.Spares`).
  * `Family.members_apart` puts these together for every run.
-/
import Cuelist.Proofs.Utterance

namespace Cuelist

variable {σ : Type}

theorem put_eq_some {α β : Type} [DecidableEq α] {f : α → Option β} {a x : α} {o : Option β}
    {b : β} (h : put f a o x = some b) : x = a ∧ o = some b ∨ x ≠ a ∧ f x = some b := by
  by_cases hx : x = a
  · rw [hx, put_same] at h
    exact .inl ⟨hx, h⟩
  · rw [put_other _ _ hx] at h
    exact .inr ⟨hx, h⟩

/-! ## Entries -/

namespace Entry

/-- What can be done to an entry alone. -/
inductive Change where
  | command (name : String)
  | arguments (arguments : List String)
  | reset
  | add (key : String) (v : Value)
  | set (key : String) (v : Option Value)
  | ensure (key : String) (candidates : List (Option Value))
  | remove (key : String)
  | track (key : String)
  | subject (a : Option ActorRef)
  | secondary (a : Option ActorRef)
  | script (s : Option Script)
  | attach (queue : QueueId)
  | instant (instant : Bool)
  /-- Its tags are filled. -/
  | resolve (r : Resolver)

/-- The entry after a change. -/
def changed (e : Entry) : Change → Entry
  | .command name => e.setCommand name
  | .arguments arguments => e.setArguments arguments
  | .reset => e.resetArguments
  | .add key v => e.add key v
  | .set key v => e.set key v
  | .ensure key candidates =>
    match e.ensure key candidates with
    | .ok (_, e') => e'
    | .error _ => e
  | .remove key => e.remove key
  | .track key => e.track key
  | .subject a => e.setSubject a
  | .secondary a => e.setSecondary a
  | .script s => e.setScript s
  | .attach queue => e.attach queue
  | .instant instant => e.setInstant instant
  | .resolve r => (Tag.resolveEntry r e).1

/-- Whether the tracked keys of an entry are canonical, each of them once. -/
structure Tidy (e : Entry) : Prop where
  canonical : ∀ key ∈ e.tracked, Key.Canonical key
  nodup : e.tracked.Nodup

theorem tidy_make (id : EntryId) (timing : Timing) (command : String) (arguments : List String)
    (script : Option Script) : (make id timing command arguments script).Tidy :=
  ⟨nofun, .nil⟩

/-- Whether an entry can become another one: its identity, the arguments of its call and the
    order among its tracked keys stay. -/
structure Becomes (e e' : Entry) : Prop where
  id : e'.id = e.id
  given : e'.given = e.given
  tidy : e.Tidy → e'.Tidy

theorem track_of_mem {e : Entry} {key : String} (h : Key.normalize key ∈ e.tracked) :
    e.track key = e :=
  if_pos h

theorem track_of_not_mem {e : Entry} {key : String} (h : Key.normalize key ∉ e.tracked) :
    e.track key = { e with tracked := e.tracked ++ [Key.normalize key] } :=
  if_neg h

theorem track_eq (e : Entry) (key : String) :
    e.track key = { e with tracked := (e.track key).tracked } := by
  simp only [track]
  split <;> rfl

theorem Tidy.track {e : Entry} (h : e.Tidy) (key : String) : (e.track key).Tidy := by
  by_cases hkey : Key.normalize key ∈ e.tracked
  · rwa [track_of_mem hkey]
  · rw [track_of_not_mem hkey]
    constructor
    · intro key' hkey'
      rcases List.mem_append.1 hkey' with hkey' | hkey'
      · exact h.canonical key' hkey'
      · rw [List.mem_singleton.1 hkey']
        exact Key.normalize_normalize key
    · exact List.concat_eq_append ▸ List.Nodup.concat hkey h.nodup

namespace Becomes
variable {e e' e'' : Entry}

theorem refl (e : Entry) : e.Becomes e := ⟨rfl, rfl, fun h => h⟩

theorem trans (h : e.Becomes e') (h' : e'.Becomes e'') : e.Becomes e'' where
  id := h'.id.trans h.id
  given := h'.given.trans h.given
  tidy ht := h'.tidy (h.tidy ht)

/-- What leaves these parts alone. -/
theorem of_same (hid : e'.id = e.id) (hgiven : e'.given = e.given)
    (htracked : e'.tracked = e.tracked) : e.Becomes e' where
  id := hid
  given := hgiven
  tidy h := ⟨by rw [htracked]; exact h.canonical, by rw [htracked]; exact h.nodup⟩

theorem of_touched (h : e.Touched e') : e.Becomes e' :=
  of_same (by rw [h.rest]) h.given (by rw [h.rest])

theorem add (e : Entry) (key : String) (v : Value) : e.Becomes (e.add key v) :=
  of_same rfl rfl rfl

theorem track (e : Entry) (key : String) : e.Becomes (e.track key) where
  id := by rw [track_eq]
  given := by rw [track_eq]
  tidy h := h.track key

theorem changed (e : Entry) (c : Change) : e.Becomes (e.changed c) := by
  cases c with
  | command | arguments | reset | remove | subject | secondary | script | attach | instant =>
    exact of_same rfl rfl rfl
  | add key v => exact add e key v
  | set key v =>
    cases v with
    | none => exact refl e
    | some v => exact add e key v
  | ensure key candidates =>
    simp only [Entry.changed, ensure]
    split
    next he =>
      split at he
      · cases he
        exact refl e
      · split at he
        · cases he
          exact add ..
        · cases he
    next => exact refl e
  | track key => exact track e key
  | resolve r => exact of_touched (.resolveEntry r e)

theorem injectKey (source e : Entry) (key : String) : e.Becomes (source.injectKey e key) := by
  unfold Entry.injectKey
  split
  next => exact (add e _ _).trans (track _ _)
  next => exact refl e

theorem injectInto (source e : Entry) : e.Becomes (source.injectInto e) :=
  List.foldlRecOn (motive := e.Becomes) _ _ (refl e)
    fun target h key _ => h.trans (injectKey source target key)

end Becomes

end Entry

/-! ## Changes of the world -/

/-- The entry that a task signals. -/
def Task.signals? : Task → Option EntryId
  | .alarm id _ | .armed id _ => some id
  | .player _ | .done => none

/-- The entry that a task signals, and the time for it if the task looks at the clock now. -/
def Task.alarm? (now : Nat) : Task → Option (EntryId × Nat)
  | .alarm id length => some (id, alarmDue now length)
  | .armed id due => some (id, due)
  | .player _ | .done => none

theorem Task.signals?_eq (task : Task) (now : Nat) :
    task.signals? = (task.alarm? now).map Prod.fst := by
  cases task <;> rfl

namespace World

/-- Whether an entry waits for its signal, and who listens for it. -/
def completion (w : World σ) (id : EntryId) : Bool × Listeners :=
  (w.waiting id, w.bells (.entry id))

/-- Lets a task look at the clock if it is to signal an entry. -/
def look (w : World σ) (t : TaskId) : World σ :=
  match (w.tasks t).alarm? w.now with
  | some (id, due) => (w.advanceAlarm t id due).2
  | none => w

/-- Whether a change concerns at most one entry: the signals of all others stay as they are, no
    task is started to signal another one, and no entry is made. -/
structure Concerns (target : Option EntryId) (w v : World σ) : Prop where
  entryCount : v.entryCount = w.entryCount
  completion : ∀ id, target ≠ some id → v.completion id = w.completion id
  signals : ∀ t id, (v.tasks t).signals? = some id →
    (w.tasks t).signals? = some id ∨ target = some id

namespace Concerns
variable {target : Option EntryId} {w v u : World σ}

theorem refl (target : Option EntryId) (w : World σ) : w.Concerns target w :=
  ⟨rfl, fun _ _ => rfl, fun _ _ h => .inl h⟩

theorem trans (h : w.Concerns target v) (h' : v.Concerns target u) : w.Concerns target u where
  entryCount := h'.entryCount.trans h.entryCount
  completion id hne := (h'.completion id hne).trans (h.completion id hne)
  signals t id ht := (h'.signals t id ht).elim (h.signals t id) .inr

/-- What leaves the entries and the tasks alone concerns no entry. -/
theorem of_same (hcount : v.entryCount = w.entryCount) (hwaiting : v.waiting = w.waiting)
    (hbells : v.bells = w.bells) (htasks : v.tasks = w.tasks) : w.Concerns target v where
  entryCount := hcount
  completion id _ := by simp only [World.completion, hwaiting, hbells]
  signals t id ht := by rw [htasks] at ht; exact .inl ht

theorem after (w : World σ) (r : Reporter) (said : List Utterance) :
    w.Concerns target (w.after r said) := by
  rw [after_eq]
  exact of_same rfl rfl rfl rfl

theorem strike (w : World σ) (time : Nat) : w.Concerns target (w.strike time) := by
  rw [strike_eq]
  exact of_same rfl rfl rfl rfl

theorem setWaiting (w : World σ) (id : EntryId) (waiting : Bool) :
    w.Concerns (some id) (w.setWaiting id waiting) where
  entryCount := rfl
  completion id' hne := by
    simp only [World.completion, World.setWaiting]
    rw [put_other _ _ fun h => hne (congrArg some h.symm)]
  signals t id' ht := .inl ht

/-- A ring for an entry concerns this entry. -/
theorem ring (w : World σ) (id : EntryId) : w.Concerns (some id) (w.ring (.entry id)) where
  entryCount := by rw [ring_eq]
  completion id' hne := by
    have hbell : Bell.entry id' ≠ .entry id := fun h => hne (Bell.entry.inj h ▸ rfl)
    simp only [World.completion, waiting_ring, bells_ring, put_other _ _ hbell]
  signals t id' ht := by rw [tasks_ring] at ht; exact .inl ht

theorem markFinished (w : World σ) (id : EntryId) (finished : Bool) :
    w.Concerns (some id) (w.markFinished id finished) := by
  cases finished with
  | false => exact setWaiting w id true
  | true => exact (setWaiting w id false).trans (ring _ id)

theorem setTask (w : World σ) (t : TaskId) {task : Task}
    (h : ∀ id, task.signals? = some id → target = some id) :
    w.Concerns target (w.setTask t task) where
  entryCount := rfl
  completion _ _ := rfl
  signals t' id ht := by
    simp only [World.setTask] at ht
    by_cases hsame : t' = t
    · rw [hsame, put_same] at ht
      exact .inr (h id ht)
    · rw [put_other _ _ hsame] at ht
      exact .inl ht

theorem spawn (w : World σ) {task : Task} (h : ∀ id, task.signals? = some id → target = some id) :
    w.Concerns target (w.spawn task) := by
  rw [spawn_eq]
  exact (setTask w _ h).trans (of_same rfl rfl rfl rfl)

theorem arm (w : World σ) (id : EntryId) (d : Span) : w.Concerns (some id) (Wait.arm w id d) := by
  unfold Wait.arm
  split
  · exact (setWaiting w id true).trans (spawn _ fun _ h => h)
  · exact markFinished w id true

theorem advanceAlarm (w : World σ) (t : TaskId) (id : EntryId) (due : Nat) :
    w.Concerns (some id) (w.advanceAlarm t id due).2 := by
  unfold World.advanceAlarm
  split
  · have hdisarmed : w.Concerns (some id) (w.disarm t) := of_same rfl rfl rfl rfl
    have hdone : (w.disarm t).Concerns (some id) ((w.disarm t).setTask t .done) :=
      setTask _ t nofun
    exact (hdisarmed.trans hdone).trans (markFinished _ id true)
  · have harmed : w.Concerns (some id) (w.arm due t) := by
      rw [arm_eq]
      exact of_same rfl rfl rfl rfl
    exact harmed.trans (setTask _ t fun _ h => h)

theorem look (w : World σ) (t : TaskId) : w.Concerns (w.tasks t).signals? (w.look t) := by
  rw [Task.signals?_eq _ w.now]
  unfold World.look
  cases (w.tasks t).alarm? w.now with
  | none => exact refl _ w
  | some signal => exact advanceAlarm w t signal.1 signal.2

end Concerns

end World

/-! ## Runs of entries -/

theorem Executor.dispatch_unknown {x : Executor σ} {e : Entry} {err : CommandError}
    (h : x.registry.lookup e.command = .error err) (w : World σ) :
    x.dispatch e w = ⟨.error err, (Tag.resolveEntry x.resolver e).1, w.after x.reporter
      ((Tag.resolveEntry x.resolver e).2.map fun m => .tell (.warning m))⟩ := by
  rw [← Tag.command_resolveEntry x.resolver e] at h
  simp only [dispatch, h, World.foldl_tell_eq_after]

/-- An executor whose commands are the bundled ones, under whatever names. -/
structure BundledExecutor (σ : Type) extends Executor σ where
  directory : Narrate.Directory
  bundled : ∀ p ∈ registry.index.pairs, p.2 = Wait.command ∨ p.2 = Narrate.command directory

namespace BundledExecutor
variable (x : BundledExecutor σ) (e : Entry) (w : World σ)

theorem warnings_complain : ∀ d ∈ (Tag.resolveEntry x.resolver e).2.map fun m =>
    Utterance.tell (.warning m), d.isComplaint = true :=
  fun _ hd => Utterance.isComplaint_of_mem (fun _ => rfl) hd

theorem lookup_bundled {name : String} {c : Command σ} (h : x.registry.lookup name = .ok c) :
    c = Wait.command ∨ c = Narrate.command x.directory := by
  obtain ⟨key, hmem⟩ := Registry.mem_of_lookup h
  exact x.bundled _ hmem

/-- An entry that is run stays the same entry. -/
theorem becomes_dispatch : e.Becomes (x.dispatch e w).entry := by
  refine .of_touched ?_
  cases hl : x.registry.lookup e.command with
  | error err =>
    rw [Executor.dispatch_unknown hl]
    exact .resolveEntry x.resolver e
  | ok c =>
    rcases x.lookup_bundled hl with rfl | rfl
    · exact Wait.settles.touched_dispatch hl w
    · exact (Narrate.settles x.directory).touched_dispatch hl w

/-- **Running an entry concerns this entry.** -/
theorem concerns_dispatch : w.Concerns (some e.id) (x.dispatch e w).world := by
  cases hl : x.registry.lookup e.command with
  | error err =>
    rw [Executor.dispatch_unknown hl]
    exact .after ..
  | ok c =>
    rw [Executor.dispatch_after hl]
    generalize hwarned : World.after w .. = v
    have hwarnings : w.Concerns (some e.id) v := hwarned ▸ .after ..
    rcases x.lookup_bundled hl with rfl | rfl
    · obtain ⟨result, left, said, -, hperform⟩ :=
        Wait.exists_acts (σ := σ) (Tag.resolveEntry x.resolver e).1 (x.warnings_complain e)
      rw [hperform, Tag.id_resolveEntry]
      refine hwarnings.trans (.trans (.after v x.reporter said) ?_)
      cases result with
      | ok d => exact .arm _ e.id d
      | error err => exact .refl ..
    · obtain ⟨result, left, said, -, hperform⟩ := Narrate.exists_acts (σ := σ) x.directory
        x.scripts (Tag.resolveEntry x.resolver e).1 v.cast (x.warnings_complain e)
      rw [hperform x.toExecutor v rfl rfl]
      exact hwarnings.trans (.after ..)

end BundledExecutor

/-! ## Families -/

/-- An entry, and the arguments of the call at the root of its chain of copies. -/
structure Member where
  entry : Entry
  call : List String

/-- What is true of every entry that a host holds: it is under its identity, it was made in the
    world, and it has the arguments of the call at its root. -/
structure Member.Sound (w : World σ) (id : EntryId) (m : Member) : Prop where
  made : id.number < w.entryCount
  id : m.entry.id = id
  given : m.entry.given = m.call
  tidy : m.entry.Tidy

/-- The entries that a host holds, and the world they are in. -/
structure Family (σ : Type) where
  world : World σ
  members : EntryId → Option Member

namespace Family

/-- What a host does with the entries that it holds. -/
inductive Act (σ : Type) where
  /-- Makes an entry for a call. -/
  | make (command : String) (arguments : List String) (script : Option Script)
  | copy (id : EntryId)
  | drop (id : EntryId)
  | change (id : EntryId) (c : Entry.Change)
  /-- Hands the tracked objects of an entry on to another one. -/
  | inject (source target : EntryId)
  /-- Runs an entry with a bundled command. -/
  | dispatch (id : EntryId) (x : BundledExecutor σ)
  /-- Lets an entry wait for its signal, or not. -/
  | wait (id : EntryId) (waiting : Bool)
  /-- Signals an entry, by a handle that was kept of it. -/
  | signal (id : EntryId) (finished : Bool)
  /-- Lets an alarm look at the clock. -/
  | alarm (t : TaskId)
  /-- Sets the clock. -/
  | pass (time : Nat)

/-- A host that holds no entries. -/
def start (w : World σ) : Family σ :=
  ⟨w, fun _ => none⟩

/-- What is done with an entry, if the host holds it. -/
def withMember (f : Family σ) (id : EntryId) (act : Member → Family σ) : Family σ :=
  match f.members id with
  | some m => act m
  | none => f

/-- The family with another entry in the place of one. -/
def replace (f : Family σ) (m : Member) (e : Entry) : Family σ :=
  { f with members := put f.members m.entry.id (some { m with entry := e }) }

/-- The family after an act.  A signal needs no entry that the host holds. -/
def step (f : Family σ) : Act σ → Family σ
  | .make command arguments script =>
    match f.world.newEntry command arguments script with
    | .ok (e, world) => ⟨world, put f.members e.id (some ⟨e, arguments⟩)⟩
    | .error _ => f
  | .copy id => f.withMember id fun m =>
    let (e, world) := f.world.duplicate m.entry
    ⟨world, put f.members e.id (some ⟨e, m.call⟩)⟩
  | .drop id => { f with members := put f.members id none }
  | .change id c => f.withMember id fun m => f.replace m (m.entry.changed c)
  | .inject source target => f.withMember source fun s => f.withMember target fun m =>
    f.replace m (s.entry.injectInto m.entry)
  | .dispatch id x => f.withMember id fun m =>
    let reply := x.dispatch m.entry f.world
    { f.replace m reply.entry with world := reply.world }
  | .wait id waiting => { f with world := f.world.setWaiting id waiting }
  | .signal id finished => { f with world := f.world.markFinished id finished }
  | .alarm t => { f with world := f.world.look t }
  | .pass time => { f with world := f.world.strike time }

/-- The family after acts, in order. -/
def run (f : Family σ) (acts : List (Act σ)) : Family σ :=
  acts.foldl step f

/-- The entry that an act is done to.  A copy is not done to the entry that it is made of. -/
def target (f : Family σ) : Act σ → Option EntryId
  | .make .. | .copy _ | .pass _ => none
  | .drop id | .change id _ | .inject _ id | .dispatch id _ | .wait id _ | .signal id _ => some id
  | .alarm t => (f.world.tasks t).signals?

/-! ### One act -/

/-- All that an act on an entry can come to. -/
inductive Outcome (f : Family σ) (target : Option EntryId) : Family σ → Prop where
  /-- The world alone changes. -/
  | aside {w : World σ} : f.world.Concerns target w → Outcome f target { f with world := w }
  /-- The entry becomes another one. -/
  | became {m : Member} {e : Entry} {w : World σ} : target = some m.entry.id →
    f.members m.entry.id = some m → m.entry.Becomes e → f.world.Concerns target w →
    Outcome f target { f.replace m e with world := w }
  /-- The entry is gone. -/
  | gone {id : EntryId} : target = some id →
    Outcome f target { f with members := put f.members id none }
  /-- There is a new entry. -/
  | born {e : Entry} {call : List String} {waiting : Bool} : e.id = ⟨f.world.entryCount⟩ →
    e.given = call → e.Tidy →
    Outcome f target
      ⟨{ f.world with
          entryCount := f.world.entryCount + 1
          waiting := put f.world.waiting e.id waiting },
        put f.members e.id (some ⟨e, call⟩)⟩

/-- Whether all entries of a family are sound. -/
def Sound (f : Family σ) : Prop :=
  ∀ {id m}, f.members id = some m → m.Sound f.world id

theorem sound_start (w : World σ) : (start w).Sound :=
  nofun

variable {f f' : Family σ} {target : Option EntryId}

theorem withMember_some {id : EntryId} {m : Member} (hm : f.members id = some m)
    (act : Member → Family σ) : f.withMember id act = act m := by
  rw [withMember, hm]

/-- Nothing is done. -/
theorem Outcome.none (f : Family σ) (target : Option EntryId) : Outcome f target f :=
  .aside (.refl ..)

/-- It is enough to look at the entries that the host holds. -/
theorem Outcome.withMember {id : EntryId} {act : Member → Family σ}
    (h : ∀ m, f.members id = some m → Outcome f target (act m)) :
    Outcome f target (f.withMember id act) := by
  cases hm : f.members id with
  | none =>
    rw [Family.withMember, hm]
    exact .none f target
  | some m =>
    rw [withMember_some hm]
    exact h m hm

/-- An entry is replaced by what it can become. -/
theorem Sound.replaced (hf : f.Sound) {id : EntryId} {m : Member} {e : Entry} {w : World σ}
    (hm : f.members id = some m) (he : m.entry.Becomes e) (hw : f.world.Concerns (some id) w) :
    Outcome f (some id) { f.replace m e with world := w } := by
  obtain rfl := (hf hm).id
  exact .became rfl hm he hw

theorem Sound.step_copy (hf : f.Sound) {id : EntryId} {m : Member} (hm : f.members id = some m) :
    f.step (.copy id) =
      ⟨{ f.world with
          entryCount := f.world.entryCount + 1
          waiting := put f.world.waiting ⟨f.world.entryCount⟩ (f.world.waiting id) },
        put f.members ⟨f.world.entryCount⟩
          (some ⟨m.entry.copied ⟨f.world.entryCount⟩, m.call⟩)⟩ := by
  rw [step, withMember_some hm]
  simp only [World.duplicate, (hf hm).id]
  rfl

/-- **What an act comes to.** -/
theorem Sound.outcome (hf : f.Sound) (act : Act σ) : Outcome f (f.target act) (f.step act) := by
  cases act with
  | make command arguments script =>
    simp only [step, World.newEntry]
    cases readCommand command with
    | error err => exact .none f _
    | ok read => exact .born rfl rfl (Entry.tidy_make ..)
  | copy id =>
    refine .withMember fun m hm => ?_
    have htidy := (hf hm).tidy
    exact .born (e := m.entry.copied _) rfl (hf hm).given ⟨htidy.canonical, htidy.nodup⟩
  | drop id => exact .gone rfl
  | change id c => exact .withMember fun m hm => hf.replaced hm (.changed m.entry c) (.refl ..)
  | inject source target =>
    refine .withMember fun s _ => .withMember fun m hm => ?_
    exact hf.replaced hm (.injectInto s.entry m.entry) (.refl ..)
  | dispatch id x =>
    refine .withMember fun m hm => ?_
    have hconcerns := x.concerns_dispatch m.entry f.world
    rw [(hf hm).id] at hconcerns
    exact hf.replaced hm (x.becomes_dispatch m.entry f.world) hconcerns
  | wait id waiting => exact .aside (.setWaiting ..)
  | signal id finished => exact .aside (.markFinished ..)
  | alarm t => exact .aside (.look ..)
  | pass time => exact .aside (.strike ..)

/-- What an act on an entry leaves alone: the other entries, and the signals of all others that
    were ever made; no task is started to signal another entry, and no call at a root changes. -/
structure Spares (f : Family σ) (target : Option EntryId) (f' : Family σ) : Prop where
  members : ∀ {id m}, f.members id = some m → target ≠ some id → f'.members id = some m
  completion : ∀ {id : EntryId}, id.number < f.world.entryCount → target ≠ some id →
    f'.world.completion id = f.world.completion id
  signals : ∀ {t id}, (f'.world.tasks t).signals? = some id →
    (f.world.tasks t).signals? = some id ∨ target = some id
  call : ∀ {id m m'}, f.members id = some m → f'.members id = some m' → m'.call = m.call

theorem Spares.waiting (h : f.Spares target f') {id : EntryId}
    (hmade : id.number < f.world.entryCount) (hne : target ≠ some id) :
    f'.world.waiting id = f.world.waiting id :=
  congrArg Prod.fst (h.completion hmade hne)

namespace Outcome

theorem sound (h : Outcome f target f') (hf : f.Sound) : f'.Sound := by
  intro id' m' hm'
  cases h with
  | aside hw =>
    have hsound := hf hm'
    exact ⟨hw.entryCount ▸ hsound.made, hsound.id, hsound.given, hsound.tidy⟩
  | became _ hm he hw =>
    rcases put_eq_some hm' with ⟨rfl, heq⟩ | ⟨-, hm'⟩
    · cases heq
      have hsound := hf hm
      exact ⟨hw.entryCount ▸ hsound.made, he.id.trans hsound.id, he.given.trans hsound.given,
        he.tidy hsound.tidy⟩
    · have hsound := hf hm'
      exact ⟨hw.entryCount ▸ hsound.made, hsound.id, hsound.given, hsound.tidy⟩
  | gone =>
    rcases put_eq_some hm' with ⟨-, heq⟩ | ⟨-, hm'⟩
    · cases heq
    · exact hf hm'
  | born hid hgiven htidy =>
    rcases put_eq_some hm' with ⟨rfl, heq⟩ | ⟨-, hm'⟩
    · cases heq
      exact ⟨hid ▸ Nat.lt_succ_self _, rfl, hgiven, htidy⟩
    · have hsound := hf hm'
      exact ⟨Nat.lt_succ_of_lt hsound.made, hsound.id, hsound.given, hsound.tidy⟩

/-- The identity of a new entry is none of those that were made. -/
theorem ne_of_made {e : Entry} (hid : e.id = ⟨f.world.entryCount⟩) {id : EntryId}
    (h : id.number < f.world.entryCount) : id ≠ e.id := by
  rintro rfl
  rw [hid] at h
  exact Nat.lt_irrefl _ h

theorem spares (h : Outcome f target f') (hf : f.Sound) : f.Spares target f' := by
  cases h with
  | aside hw =>
    refine ⟨fun hm _ => hm, fun _ => hw.completion _, hw.signals _ _, fun hm hm' => ?_⟩
    rw [Option.some.inj (hm.symm.trans hm')]
  | became htarget hm he hw =>
    refine ⟨fun hm' hne => ?_, fun _ => hw.completion _, hw.signals _ _, fun hm₁ hm₂ => ?_⟩
    · exact (put_other _ _ fun hid => hne (htarget.trans (congrArg some hid.symm))).trans hm'
    · rcases put_eq_some hm₂ with ⟨rfl, heq⟩ | ⟨-, hm₂⟩
      · cases heq
        rw [Option.some.inj (hm.symm.trans hm₁)]
      · rw [Option.some.inj (hm₁.symm.trans hm₂)]
  | gone htarget =>
    refine ⟨fun hm' hne => ?_, fun _ _ => rfl, .inl, fun hm₁ hm₂ => ?_⟩
    · exact (put_other _ _ fun hid => hne (htarget.trans (congrArg some hid.symm))).trans hm'
    · rcases put_eq_some hm₂ with ⟨-, heq⟩ | ⟨-, hm₂⟩
      · cases heq
      · rw [Option.some.inj (hm₁.symm.trans hm₂)]
  | born hid hgiven htidy =>
    refine ⟨fun hm _ => ?_, fun hmade _ => ?_, .inl, fun hm₁ hm₂ => ?_⟩
    · exact (put_other _ _ (ne_of_made hid (hf hm).made)).trans hm
    · simp only [World.completion, put_other _ _ (ne_of_made hid hmade)]
    · rcases put_eq_some hm₂ with ⟨heq, -⟩ | ⟨-, hm₂⟩
      · exact absurd heq (ne_of_made hid (hf hm₁).made)
      · rw [Option.some.inj (hm₁.symm.trans hm₂)]

end Outcome

/-! ### Every run -/

/-- **Every family is sound**, whatever was done. -/
theorem sound_run (w : World σ) (acts : List (Act σ)) : ((start w).run acts).Sound :=
  List.foldlRecOn (motive := Sound) acts step (sound_start w)
    fun _ hf act _ => (hf.outcome act).sound hf

/-- **Entries and their copies are apart.**  Whatever was done with the entries of a host:

    * every entry has the arguments of the call at the root of its chain of copies, and has tags
      exactly if these have some;
    * a copy that is made now is a new entry, reads the arguments of that call, and waits for a
      signal of its own if the entry waits;
    * a signal changes no entry, and lets no entry wait or go on but its own;
    * nothing that is done to an entry changes another one or the signal of another one, or starts
      an alarm for another one; and no entry gets another call. -/
theorem members_apart (w : World σ) (acts : List (Act σ)) :
    let f := (start w).run acts
    (∀ id m, f.members id = some m → m.entry.id = id ∧ m.entry.given = m.call ∧
      m.entry.hasTags = m.call.any Entry.hasMarks) ∧
    (∀ id m, f.members id = some m → ∃ e : Entry, let f' := f.step (.copy id)
      f.members e.id = none ∧ f'.members e.id = some ⟨e, m.call⟩ ∧ e.arguments = m.call ∧
        f'.world.waiting e.id = f.world.waiting id) ∧
    (∀ id finished, let f' := f.step (.signal id finished)
      f'.members = f.members ∧ f'.world.waiting = put f.world.waiting id !finished) ∧
    ∀ act, f.Spares (f.target act) (f.step act) := by
  intro f
  have hf : f.Sound := sound_run w acts
  refine ⟨fun id m hm => ?_, fun id m hm => ?_, fun id finished => ?_, fun act => ?_⟩
  · have hsound := hf hm
    exact ⟨hsound.id, hsound.given, by rw [Entry.hasTags, hsound.given]⟩
  · let fresh : EntryId := ⟨f.world.entryCount⟩
    refine ⟨m.entry.copied fresh, ?_⟩
    rw [hf.step_copy hm]
    refine ⟨?_, put_same .., (hf hm).given, put_same ..⟩
    rw [Option.eq_none_iff_forall_ne_some]
    intro m' hm'
    exact Nat.lt_irrefl _ (hf hm').made
  · exact ⟨rfl, World.waiting_markFinished ..⟩
  · exact (hf.outcome act).spares hf

/-- A copy of an entry is not touched when the entry is run, nor is its signal. -/
theorem members_apart_wait :
    let x : BundledExecutor Unit :=
      ⟨.deserted {}, fun _ _ => none, fun _ => Registry.mem_withBundled⟩
    let acts : List (Act Unit) :=
      [.make "wait" ["<subject>", "1s"] none, .copy ⟨0⟩, .change ⟨0⟩ (.arguments ["2s"])]
    let f := (start (.start () {} true)).run acts
    let f' := f.step (.dispatch ⟨0⟩ x)
    f.target (.dispatch ⟨0⟩ x) ≠ some ⟨1⟩ ∧
      ∃ m, f.members ⟨1⟩ = some m ∧ f'.members ⟨1⟩ = some m ∧
        m.entry.given = ["<subject>", "1s"] ∧
        f'.world.waiting ⟨0⟩ = true ∧ f'.world.waiting ⟨1⟩ = f.world.waiting ⟨1⟩ := by
  intro x acts f f'
  have hne : f.target (.dispatch ⟨0⟩ x) ≠ some ⟨1⟩ := by decide
  have hapart := members_apart (.start () {} true) acts
  have hthere : (f.members ⟨1⟩).isSome = true := by decide +kernel
  obtain ⟨m, hm⟩ := Option.isSome_iff_exists.1 hthere
  have hcall : (f.members ⟨1⟩).map Member.call = some ["<subject>", "1s"] := by decide +kernel
  have hspares : f.Spares (some ⟨0⟩) f' := hapart.2.2.2 (.dispatch ⟨0⟩ x)
  have hwaits : f'.world.waiting ⟨0⟩ = true := by decide +kernel
  rw [hm] at hcall
  refine ⟨hne, m, hm, hspares.members hm hne, ?_, hwaits, ?_⟩
  · exact (hapart.1 _ m hm).2.1.trans (Option.some.inj hcall)
  · exact hspares.waiting (by decide +kernel) hne

end Family

end Cuelist
