/-
  What a name stands for.

  A catalog of commands changes by registrations and removals; a snapshot of it stays what it
  was.  Names are put into canonical form when a command is registered or removed, when an entry
  is made, and when it is looked up.

  * `Catalog.taken_snapshot`: a snapshot is the catalog as it was, whatever happens later.
  * `Catalog.get?_run`: what is under a name is what was registered last under a spelling of
    it, unless that was removed since.
  * `readCommand_of_calls`: an entry has the canonical form of the name that it was made from,
    with and without a sigil.
  * `snapshot_settles_names` puts these together, from the catalog to the run of an entry.
-/
import Cuelist.Command.Narrate
import Cuelist.Command.Wait
import Cuelist.Executor
import Cuelist.Proofs.Index
import Cuelist.Proofs.Names

namespace Cuelist

variable {σ α : Type}

/-! ## Catalogs -/

/-- A registry that changes, and the snapshots that were taken of it, the oldest first. -/
structure Catalog (α : Type) where
  current : Registry α := .empty
  taken : List (Registry α) := []

namespace Catalog

/-- What is done with a catalog. -/
inductive Act (α : Type) where
  | register (name : String) (a : α)
  | unregister (name : String)
  | snapshot

namespace Act

/-- Whether a thing is registered under a name with this canonical form. -/
def Registers (key : String) (a : α) (act : Act α) : Prop :=
  ∃ name, act = register name a ∧ Key.normalize name = key

/-- Whether a name with this canonical form is registered or removed. -/
def Mentions (key : String) : Act α → Prop
  | register name _ | unregister name => Key.normalize name = key
  | snapshot => False

end Act

/-- The catalog after an act. -/
def act (c : Catalog α) : Act α → Catalog α
  | .register name a => { c with current := c.current.register name a }
  | .unregister name => { c with current := c.current.unregister name }
  | .snapshot => { c with taken := c.taken ++ [c.current] }

/-- The catalog after a history that begins without names. -/
def run (acts : List (Act α)) : Catalog α := acts.foldl act {}

/-- Whether a thing was registered under a spelling of a name, and no spelling of the name was
    registered or removed since. -/
def Stands (acts : List (Act α)) (name : String) (a : α) : Prop :=
  Since (Act.Registers (Key.normalize name) a) (Act.Mentions (Key.normalize name)) acts

theorem run_concat (acts : List (Act α)) (a : Act α) : run (acts ++ [a]) = (run acts).act a :=
  List.foldl_concat ..

/-! ### Snapshots -/

theorem prefix_taken_act (c : Catalog α) (a : Act α) : c.taken <+: (c.act a).taken := by
  cases a with
  | register name a => exact List.prefix_refl _
  | unregister name => exact List.prefix_refl _
  | snapshot => exact List.prefix_append ..

/-- Snapshots stay what they are. -/
theorem prefix_taken (c : Catalog α) (acts : List (Act α)) :
    c.taken <+: (acts.foldl act c).taken :=
  List.foldlRecOn (motive := fun c' : Catalog α => c.taken <+: c'.taken) acts act
    (List.prefix_refl _) fun c' hc a _ => hc.trans (c'.prefix_taken_act a)

/-- **A snapshot is the catalog as it was**, whatever happens later. -/
theorem taken_snapshot (before after : List (Act α)) :
    (run (before ++ .snapshot :: after)).taken[(run before).taken.length]? =
      some (run before).current := by
  obtain ⟨rest, hrest⟩ := ((run before).act .snapshot).prefix_taken after
  rw [run, List.foldl_append, List.foldl_cons]
  change (List.foldl act ((run before).act .snapshot) after).taken[_]? = _
  rw [← hrest]
  simp [act]

/-! ### Names -/

theorem distinct_run (acts : List (Act α)) : (run acts).current.index.Distinct := by
  refine List.foldlRecOn (motive := fun c : Catalog α => c.current.index.Distinct) acts act
    Index.distinct_empty fun c hc a _ => ?_
  cases a with
  | register name a => exact hc.insert ..
  | unregister name => exact hc.erase _
  | snapshot => exact hc

/-- What one act makes of what is under a name. -/
theorem get?_act (c : Catalog α) (a : Act α) (key : String) (x : α) :
    (c.act a).current.index.get? key = some x ↔
      a.Registers key x ∨ ¬a.Mentions key ∧ c.current.index.get? key = some x := by
  cases a with
  | register name y =>
    simp only [act, Registry.register, Index.get?_insert, Act.Registers, Act.Mentions,
      Act.register.injEq]
    by_cases h : key = Key.normalize name
    · simp [h, eq_comm]
    · simp [h, Ne.symm h]
  | unregister name =>
    simp only [act, Registry.unregister, Index.get?_erase, Act.Registers, Act.Mentions]
    by_cases h : key = Key.normalize name
    · simp [h]
    · simp [h, Ne.symm h]
  | snapshot => simp [act, Act.Registers, Act.Mentions]

/-- **What is under a name was registered last**, and not removed since. -/
theorem get?_run (acts : List (Act α)) (key : String) (x : α) :
    (run acts).current.index.get? key = some x ↔
      Since (Act.Registers key x) (Act.Mentions key) acts := by
  induction acts using List.reverseRecOn with
  | nil => exact iff_of_false (fun h => nomatch h) since_nil
  | append_singleton acts a ih => rw [run_concat, get?_act, since_concat, ih]

theorem lookup_run (acts : List (Act α)) (name : String) (x : α) :
    (run acts).current.lookup name = .ok x ↔ Stands acts name x := by
  rw [Stands, ← get?_run, Registry.lookup]
  cases (run acts).current.index.get? (Key.normalize name) <;> simp

theorem has_run (acts : List (Act α)) (name : String) :
    (run acts).current.has name = true ↔ ∃ x, Stands acts name x := by
  simp only [Stands, ← get?_run, Registry.has, Index.contains, Option.isSome_iff_exists]

/-- The listed names are the canonical forms of those that stand for something. -/
theorem mem_names_run (acts : List (Act α)) (key : String) :
    key ∈ (run acts).current.names ↔
      ∃ name, Key.normalize name = key ∧ ∃ x, Stands acts name x := by
  rw [Registry.names, Index.mem_names, Option.isSome_iff_exists]
  simp only [get?_run, Stands]
  constructor
  · rintro ⟨x, hx⟩
    have ⟨_, _, _, _, ⟨name, _, hname⟩, _⟩ := hx
    exact ⟨name, hname, x, hname ▸ hx⟩
  · rintro ⟨name, rfl, hx⟩
    exact hx

end Catalog

/-! ## Entries -/

/-- Whether a text calls for the command with a name: behind a sigil, or as it is if it does not
    begin with one. -/
def Calls (text name : String) : Prop :=
  text.toList = '^' :: name.toList ∨ text.toList = '~' :: name.toList ∨
    text = name ∧ name.toList.head? ≠ some '^' ∧ name.toList.head? ≠ some '~'

instance (text name : String) : Decidable (Calls text name) :=
  inferInstanceAs (Decidable (_ ∨ _ ∨ _))

/-- **An entry has the canonical form of the name that is called for.** -/
theorem readCommand_of_calls {text name : String} (h : Calls text name) (hname : name ≠ "") :
    ∃ timing, readCommand text = .ok (timing, Key.normalize name) := by
  have hback : String.ofList name.toList = name := String.ofList_toList
  obtain ⟨c, cs, hcs⟩ : ∃ c cs, name.toList = c :: cs :=
    List.exists_cons_of_ne_nil (by simpa using hname)
  rw [hcs] at hback
  rcases h with htext | htext | ⟨rfl, hinstant, hwait⟩
  · exact ⟨.instant, by rw [readCommand, htext, hcs]; simp [hback]⟩
  · exact ⟨.waitFor, by rw [readCommand, htext, hcs]; simp [hback]⟩
  · refine ⟨.normal, ?_⟩
    simp only [hcs, List.head?_cons, ne_eq, Option.some.injEq] at hinstant hwait
    rw [readCommand, hcs]
    simp [hback, hinstant, hwait]

/-- The run of an entry with a command that was found: its tags are filled, and what fails
    there is reported. -/
def Executor.performFilled (x : Executor σ) (c : Command σ) (e : Entry) (w : World σ) : Reply σ :=
  let (e, warnings) := Tag.resolveEntry x.resolver e
  x.perform c e (warnings.foldl (fun w m => w.tell x.reporter (.warning m)) w)

/-- An entry runs with the command that is found under its name. -/
theorem Executor.dispatch_found {x : Executor σ} {e : Entry} {c : Command σ}
    (h : x.registry.lookup e.command = .ok c) (w : World σ) :
    x.dispatch e w = x.performFilled c e w := by
  rw [← Tag.command_resolveEntry x.resolver e] at h
  simp only [dispatch, h, performFilled]

theorem Executor.result_dispatch_unknown {x : Executor σ} {e : Entry} {err : CommandError}
    (h : x.registry.lookup e.command = .error err) (w : World σ) :
    (x.dispatch e w).result = .error err := by
  rw [← Tag.command_resolveEntry x.resolver e] at h
  simp only [dispatch, h]

/-- The case of a name does not count. -/
theorem Registry.lookup_congr {r : Registry α} {name name' : String}
    (h : Key.normalize name' = Key.normalize name) : r.lookup name' = r.lookup name := by
  rw [lookup, h, lookup]

/-! ## The main result -/

/-- **A snapshot settles what every name stands for.**  Whatever was done with a catalog before
    a snapshot was taken and whatever is done later: a name stands for the command that was
    registered last under a spelling of it and not removed since; other names are unknown.  The
    names that stand for a command are listed once each, in canonical form, in strictly
    ascending order.  An entry that was made from any spelling of a name runs with the command
    that the name stands for. -/
theorem snapshot_settles_names (before after : List (Catalog.Act (Command σ))) :
    ∃ r : Registry (Command σ),
      (Catalog.run (before ++ .snapshot :: after)).taken[(Catalog.run before).taken.length]? =
        some r ∧
      (∀ name c, r.lookup name = .ok c ↔ Catalog.Stands before name c) ∧
      (∀ name, (¬∃ c, Catalog.Stands before name c) →
        r.lookup name = .error (.unknownCommand (Key.normalize name))) ∧
      (∀ name, r.has name = true ↔ ∃ c, Catalog.Stands before name c) ∧
      r.names.Pairwise (· < ·) ∧
      (∀ key, key ∈ r.names ↔
        ∃ name, Key.normalize name = key ∧ ∃ c, Catalog.Stands before name c) ∧
      r.size = r.names.length ∧
      ∀ name spelling text, Key.normalize spelling = Key.normalize name → spelling ≠ "" →
        Calls text spelling → ∀ (w : World σ) arguments script, ∃ e w',
          w.newEntry text arguments script = .ok (e, w') ∧
          ∀ x : Executor σ, x.registry = r → ∀ v : World σ,
            (∀ c, Catalog.Stands before name c → x.dispatch e v = x.performFilled c e v) ∧
            ((¬∃ c, Catalog.Stands before name c) →
              (x.dispatch e v).result = .error (.unknownCommand (Key.normalize name))) := by
  have hlookup := Catalog.lookup_run before
  have hhas := Catalog.has_run before
  have hunknown : ∀ name, (¬∃ c, Catalog.Stands before name c) →
      (Catalog.run before).current.lookup name = .error (.unknownCommand (Key.normalize name)) :=
    fun name hnone => Registry.lookup_of_has_eq_false
      (Bool.eq_false_iff.2 fun h => hnone ((hhas name).1 h))
  refine ⟨(Catalog.run before).current, Catalog.taken_snapshot before after, hlookup, hunknown,
    hhas, (Catalog.distinct_run before).names_ascending, Catalog.mem_names_run before,
    (Index.length_names _).symm, ?_⟩
  intro name spelling text hspelling hne hcalls w arguments script
  obtain ⟨timing, hread⟩ := readCommand_of_calls hcalls hne
  refine ⟨_, _, by rw [World.newEntry, hread]; rfl, ?_⟩
  intro x hx v
  have hname : Key.normalize (Key.normalize spelling) = Key.normalize name :=
    (Key.normalize_normalize spelling).trans hspelling
  have hfound := Registry.lookup_congr (r := x.registry) hname
  rw [hx] at hfound
  constructor
  · intro c hc
    refine Executor.dispatch_found ?_ v
    rw [hx]
    exact hfound.trans ((hlookup name c).2 hc)
  · intro hnone
    refine Executor.result_dispatch_unknown ?_ v
    rw [hx]
    exact hfound.trans (hunknown name hnone)

/-- A command that was registered in place of another one, and removed after the snapshot. -/
theorem snapshot_settles_names_greet :
    let greet : Command Unit := Narrate.command fun _ _ => none
    let before : List (Catalog.Act (Command Unit)) :=
      [.register "greet" Wait.command, .register "Greet" greet]
    ∃ r, (Catalog.run (before ++ .snapshot :: [.unregister "greet"])).taken[0]? = some r ∧
      r.lookup "gReet" = .ok greet ∧
      r.lookup "wait" = .error (.unknownCommand "WAIT") ∧
      ∃ e w', (World.start () {} false).newEntry "~GREET" ["hello"] none = .ok (e, w') ∧
        ∀ x : Executor Unit, x.registry = r → ∀ v, x.dispatch e v = x.performFilled greet e v := by
  intro greet before
  obtain ⟨r, htaken, hlookup, hunknown, -, -, -, -, hentry⟩ :=
    snapshot_settles_names before [.unregister "greet"]
  have hgreet : Catalog.Stands before "gReet" greet :=
    ⟨[.register "greet" Wait.command], .register "Greet" greet, [], rfl,
      ⟨"Greet", rfl, by decide +kernel⟩, fun _ h => nomatch h⟩
  have hwait : ¬∃ c, Catalog.Stands before "wait" c := by
    rintro ⟨c, _, _, _, hacts, ⟨name, rfl, hname⟩, -⟩
    have hmem : Catalog.Act.register name c ∈ before := by rw [hacts]; simp
    simp only [before, List.mem_cons, List.not_mem_nil, or_false, Catalog.Act.register.injEq]
      at hmem
    rcases hmem with ⟨rfl, -⟩ | ⟨rfl, -⟩
    · revert hname; decide +kernel
    · revert hname; decide +kernel
  obtain ⟨e, w', hnew, hdispatch⟩ := hentry "gReet" "GREET" "~GREET" (by decide +kernel)
    (by decide) (by decide +kernel) (.start () {} false) ["hello"] none
  have hname : Key.normalize "wait" = "WAIT" := by decide +kernel
  exact ⟨r, htaken, (hlookup _ _).2 hgreet, hname ▸ hunknown _ hwait, e, w', hnew,
    fun x hx v => (hdispatch x hx v).1 greet hgreet⟩

end Cuelist
