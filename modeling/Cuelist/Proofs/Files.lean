/-
  What a change leaves at the end of a path.

  A path is followed through directories alone, so trees with the same directories lead it
  to the same place (`SameDirectories.locate`).  `create_spec`, `append_spec` and `rename_spec`
  say what a file that is made, written or moved does to every place: it is at the end of its
  path, and all else is as it was.  A file that was written is found (`find?_write`), and so is
  one that was written aside and moved in (`find?_replace`).
-/
import Cuelist.Files.Tree
import Mathlib.Data.List.Basic

namespace Cuelist

/-- Whether a disk breaks off any change. -/
def Disk.Fails (disk : Disk) : Prop :=
  ∃ op, disk.fault? op ≠ none

theorem Disk.fails_of_fault {disk : Disk} {op : FileOp} {fault : DiskFault}
    (h : disk.fault? op = some fault) : disk.Fails :=
  ⟨op, by simp [h]⟩

namespace FileTree

variable {t t' : FileTree} {place q : List String} {p : FilePath} {content : ByteArray}

/-! ## Places -/

theorem lookup_erase_self (t : FileTree) (place : List String) :
    (t.erase place).nodes.lookup place = none := by
  rw [List.lookup_eq_none_iff]
  intro node hnode
  simpa [erase, bne_comm] using (List.mem_filter.1 hnode).2

theorem lookup_erase_of_ne (t : FileTree) (h : q ≠ place) :
    (t.erase place).nodes.lookup q = t.nodes.lookup q := by
  have hnodes : ∀ nodes : List (List String × FileNode),
      (nodes.filter fun node => node.1 != place).lookup q = nodes.lookup q := by
    intro nodes
    induction nodes with
    | nil => rfl
    | cons node nodes ih =>
      obtain ⟨r, n⟩ := node
      by_cases hr : r = place
      · have hq : (q == r) = false := by simpa [hr] using h
        rw [List.filter_cons_of_neg (by simp [hr]), ih, List.lookup_cons, hq]
      · rw [List.filter_cons_of_pos (by simp [hr]), List.lookup_cons, List.lookup_cons, ih]
  exact hnodes t.nodes

theorem node?_of_ne_nil (t : FileTree) (h : place ≠ []) : t.node? place = t.nodes.lookup place := by
  rw [node?, if_neg (by simpa using h)]

theorem ne_nil_of_noDirectory (h : t.node? place ≠ some .directory) : place ≠ [] := by
  rintro rfl
  exact h rfl

theorem node?_erase_of_ne (t : FileTree) (h : q ≠ place) :
    (t.erase place).node? q = t.node? q := by
  rw [node?, node?, lookup_erase_of_ne t h]

theorem node?_insert_self (t : FileTree) (h : place ≠ []) (n : FileNode) :
    (t.insert place n).node? place = some n := by
  rw [node?_of_ne_nil _ h, insert, List.lookup_cons_self]

theorem node?_insert_of_ne (t : FileTree) (h : q ≠ place) (n : FileNode) :
    (t.insert place n).node? q = t.node? q := by
  have hq : (q == place) = false := by simpa using h
  rw [node?, node?, insert, List.lookup_cons, hq, lookup_erase_of_ne t h]

/-! ## Directories -/

/-- Whether two trees have the same directories. -/
def SameDirectories (t t' : FileTree) : Prop :=
  ∀ place, t'.node? place = some .directory ↔ t.node? place = some .directory

theorem SameDirectories.trans (h : SameDirectories t t') (h' : SameDirectories t' u) :
    SameDirectories t u :=
  fun place => (h' place).trans (h place)

theorem sameDirectories_erase (h : t.node? place ≠ some .directory) :
    SameDirectories t (t.erase place) := by
  intro q
  by_cases hq : q = place
  · subst hq
    rw [node?_of_ne_nil _ (ne_nil_of_noDirectory h), lookup_erase_self]
    exact iff_of_false nofun h
  · rw [node?_erase_of_ne t hq]

theorem sameDirectories_insert (h : t.node? place ≠ some .directory) (content : ByteArray) :
    SameDirectories t (t.insert place (.file content)) := by
  intro q
  by_cases hq : q = place
  · subst hq
    rw [node?_insert_self t (ne_nil_of_noDirectory h)]
    exact iff_of_false nofun h
  · rw [node?_insert_of_ne t hq]

/-- A name is entered in a tree that has the directory. -/
theorem enter_of_directory {name : String} (he : t.enter place name = .ok q)
    (h : t.node? place = some .directory → t'.node? place = some .directory) :
    t'.enter place name = .ok q := by
  unfold enter at he ⊢
  split at he
  next hplace => rwa [h hplace]
  next => cases he
  next => cases he

theorem SameDirectories.enter (h : SameDirectories t t') {name : String}
    (he : t.enter place name = .ok q) : t'.enter place name = .ok q :=
  enter_of_directory he (h place).2

theorem SameDirectories.locateFrom (h : SameDirectories t t') {names : List String}
    (hl : t.locateFrom place names = .ok q) : t'.locateFrom place names = .ok q := by
  induction names generalizing place with
  | nil => exact hl
  | cons name names ih =>
    rw [FileTree.locateFrom] at hl ⊢
    cases he : t.enter place name with
    | error e => rw [he] at hl; cases hl
    | ok place' =>
      rw [he] at hl
      rw [h.enter he]
      exact ih hl

/-- **A path leads to the same place** in a tree with the same directories. -/
theorem SameDirectories.locate (h : SameDirectories t t') (hl : t.locate p = .ok place) :
    t'.locate p = .ok place := by
  unfold FileTree.locate at hl ⊢
  cases hn : checkNames p with
  | error e => rw [hn] at hl; cases hl
  | ok u =>
    rw [hn] at hl
    exact h.locateFrom hl

/-! ## Changes -/

theorem find?_of_locate (hl : t.locate p = .ok place) (hn : t.node? place = some (.file content))
    (hp : p.isDirectory = false) : t.find? p = some (.file content) := by
  simp [find?, hl, hn, hp]

/-- A file that is found is at the place to which its path leads. -/
theorem locate_of_find? (h : t.find? p = some (.file content)) :
    ∃ place, t.locate p = .ok place ∧ t.node? place = some (.file content) := by
  unfold find? at h
  split at h
  next => cases h
  next place hl =>
    refine ⟨place, hl, ?_⟩
    split at h
    next hn =>
      split at h
      next => cases h
      next => rwa [hn]
    next => exact h

/-- Whether a path leads to a place where a file can be. -/
def Reaches (t : FileTree) (p : FilePath) (q : List String) : Prop :=
  t.locate p = .ok q ∧ p.isDirectory = false

/-- Whether one tree is another one with a file at the end of a path. -/
def Puts (t t' : FileTree) (p : FilePath) (content : ByteArray) : Prop :=
  SameDirectories t t' ∧ ∃ q, t'.Reaches p q ∧ t'.node? q = some (.file content) ∧
    ∀ r, r ≠ q → t'.node? r = t.node? r

theorem puts_insert (hl : t.locate p = .ok q) (hn : t.node? q ≠ some .directory)
    (hp : p.isDirectory = false) (content : ByteArray) :
    Puts t (t.insert q (.file content)) p content := by
  have hdirs := sameDirectories_insert hn content
  exact ⟨hdirs, q, ⟨hdirs.locate hl, hp⟩, t.node?_insert_self (ne_nil_of_noDirectory hn) _,
    fun r hr => t.node?_insert_of_ne hr _⟩

theorem Puts.trans {content' : ByteArray} (h : Puts t t' p content) (h' : Puts t' u p content') :
    Puts t u p content' := by
  obtain ⟨hdirs, q, hq, -, hothers⟩ := h
  obtain ⟨hdirs', q', hq', hn, hothers'⟩ := h'
  obtain rfl : q = q' := Except.ok.inj ((hdirs'.locate hq.1).symm.trans hq'.1)
  exact ⟨hdirs.trans hdirs', q, hq', hn, fun r hr => (hothers' r hr).trans (hothers r hr)⟩

/-- A file that was put somewhere is found. -/
theorem Puts.find? (h : Puts t t' p content) : t'.find? p = some (.file content) := by
  obtain ⟨-, q, hq, hn, -⟩ := h
  exact find?_of_locate hq.1 hn hq.2

/-- **A file that was made** is where its path leads, and empty; all else is as it was. -/
theorem create_spec (h : t.create p = .ok t') : Puts t t' p .empty := by
  unfold create at h
  cases hl : t.locate p with
  | error e => rw [hl] at h; cases h
  | ok q =>
    simp only [hl, bind, Except.bind] at h
    split at h
    next => cases h
    next hn =>
      split at h
      next => cases h
      next hp =>
        obtain rfl := Except.ok.inj h
        exact puts_insert hl (fun hd => hn hd) (by simpa using hp) .empty

/-- Bytes can be added to each file, and then stand at its end. -/
theorem append_spec (hq : t.Reaches p q) (hn : t.node? q = some (.file content))
    (bytes : ByteArray) : ∃ t', t.append p bytes = .ok t' ∧ Puts t t' p (content ++ bytes) := by
  refine ⟨_, ?_, puts_insert hq.1 (by simp [hn]) hq.2 _⟩
  simp [append, hq.1, hq.2, hn, bind, Except.bind]

/-- A file that was made can be written, and then has what was written. -/
theorem write_spec {made : FileTree} (h : t.create p = .ok made) (bytes : ByteArray) :
    ∃ t', made.append p bytes = .ok t' ∧ Puts t t' p bytes := by
  obtain ⟨-, q, hq, hn, -⟩ := create_spec h
  obtain ⟨t', happend, hputs⟩ := append_spec hq hn bytes
  rw [ByteArray.empty_append] at hputs
  exact ⟨t', happend, (create_spec h).trans hputs⟩

/-- **A file that was moved** is where the other path leads, and no longer where it was; all
    else is as it was. -/
theorem rename_spec {source target : FilePath} (h : t.rename source target = .ok t') :
    SameDirectories t t' ∧ ∃ q q' content, t.locate source = .ok q ∧
      t.node? q = some (.file content) ∧ t'.Reaches target q' ∧
        t'.node? q' = some (.file content) ∧ (q ≠ q' → t'.node? q = none) ∧
          ∀ r, r ≠ q → r ≠ q' → t'.node? r = t.node? r := by
  unfold rename at h
  cases hl : t.locate source with
  | error e => rw [hl] at h; cases h
  | ok q =>
    simp only [hl, bind, Except.bind] at h
    split at h
    next content hn =>
      split at h
      next => cases h
      next hp =>
        cases hl' : t.locate target with
        | error e => rw [hl'] at h; cases h
        | ok q' =>
          simp only [hl'] at h
          split at h
          next => cases h
          next hn' =>
            obtain rfl := Except.ok.inj h
            have hfile : t.node? q ≠ some .directory := by simp [hn]
            have herase := sameDirectories_erase hfile
            have hfree : (t.erase q).node? q' ≠ some .directory :=
              fun hd => hn' ((herase q').1 hd)
            have hdirs := herase.trans (sameDirectories_insert hfree content)
            refine ⟨hdirs, q, q', content, rfl, hn, ⟨hdirs.locate hl', by simpa using hp⟩,
              node?_insert_self _ (ne_nil_of_noDirectory hfree) _, fun hne => ?_,
              fun r hr hr' => ?_⟩
            · rw [node?_insert_of_ne _ hne, node?_of_ne_nil _ (ne_nil_of_noDirectory hfile),
                lookup_erase_self]
            · rw [node?_insert_of_ne _ hr', node?_erase_of_ne t hr]
    next => cases h
    next => cases h

/-- A file can be moved to any place but that of a directory. -/
theorem directory_of_rename_error {source target : FilePath} {e : FileError}
    (h : t.rename source target = .error e) (hl : t.locate source = .ok place)
    (hn : t.node? place = some (.file content)) (hq : t.Reaches target q) :
    t.node? q = some .directory := by
  unfold rename at h
  simp only [hl, bind, Except.bind, hn, hq.1, hq.2, Bool.false_eq_true, if_false] at h
  split at h
  next hd => exact hd
  next => cases h

/-- **A file that was written is found** with its content. -/
theorem find?_write (h : t.write p content = .ok t') : t'.find? p = some (.file content) := by
  unfold write at h
  cases hmade : t.create p with
  | error e => rw [hmade] at h; cases h
  | ok made =>
    obtain ⟨u, happend, hputs⟩ := write_spec hmade content
    simp only [hmade, bind, Except.bind, happend] at h
    obtain rfl := Except.ok.inj h
    exact hputs.find?

/-- **A file that was moved is found** at the end of the other path. -/
theorem find?_rename {source target : FilePath} (h : t.rename source target = .ok t')
    (hs : t.find? source = some (.file content)) : t'.find? target = some (.file content) := by
  obtain ⟨place, hl, hn⟩ := locate_of_find? hs
  obtain ⟨-, q, q', content', hq, hfile, hq', hn', -⟩ := rename_spec h
  obtain rfl : place = q := Except.ok.inj (hl.symm.trans hq)
  obtain rfl : content = content' := by simpa [hn] using hfile
  exact find?_of_locate hq'.1 hn' hq'.2

/-! ## Changes on a disk that may fail -/

variable {disk : Disk} {op : FileOp} {ops : List FileOp}

/-- A change that is made all at once, or broken off with nothing done. -/
theorem performOn_whole (disk : Disk) (t : FileTree) (op : FileOp)
    (h : ∀ n, op.begun n = none) :
    t.performOn disk op = t.perform op ∨
      ∃ fault, disk.fault? op = some fault ∧
        t.performOn disk op = (.error (.disk fault.message), t) := by
  unfold performOn
  cases disk.fault? op with
  | none => exact .inl rfl
  | some fault => exact .inr ⟨fault, rfl, by simp only [h]⟩

/-- A file that could not be made has changed nothing. -/
theorem performOn_create_error {e : FileError}
    (h : t.performOn disk (.create p) = (.error e, t')) : t = t' := by
  obtain hsame | ⟨fault, -, hbroken⟩ := performOn_whole disk t (.create p) fun _ => rfl
  · rw [hsame, perform] at h
    cases hcreate : t.create p with
    | ok made => rw [hcreate] at h; cases h
    | error e => rw [hcreate] at h; exact congrArg Prod.snd h
  · exact congrArg Prod.snd (hbroken.symm.trans h)

/-- Bytes are added to a file that was made, all of them or the first ones. -/
theorem performOn_append {made : FileTree} (disk : Disk) (h : t.create p = .ok made)
    (bytes : ByteArray) :
    (∃ u, made.performOn disk (.append p bytes) = (.ok (), u) ∧ Puts t u p bytes) ∨
      ∃ fault u, disk.fault? (.append p bytes) = some fault ∧
        made.performOn disk (.append p bytes) = (.error (.disk fault.message), u) ∧
          Puts t u p (bytes.extract 0 fault.reached) := by
  unfold performOn
  cases disk.fault? (.append p bytes) with
  | none =>
    obtain ⟨u, happend, hputs⟩ := write_spec h bytes
    exact .inl ⟨u, by simp only [perform, happend, after], hputs⟩
  | some fault =>
    obtain ⟨u, happend, hputs⟩ := write_spec h (bytes.extract 0 fault.reached)
    exact .inr ⟨fault, u, rfl, by simp only [FileOp.begun, perform, happend, after], hputs⟩

/-! ## Several changes -/

theorem performAll_of_ok (h : t.performOn disk op = (.ok (), t')) :
    t.performAll disk (op :: ops) = t'.performAll disk ops := by
  rw [performAll, h]

theorem performAll_of_error {e : FileError} (h : t.performOn disk op = (.error e, t')) :
    t.performAll disk (op :: ops) = (.error (op, e), t') := by
  rw [performAll, h]

/-- A change that was made was not broken off. -/
theorem perform_of_performOn (h : t.performOn disk op = (.ok (), t')) :
    t.perform op = (.ok (), t') := by
  unfold performOn at h
  split at h
  next => exact h
  next =>
    split at h
    next => cases h
    next => split at h <;> cases h

/-- If all changes were made, the first was, and then the others. -/
theorem performAll_cons (h : t.performAll disk (op :: ops) = (.ok (), t')) :
    ∃ between, t.perform op = (.ok (), between) ∧
      between.performAll disk ops = (.ok (), t') := by
  rw [performAll] at h
  split at h
  next between hop => exact ⟨between, perform_of_performOn hop, h⟩
  next => cases h

theorem after_eq_ok {r : Except FileError FileTree} (h : t.after r = (.ok (), t')) :
    r = .ok t' := by
  cases r with
  | ok t₁ => exact congrArg Except.ok (Prod.mk.inj h).2
  | error e => cases h

/-- **A file that was written aside and moved in** is at the end of its path. -/
theorem find?_replace {around side target : FilePath}
    (h : t.performAll disk [.makeDirectories around, .create side, .append side content,
      .sync side, .rename side target] = (.ok (), t')) :
    t'.find? target = some (.file content) := by
  obtain ⟨t₁, -, h⟩ := performAll_cons h
  obtain ⟨t₂, hcreate, h⟩ := performAll_cons h
  obtain ⟨t₃, happend, h⟩ := performAll_cons h
  obtain ⟨t₄, hsync, h⟩ := performAll_cons h
  obtain ⟨t₅, hrename, h⟩ := performAll_cons h
  obtain rfl := (Prod.mk.inj h).2
  obtain rfl : t₃ = t₄ := (Prod.mk.inj hsync).2
  obtain ⟨u, hu, hputs⟩ := write_spec (after_eq_ok hcreate) content
  obtain rfl : u = t₃ := Except.ok.inj (hu.symm.trans (after_eq_ok happend))
  exact find?_rename (after_eq_ok hrename) hputs.find?

end FileTree

end Cuelist
