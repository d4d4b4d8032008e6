/-
  What saving settings leaves in a file tree.

  Settings are written to a file beside the one that is meant, which is then moved to its place.
  Directories around it are made where there was nothing.  Each of the changes can fail, for
  what is in the tree or because the disk fails, and a failed one may be half done.

  * `FileTree.Kept`: whether what was at a place is still there, but for a directory that was
    made on a way.  `kept_makeDirectories`: making directories keeps all places.
  * `Settings.saveOn_cases`: how far saving gets, and what is put beside.
  * `Settings.save_keeps`: what saving leaves of every place, whether it succeeds or not.
  * `Settings.save_takes_side_file`: the file beside the one that is meant is lost.
-/
import Cuelist.Settings.Saved
import Cuelist.Proofs.Settings

namespace Cuelist

namespace FileTree

variable {t t' u : FileTree} {place names q : List String}

/-! ## Places that are kept -/

/-- Whether there is the same at a place as before, or nothing was there and a directory on the
    way of names from another place is there now. -/
def Kept (t t' : FileTree) (place names q : List String) : Prop :=
  t'.node? q = t.node? q ∨
    t.node? q = none ∧ t'.node? q = some .directory ∧
      ∃ n, t'.locateFrom place (names.take n) = .ok q

/-- A directory is still there. -/
theorem Kept.directory (h : Kept t t' place names q) (hq : t.node? q = some .directory) :
    t'.node? q = some .directory := by
  rcases h with hsame | ⟨hnone, -, -⟩
  · rw [hsame, hq]
  · rw [hnone] at hq
    cases hq

/-- A place is kept as well if the tree changes elsewhere, with its directories the same. -/
theorem Kept.congr (h : Kept t t' place names q) (hd : SameDirectories t' u)
    (hq : u.node? q = t'.node? q) : Kept t u place names q := by
  rcases h with hsame | ⟨hnone, hmade, n, hn⟩
  · exact .inl (hq.trans hsame)
  · exact .inr ⟨hnone, hq.trans hmade, n, hd.locateFrom hn⟩

/-- Directories that were made inside the place that a name leads to. -/
theorem Kept.cons {name : String} {inner : List String} (he : t.enter place name = .ok inner)
    (hplace : t.node? place = some .directory → t'.node? place = some .directory)
    (h : Kept t t' inner names q) : Kept t t' place (name :: names) q := by
  refine h.imp_right fun ⟨hnone, hmade, n, hn⟩ => ⟨hnone, hmade, n + 1, ?_⟩
  rw [List.take_succ_cons, locateFrom, enter_of_directory he hplace]
  exact hn

/-- A directory that was made where a name leads, and those that were made inside it. -/
theorem Kept.insert {name : String} {inner : List String} (he : t.enter place name = .ok inner)
    (hn : t.node? inner = none) (h : ∀ q, Kept (t.insert inner .directory) t' inner names q) :
    Kept t t' place (name :: names) q := by
  have hne : inner ≠ [] := ne_nil_of_noDirectory (t := t) (by simp [hn])
  have hmade := (h inner).directory (t.node?_insert_self hne .directory)
  have hother : ∀ {r}, r ≠ inner → (t.insert inner .directory).node? r = t.node? r :=
    fun hr => t.node?_insert_of_ne hr .directory
  have hplace : t.node? place = some .directory → t'.node? place = some .directory := by
    intro hd
    have hpi : place ≠ inner := by
      rintro rfl
      rw [hn] at hd
      cases hd
    exact (h place).directory ((hother hpi).trans hd)
  by_cases hq : q = inner
  · subst hq
    refine .inr ⟨hn, hmade, 1, ?_⟩
    rw [List.take_succ_cons, locateFrom, enter_of_directory he hplace]
    rfl
  · refine Kept.cons he hplace ((h q).imp ?_ ?_)
    · exact fun hsame => hsame.trans (hother hq)
    · rintro ⟨hnone, hnew⟩
      exact ⟨(hother hq).symm.trans hnone, hnew⟩

/-- **Making directories keeps all places.** -/
theorem kept_makeDirectories (t : FileTree) (place names q : List String) :
    Kept t (t.makeDirectories place names).2 place names q := by
  induction names generalizing t place q with
  | nil => exact .inl rfl
  | cons name names ih =>
    cases he : t.enter place name with
    | error e => simp only [makeDirectories, he]; exact .inl rfl
    | ok inner =>
      cases hn : t.node? inner with
      | none =>
        simp only [makeDirectories, he, hn]
        exact .insert he hn (ih (t.insert inner .directory) inner)
      | some n =>
        cases n with
        | directory =>
          simp only [makeDirectories, he, hn]
          exact (ih t inner q).cons he (ih t inner place).directory
        | file content => simp only [makeDirectories, he, hn]; exact .inl rfl

theorem kept_perform_makeDirectories (t : FileTree) (p : FilePath) (q : List String) :
    Kept t (t.perform (.makeDirectories p)).2 [] p.names q := by
  rw [perform]
  split
  next => exact kept_makeDirectories t [] p.names q
  next => exact .inl rfl

/-- Directories that were made on some of the names were made on the way of all. -/
theorem Kept.of_take {k : Nat} (h : Kept t t' place (names.take k) q) :
    Kept t t' place names q := by
  refine h.imp_right fun ⟨hnone, hmade, n, hn⟩ => ⟨hnone, hmade, min n k, ?_⟩
  rwa [List.take_take] at hn

/-- Making directories keeps all places, however far it gets. -/
theorem kept_performOn_makeDirectories (disk : Disk) (t : FileTree) (p : FilePath)
    (q : List String) : Kept t (t.performOn disk (.makeDirectories p)).2 [] p.names q := by
  unfold performOn
  cases disk.fault? (.makeDirectories p) with
  | none => exact kept_perform_makeDirectories t p q
  | some fault =>
    have hpart := kept_perform_makeDirectories t { p with names := p.names.take fault.reached } q
    simp only [FileOp.begun]
    split
    next hperform => rw [hperform] at hpart; exact hpart.of_take
    next hperform => rw [hperform] at hpart; exact hpart.of_take

/-- A file that was put somewhere when all places were kept. -/
theorem kept_of_puts {made : FileTree} {side : FilePath} {content : ByteArray}
    (hkept : ∀ q, Kept t made place names q) (h : Puts made u side content) :
    (∀ q, ¬u.Reaches side q → Kept t u place names q) ∧
      ∀ q, u.Reaches side q → u.node? q = some (.file content) := by
  obtain ⟨hdirs, qs, hside, hfile, hothers⟩ := h
  refine ⟨fun q hq => (hkept q).congr hdirs (hothers q ?_), fun q hq => ?_⟩
  · rintro rfl
    exact hq hside
  · obtain rfl : qs = q := Except.ok.inj (hside.1.symm.trans hq.1)
    exact hfile

end FileTree

/-! ## Saving settings -/

namespace Settings
open FileTree

variable {s : Settings} {disk : Disk} {path : String} {t u : FileTree}

theorem saveOn_of_error (op : FileOp) (e : FileError)
    (h : t.performAll disk (s.savePlan (FilePath.ofText path)) = (.error (op, e), u)) :
    s.saveOn disk path t = (.error (saveError path op e.message), u) := by
  simp only [saveOn, h]
  rfl

theorem saveOn_of_ok
    (h : t.performAll disk (s.savePlan (FilePath.ofText path)) = (.ok (), u)) :
    s.saveOn disk path t = (.ok (), u) := by
  simp only [saveOn, h]
  rfl

/-- How far saving gets: to the directories around the file, to a beginning of the file beside
    it if the disk fails, to all of that file, or to the end. -/
theorem saveOn_cases (s : Settings) (disk : Disk) (path : String) (t : FileTree) :
    let p := FilePath.ofText path
    let side := p.withExtension "tmp"
    let text := s.fileText.toUTF8
    let made := (t.performOn disk (.makeDirectories p.parent)).2
    (∃ detail, s.saveOn disk path t = (.error (.io detail), made)) ∨
    (∃ detail n u, s.saveOn disk path t = (.error (.io detail), u) ∧
      Puts made u side (text.extract 0 n) ∧ disk.Fails) ∨
    ∃ written, Puts made written side text ∧
      ((∃ detail, s.saveOn disk path t = (.error (.replaceFailed path detail), written) ∧
          (disk.Fails ∨ ∃ e, written.rename side p = .error e)) ∨
        ∃ moved, written.rename side p = .ok moved ∧ s.saveOn disk path t = (.ok (), moved)) := by
  intro p side text made
  have hplan : s.savePlan p = [.makeDirectories p.parent, .create side, .append side text,
    .sync side, .rename side p] := rfl
  rcases hmake : t.performOn disk (.makeDirectories p.parent) with ⟨e | _, t₁⟩ <;>
    obtain rfl : made = t₁ := congrArg Prod.snd hmake
  · exact .inl ⟨e.message, saveOn_of_error (.makeDirectories p.parent) e
      (by rw [hplan, performAll_of_error hmake])⟩
  rcases hcreate : made.performOn disk (.create side) with ⟨e | _, created⟩
  · obtain rfl : made = created := performOn_create_error hcreate
    exact .inl ⟨e.message, saveOn_of_error (.create side) e
      (by rw [hplan, performAll_of_ok hmake, performAll_of_error hcreate])⟩
  have hmade := after_eq_ok (perform_of_performOn hcreate)
  obtain ⟨written, happend, hputs⟩ | ⟨fault, u, hfault, happend, hputs⟩ :=
    performOn_append disk hmade text
  swap
  · -- The disk failed while the file beside was written.
    exact .inr (.inl ⟨fault.message, fault.reached, u,
      saveOn_of_error (.append side text) (.disk fault.message)
        (by rw [hplan, performAll_of_ok hmake, performAll_of_ok hcreate,
          performAll_of_error happend]), hputs, Disk.fails_of_fault hfault⟩)
  obtain hsync | ⟨fault, hfault, hsync⟩ :=
    performOn_whole disk written (.sync side) fun _ => rfl
  swap
  · -- The disk failed when all was written.
    rw [← text.extract_zero_size] at hputs
    exact .inr (.inl ⟨fault.message, text.size, written,
      saveOn_of_error (.sync side) (.disk fault.message)
        (by rw [hplan, performAll_of_ok hmake, performAll_of_ok hcreate, performAll_of_ok happend,
          performAll_of_error hsync]), hputs, Disk.fails_of_fault hfault⟩)
  have hall : t.performAll disk (s.savePlan p) = written.performAll disk [.rename side p] := by
    rw [hplan, performAll_of_ok hmake, performAll_of_ok hcreate, performAll_of_ok happend,
      performAll_of_ok hsync]
  refine .inr (.inr ⟨written, hputs, ?_⟩)
  obtain hrename | ⟨fault, hfault, hrename⟩ :=
    performOn_whole disk written (.rename side p) fun _ => rfl
  · rw [perform] at hrename
    cases hmove : written.rename side p with
    | error e =>
      rw [hmove] at hrename
      exact .inl ⟨e.message, saveOn_of_error (.rename side p) e
        (hall.trans (performAll_of_error hrename)), .inr ⟨e, rfl⟩⟩
    | ok moved =>
      rw [hmove] at hrename
      exact .inr ⟨moved, rfl, saveOn_of_ok (hall.trans (performAll_of_ok hrename))⟩
  · exact .inl ⟨fault.message, saveOn_of_error (.rename side p) (.disk fault.message)
      (hall.trans (performAll_of_error hrename)), .inl (Disk.fails_of_fault hfault)⟩

/-- **What saving settings leaves of every place.**  Settings are saved at a path by way of a
    file beside it, whose name has the extension `tmp`.  Whether or not this succeeds, and
    wherever the disk fails, no other place changes, except that directories on the way to the
    path may be made where there was nothing.  If it succeeds, the file has the settings, and
    there is nothing at the place beside, unless that is the same.  If it fails, the file is as
    it was, unless it is the one beside; and that is as it was or has a beginning of the
    settings, all of them if it could not be moved.  A disk that does not fail leaves the file as
    it was at all events, and the one beside too unless that could not be moved. -/
theorem save_keeps (s : Settings) (disk : Disk) (path : String) (t : FileTree) :
    let p := FilePath.ofText path
    let side := p.withExtension "tmp"
    let text := s.fileText.toUTF8
    let t' := (s.saveOn disk path t).2
    (∀ q, ¬t'.Reaches p q → ¬t'.Reaches side q → Kept t t' [] p.parent.names q) ∧
    ((s.saveOn disk path t).1 = .ok () → t'.read p = .ok text ∧
      ∀ q, t'.Reaches side q → ¬t'.Reaches p q → t'.node? q = none) ∧
    ∀ err, (s.saveOn disk path t).1 = .error err →
      (∀ q, t'.Reaches p q → ¬t'.Reaches side q → Kept t t' [] p.parent.names q) ∧
      (∀ q, t'.Reaches side q → Kept t t' [] p.parent.names q ∨
        ∃ n, t'.node? q = some (.file (text.extract 0 n))) ∧
      (∀ detail, err = .replaceFailed path detail →
        ∀ q, t'.Reaches side q → t'.node? q = some (.file text)) ∧
      (¬disk.Fails → (∀ q, t'.Reaches p q → Kept t t' [] p.parent.names q) ∧
        ((∀ detail, err ≠ .replaceFailed path detail) →
          ∀ q, Kept t t' [] p.parent.names q)) := by
  intro p side text t'
  have hmade : ∀ q, Kept t (t.performOn disk (.makeDirectories p.parent)).2 [] p.parent.names q :=
    kept_performOn_makeDirectories disk t p.parent
  obtain ⟨detail, hsave⟩ | ⟨detail, n, u, hsave, hputs, hfails⟩ | ⟨written, hputs, hrest⟩ :=
    saveOn_cases s disk path t
  · -- Nothing but directories was made.
    simp only [t', hsave]
    refine ⟨fun q _ _ => hmade q, nofun, fun err herr => ⟨fun q _ _ => hmade q,
      fun q _ => .inl (hmade q), fun _ hmoved => ?_, fun _ => ⟨fun q _ => hmade q, fun _ => hmade⟩⟩⟩
    rw [← Except.error.inj herr] at hmoved
    cases hmoved
  · -- The disk failed with a beginning of the settings beside.
    obtain ⟨hkept, hbeside⟩ := kept_of_puts hmade hputs
    simp only [t', hsave]
    refine ⟨fun q _ hq => hkept q hq, nofun, fun err herr => ⟨fun q _ hq => hkept q hq,
      fun q hq => .inr ⟨n, hbeside q hq⟩, fun _ hmoved => ?_, fun hsound => (hsound hfails).elim⟩⟩
    rw [← Except.error.inj herr] at hmoved
    cases hmoved
  obtain ⟨hkept, hbeside⟩ := kept_of_puts hmade hputs
  obtain ⟨detail, hsave, hwhy⟩ | ⟨moved, hrename, hsave⟩ := hrest
  · -- The file beside was written, and could not be moved.
    simp only [t', hsave]
    refine ⟨fun q _ hq => hkept q hq, nofun, fun err herr => ⟨fun q _ hq => hkept q hq,
      fun q hq => .inr ⟨text.size, ?_⟩, fun _ _ => hbeside, fun hsound => ⟨fun q hq => ?_,
        fun hother => (hother detail (Except.error.inj herr).symm).elim⟩⟩⟩
    · rw [ByteArray.extract_zero_size]
      exact hbeside q hq
    · obtain ⟨e, he⟩ := hwhy.resolve_left hsound
      refine hkept q fun hq' => ?_
      have hd := directory_of_rename_error he hq'.1 (hbeside q hq') hq
      rw [hbeside q hq'] at hd
      cases hd
  · -- The file beside was moved to its place.
    obtain ⟨hdirs, q, q', -, hq, hfile, hp, -, hgone, hothers⟩ := rename_spec hrename
    obtain ⟨-, _, hspelled, -⟩ := id hputs
    have hside : moved.Reaches side q := ⟨hdirs.locate hq, hspelled.2⟩
    simp only [t', hsave]
    refine ⟨fun r hr hr' => ?_, fun _ => ⟨?_, fun r hr hr' => ?_⟩, nofun⟩
    · have hne : r ≠ q := fun heq => hr' (heq ▸ hside)
      have hne' : r ≠ q' := fun heq => hr (heq ▸ hp)
      refine (hkept r fun hs => ?_).congr hdirs (hothers r hne hne')
      exact hne (Except.ok.inj (hs.1.symm.trans hq))
    · have hfind : moved.find? p = some (.file text) := find?_rename hrename hputs.find?
      simp only [FileTree.read, hfind]
    · obtain rfl : q = r := Except.ok.inj (hside.1.symm.trans hr.1)
      exact hgone fun heq => hr' (heq ▸ hp)

/-- A disk on which there is room for two bytes. -/
def fullDisk : Disk where
  fault?
    | .append _ _ => some ⟨2, "No space left on device (os error 28)"⟩
    | _ => none

/-- Notes in the directory stay when settings are saved there.  If the disk is full, so does what
    was saved before, and the file beside has what there was room for. -/
theorem save_keeps_notes :
    let notes : FileNode := .file "notes".toUTF8
    let old : FileNode := .file "old".toUTF8
    let t : FileTree := ⟨[(["notes.txt"], notes), (["cadence.json"], old)]⟩
    let s : Settings := {}
    let t' := (s.saveOn .sound "cadence.json" t).2
    let t'' := (s.saveOn fullDisk "cadence.json" t).2
    (t'.node? ["notes.txt"] = some notes ∧
      t'.read (FilePath.ofText "cadence.json") = .ok s.fileText.toUTF8 ∧
      t'.node? ["cadence.tmp"] = none) ∧
    t''.node? ["notes.txt"] = some notes ∧ t''.node? ["cadence.json"] = some old ∧
      t''.node? ["cadence.tmp"] = some (.file (s.fileText.toUTF8.extract 0 2)) := by
  intro notes old t s t' t''
  have hpath : FilePath.ofText "cadence.json" = ⟨false, ["cadence.json"], false⟩ := by decide
  have hside : (⟨false, ["cadence.json"], false⟩ : FilePath).withExtension "tmp" =
      ⟨false, ["cadence.tmp"], false⟩ := by decide
  have hp : ∀ u : FileTree, u.locate ⟨false, ["cadence.json"], false⟩ = .ok ["cadence.json"] :=
    fun _ => rfl
  have hs : ∀ u : FileTree, u.locate ⟨false, ["cadence.tmp"], false⟩ = .ok ["cadence.tmp"] :=
    fun _ => rfl
  have hapart : ∀ {u : FileTree} {p q r}, u.locate p = .ok q → q ≠ r → ¬u.Reaches p r :=
    fun hl hne hr => hne (Except.ok.inj (hl.symm.trans hr.1))
  have hthere : ∀ {u : FileTree} {names q n}, Kept t u [] names q → t.node? q = some n →
      u.node? q = some n := by
    rintro u names q n (hsame | ⟨hnone, -⟩) hn
    · rw [hsame, hn]
    · rw [hnone] at hn
      cases hn
  obtain ⟨hkept, hsaved, -⟩ := save_keeps s .sound "cadence.json" t
  obtain ⟨hkept', -, hfailed⟩ := save_keeps s fullDisk "cadence.json" t
  have hok : (s.saveOn .sound "cadence.json" t).1 = .ok () := by
    simp only [saveOn, hpath]
    rfl
  have hfull : (s.saveOn fullDisk "cadence.json" t).1 =
      .error (.io "No space left on device (os error 28)") := by
    simp only [saveOn, hpath]
    rfl
  rw [hpath, hside] at hkept hsaved hkept' hfailed
  obtain ⟨hread, hgone⟩ := hsaved hok
  obtain ⟨hold, -⟩ := hfailed _ hfull
  refine ⟨⟨?_, hpath ▸ hread, hgone _ ⟨hs _, rfl⟩ (hapart (hp _) (by decide))⟩, ?_, ?_, ?_⟩
  · exact hthere (hkept ["notes.txt"] (hapart (hp _) (by decide)) (hapart (hs _) (by decide))) rfl
  · exact hthere (hkept' ["notes.txt"] (hapart (hp _) (by decide)) (hapart (hs _) (by decide))) rfl
  · exact hthere (hold _ ⟨hp _, rfl⟩ (hapart (hs _) (by decide))) rfl
  · rw [← ByteArray.empty_append (b := s.fileText.toUTF8.extract 0 2)]
    simp only [t'', saveOn, hpath]
    rfl

/-- A file that happens to be beside the one that is meant is lost.  If there is a directory in
    the place of that one, the settings stay beside it.  If the file that is meant is the one
    beside, a full disk leaves only a beginning of it. -/
theorem save_takes_side_file :
    let mine : FileNode := .file "mine".toUTF8
    let t : FileTree := ⟨[(["cadence.tmp"], mine)]⟩
    let t' : FileTree := ⟨[(["cadence.json"], .directory)]⟩
    let s : Settings := {}
    (s.save "cadence.json" t).1 = .ok () ∧
      t.node? ["cadence.tmp"] = some mine ∧
      (s.save "cadence.json" t).2.node? ["cadence.tmp"] = none ∧
    (s.save "cadence.json" t').1 =
        .error (.replaceFailed "cadence.json" FileError.isDirectory.message) ∧
      t'.node? ["cadence.tmp"] = none ∧
      (s.save "cadence.json" t').2.node? ["cadence.tmp"] = some (.file s.fileText.toUTF8) ∧
    (s.saveOn fullDisk "cadence.tmp" t).1 =
        .error (.io "No space left on device (os error 28)") ∧
      (s.saveOn fullDisk "cadence.tmp" t).2.node? ["cadence.tmp"] =
        some (.file (s.fileText.toUTF8.extract 0 2)) := by
  intro mine t t' s
  have hpath : FilePath.ofText "cadence.json" = ⟨false, ["cadence.json"], false⟩ := by decide
  have hpath' : FilePath.ofText "cadence.tmp" = ⟨false, ["cadence.tmp"], false⟩ := by decide
  simp only [save, saveOn, hpath, hpath']
  refine ⟨rfl, rfl, rfl, rfl, rfl, ?_, rfl, ?_⟩
  · rw [← ByteArray.empty_append (b := s.fileText.toUTF8)]
    rfl
  · rw [← ByteArray.empty_append (b := s.fileText.toUTF8.extract 0 2)]
    rfl

end Settings

end Cuelist
