import InterfaceGen.Proofs.Source.Placement
import InterfaceGen.Proofs.Storage.Disk.Directories
import InterfaceGen.Proofs.Text.Bytes

/-! What is loaded from a working directory, in terms of what lies there. A walk meets the files of
the directory itself and those of the groups mixed, in the order of the entries, and the first of
them that cannot be read stops it, as does the first group that cannot be listed. The sort by groups
that follows is stable, so that the names within a group stay in their order. -/

namespace InterfaceGen

namespace ClassFile

/-- The order of sources: by the bytes of their groups, those without a group first, and within a
group by the bytes of their names. -/
def Precedes (f g : ClassFile) : Prop :=
  Text.BytesLt (Text.bytes f.group) (Text.bytes g.group) ∨
    f.group = g.group ∧ Text.BytesLt (Text.bytes f.name) (Text.bytes g.name)

theorem name_lt_of_before {f g : ClassFile} (hgroup : f.group = g.group) (h : f.Before g) :
    Text.Lt f.name g.name := by
  unfold Before top at h
  rw [hgroup] at h
  rcases h with h | ⟨-, h⟩
  · split_ifs at h
    · exact h
    · exact absurd rfl h.2
  · exact h

/-- Sorting by groups what has been found in order brings it into the order of sources. -/
theorem pairwise_precedes_sort {files : List ClassFile} (h : files.Pairwise Before) :
    (Sorting.sort (fun a b => Text.le a.group b.group) files).Pairwise Precedes := by
  have hstable := Sorting.pairwise_sort_stable (r := fun a b => Text.le a.group b.group = true)
    (fun a b => Text.isLinear_le.total a.group b.group)
    (fun a b c => Text.isLinear_le.trans a.group b.group c.group) h
  -- files of one group precede each other, so they stand as they were found: by their names
  refine hstable.imp fun {f g} ⟨hle, hbefore⟩ => ?_
  by_cases hgroup : f.group = g.group
  · have hge : Text.le g.group f.group = true := hgroup ▸ hle
    exact Or.inr ⟨hgroup, Text.lt_iff_bytesLt.mp (name_lt_of_before hgroup (hbefore hge))⟩
  · exact Or.inl (Text.lt_iff_bytesLt.mp ⟨hle, hgroup⟩)

end ClassFile

namespace Disk

variable {d : Disk} {s : Selection} {root : Path} {f : ClassFile} {t : Text}

/-- The bytes of a class file are the text `t`. -/
def HasText (d : Disk) (root : Path) (f : ClassFile) (t : Text) : Prop :=
  d.tree.file? (((d.place root).group f.group).child f.name) = some (String.ofList t).toUTF8

/-- A class file with a text that may be opened, and with a path that the system takes. -/
def Readable (d : Disk) (root : Path) (f : ClassFile) : Prop :=
  Admits (root.group f.group) f.name ∧
    d.tree.isLocked (((d.place root).group f.group).child f.name) = false ∧ ∃ t, d.HasText root f t

/-- The source that a class file is read as. -/
def ReadAs (d : Disk) (s : Selection) (root : Path) (f : ClassFile) (source : Source) : Prop :=
  ∃ t, d.HasText root f t ∧
    source = ⟨Selection.typeName s.suffix? f.name, f.group, f.path, t.lines⟩

/-- The walk comes to a directory that cannot be listed before it comes to a file that cannot be
read. Entries come by the bytes of their names, and what lies in a group comes with it. -/
def FailsToList (d : Disk) (s : Selection) (root : Path) : Prop :=
  ¬d.Opens root ∨ ∃ g, FileName.isHidden g = false ∧
    d.tree.hasDir ((d.place root).child g) = true ∧ ¬d.Opens (root.child g) ∧
    ∀ f, d.Selects s root f → Text.BytesLt (Text.bytes f.top) (Text.bytes g) → d.Readable root f

section Selected

variable (hd : d.tree.WellFormed)

include hd

theorem readText_of_selects (h : d.Selects s root f)
    (hdir : d.isDirectory (root.group f.group) = true) : d.readText f.path = .ok t ↔
      Admits (root.group f.group) f.name ∧
        d.tree.isLocked (((d.place root).group f.group).child f.name) = false ∧
        d.HasText root f t := by
  have hplace := h.place_group hd
  have hc := h.contains
  rw [← hplace] at hc
  rw [readText_eq_ok_iff, h.path_eq]
  simp only [locate_child_eq_ok_iff hdir (h.isEntry_name hd) hc, hplace, and_assoc,
    exists_and_left, exists_eq_left', HasText]

theorem readable_iff (h : d.Selects s root f) (hdir : d.isDirectory (root.group f.group) = true) :
    d.Readable root f ↔ ∃ source, d.readSource s f = .ok source := by
  have htext : d.Readable root f ↔ ∃ t, d.readText f.path = .ok t := by
    simp only [readText_of_selects hd h hdir, exists_and_left, Readable]
  rw [htext]
  unfold readSource
  cases d.readText f.path <;> simp

theorem readAs_of_readSource (h : d.Selects s root f)
    (hdir : d.isDirectory (root.group f.group) = true) {source : Source}
    (hread : d.readSource s f = .ok source) : d.ReadAs s root f source := by
  obtain ⟨t, ht, hsource⟩ := source_of_readSource hread
  obtain ⟨-, -, htext⟩ := (readText_of_selects hd h hdir).mp ht
  exact ⟨t, htext, hsource⟩

end Selected

theorem fst_exec_load :
    (exec (Source.load s root : ExceptT _ (StateM Disk) _) d).1 = d.load s root :=
  congrArg Prod.fst exec_load

/-- A source has the group of its class file. -/
theorem respects_readAs : Sorting.Respects (d.ReadAs s root)
    (fun f g => Text.le f.group g.group = true) fun a b => Text.le a.group b.group = true := by
  rintro f g a b ⟨t, -, rfl⟩ ⟨u, -, rfl⟩
  rfl

/-- Every file has been read where the sources have been loaded. -/
theorem readable_of_load (hd : d.tree.WellFormed) {sources : List Source}
    (h : d.load s root = .ok sources) : ∀ f, d.Selects s root f → d.Readable root f := by
  intro f hselects
  have hopens := opensDirectories_of_load h
  obtain ⟨read, hread, -⟩ := exists_read_of_load h
  rw [readable_iff hd hselects (hopens _ (hselects.visits hd)).1]
  exact exists_of_mapM_eq_ok hread ((mem_classFiles hd).mpr hselects)

/-- Sources are the class files in their order, each read once. -/
theorem exists_files_of_load (hd : d.tree.WellFormed) {sources : List Source}
    (h : d.load s root = .ok sources) :
    ∃ files : List ClassFile, files.Pairwise ClassFile.Precedes ∧
      (∀ f, f ∈ files ↔ d.Selects s root f) ∧ List.Forall₂ (d.ReadAs s root) files sources := by
  have hopens := opensDirectories_of_load h
  have hmem : ∀ f, f ∈ d.classFiles s root ↔ d.Selects s root f := fun f =>
    mem_classFiles hd
  obtain ⟨read, hread, rfl⟩ := exists_read_of_load h
  have hreadAs : List.Forall₂ (d.ReadAs s root) (d.classFiles s root) read :=
    ((List.forall₂_and_left _ _).mpr
      ⟨fun f hf => (hmem f).mp hf, forall₂_of_mapM_eq_ok hread⟩).imp fun f source ⟨hselects, h⟩ =>
        readAs_of_readSource hd hselects (hopens _ (hselects.visits hd)).1 h
  refine ⟨_, ClassFile.pairwise_precedes_sort (pairwise_classFiles hd), fun f => ?_,
    Sorting.forall₂_sort respects_readAs hreadAs⟩
  rw [(Sorting.sort_perm _).mem_iff, hmem]

/-- No directory is in the way where all can be listed. -/
theorem not_failsToList (h : d.OpensDirectories root) : ¬d.FailsToList s root := by
  rintro (hno | ⟨g, hg, hdir, hno, -⟩)
  · exact hno (h root (Or.inl rfl))
  · exact hno (h _ (Or.inr ⟨g, hg, hdir, rfl⟩))

section Stops

variable (hd : d.tree.WellFormed) (hroot : d.isDirectory root = true) {entry : Entry}
  (hentry : entry ∈ d.shown root)

include hd hroot

/-- If a group can be listed, the directory of its files is there. -/
theorem isDirectory_group (hentry : entry ∈ d.shown root)
    (hopens : entry.isFile = false → d.Opens (root.child entry.name))
    (hf : f ∈ d.classFilesAt s root entry) : d.isDirectory (root.group f.group) = true := by
  have hne := (isEntry_of_mem_entriesAt hd (mem_shown.mp hentry).1).ne_nil
  unfold classFilesAt at hf
  split_ifs at hf with hfile
  · obtain ⟨-, -, -, -, rfl⟩ := mem_inGroup.mp hf
    exact hroot
  · obtain ⟨-, -, -, -, rfl⟩ := mem_inGroup.mp hf
    rw [Path.group, if_neg hne]
    exact (hopens (by simpa using hfile)).1

include hentry

/-- At an entry the walk stops because this is a group that cannot be listed, or because one of the
files to which it leads cannot be read. -/
theorem readEntry_eq_error {e : SourceError} (h : d.readEntry s root entry = .error e) :
    (∃ fault, entry.isFile = false ∧ d.entries (root.child entry.name) = .error fault ∧
      e = .unlisted root (root.child entry.name) fault) ∨
    (entry.isFile = false → d.Opens (root.child entry.name)) ∧
      ∃ f fault, d.Selects s root f ∧ f.top = entry.name ∧ ¬d.Readable root f ∧
        d.readText f.path = .error fault ∧ e = .unreadable f.path fault := by
  have hn := isEntry_of_mem_entriesAt hd (mem_shown.mp hentry).1
  by_cases hopens : entry.isFile = false → d.Opens (root.child entry.name)
  · rw [readEntry_of_opens hopens] at h
    obtain ⟨before, f, after, hfiles, -, hread⟩ := exists_of_mapM_eq_error h
    have hf : f ∈ d.classFilesAt s root entry := by simp [hfiles]
    have hselects := (selects_iff hd).mpr ⟨entry, hentry, hf⟩
    obtain ⟨fault, htext, rfl⟩ := error_of_readSource hread
    refine Or.inr ⟨hopens, f, fault, hselects, top_of_mem_classFilesAt hn hf, ?_, htext, rfl⟩
    rw [readable_iff hd hselects (isDirectory_group hd hroot hentry hopens hf), hread]
    simp
  · push Not at hopens
    obtain ⟨hfile, hno⟩ := hopens
    obtain ⟨fault, hentries, herror⟩ := readEntry_of_not_opens (s := s) entry hfile hno
    rw [herror] at h
    exact Or.inl ⟨fault, hfile, hentries, (Except.error.inj h).symm⟩

/-- Where the walk goes on, the group can be listed and all files can be read. -/
theorem readEntry_eq_ok {sources : List Source} (h : d.readEntry s root entry = .ok sources) :
    (entry.isFile = false → d.Opens (root.child entry.name)) ∧
      ∀ f ∈ d.classFilesAt s root entry, d.Readable root f := by
  have hopens : entry.isFile = false → d.Opens (root.child entry.name) := by
    intro hfile
    by_contra hno
    obtain ⟨fault, -, herror⟩ := readEntry_of_not_opens (s := s) entry hfile hno
    rw [herror] at h
    cases h
  refine ⟨hopens, fun f hf => ?_⟩
  rw [readEntry_of_opens hopens] at h
  rw [readable_iff hd ((selects_iff hd).mpr ⟨entry, hentry, hf⟩)
    (isDirectory_group hd hroot hentry hopens hf)]
  exact exists_of_mapM_eq_ok h hf

omit hentry

/-- A walk that fails does so at its first step or at an entry, after all those before it. -/
theorem load_eq_error {e : SourceError} (h : d.load s root = .error e) :
    (∃ fault, d.entries root = .error fault ∧ e = .unlisted root root fault) ∨
    d.Opens root ∧ ∃ entry ∈ d.shown root, d.readEntry s root entry = .error e ∧
      ∀ b ∈ d.shown root, Text.Lt b.name entry.name → ∃ l, d.readEntry s root b = .ok l := by
  by_cases hopens : d.Opens root
  · have hordered := pairwise_shown hd root
    rw [load_of_opens hopens] at h
    cases hread : (d.shown root).mapM (d.readEntry s root) with
    | ok found =>
      rw [hread] at h
      cases h
    | error e' =>
      rw [hread] at h
      obtain rfl := Except.error.inj h
      obtain ⟨before, entry, after, hshown, hbefore, herror⟩ := exists_of_mapM_eq_error hread
      rw [hshown] at hordered ⊢
      refine Or.inr ⟨hopens, entry, by simp, herror, fun b hb hlt => ?_⟩
      rcases List.mem_append.mp hb with hb | hb
      · exact hbefore b hb
      · -- the entry and those after it do not come before it
        refine absurd hlt ?_
        rcases List.mem_cons.mp hb with rfl | hb
        · exact fun hlt => hlt.2 rfl
        · have hgt := List.rel_of_pairwise_cons (List.pairwise_append.mp hordered).2.1 hb
          exact Text.not_lt_of_lt hgt
  · obtain ⟨fault, hentries, herror⟩ := load_of_not_opens (s := s) hroot hopens
    rw [herror] at h
    exact Or.inl ⟨fault, hentries, (Except.error.inj h).symm⟩

/-- Why the sources of a directory are not loaded: a directory of the walk cannot be listed, or a
file that is selected cannot be read. -/
theorem error_of_load {e : SourceError} (h : d.load s root = .error e) :
    (∃ dir fault, d.Visits root dir ∧ d.entries dir = .error fault ∧ e = .unlisted root dir fault) ∨
    ∃ f fault, d.Selects s root f ∧ ¬d.Readable root f ∧ d.readText f.path = .error fault ∧
      e = .unreadable f.path fault := by
  rcases load_eq_error hd hroot h with ⟨fault, hentries, rfl⟩ | ⟨-, entry, hentry, herror, -⟩
  · exact Or.inl ⟨root, fault, Or.inl rfl, hentries, rfl⟩
  · rcases readEntry_eq_error hd hroot hentry herror with
      ⟨fault, hfile, hentries, rfl⟩ | ⟨-, f, fault, hselects, -, hno, htext, rfl⟩
    · exact Or.inl ⟨_, fault, visits_of_mem_shown hentry hfile, hentries, rfl⟩
    · exact Or.inr ⟨f, fault, hselects, hno, htext, rfl⟩

/-- If the walk stops at a directory, all files before it can be read. -/
theorem failsToList_of_load {r dir : Path} {fault : Fault}
    (h : d.load s root = .error (.unlisted r dir fault)) : d.FailsToList s root := by
  rcases load_eq_error hd hroot h with ⟨fault, hentries, -⟩ | ⟨-, entry, hentry, herror, hbefore⟩
  · exact Or.inl (not_opens_of_entries hentries)
  · rcases readEntry_eq_error hd hroot hentry herror with
      ⟨fault, hfile, hentries, -⟩ | ⟨-, f, fault, -, -, -, -, herror'⟩
    · obtain ⟨hdir, hshown⟩ := mem_shown.mp hentry
      rw [mem_entriesAt, hfile] at hdir
      refine Or.inr ⟨entry.name, hshown, hdir, not_opens_of_entries hentries, fun f hf hlt => ?_⟩
      obtain ⟨b, hb, hfb⟩ := (selects_iff hd).mp hf
      have htop := top_of_mem_classFilesAt (isEntry_of_mem_entriesAt hd (mem_shown.mp hb).1) hfb
      rw [htop, ← Text.lt_iff_bytesLt] at hlt
      obtain ⟨l, hread⟩ := hbefore b hb hlt
      exact (readEntry_eq_ok hd hroot hb hread).2 f hfb
    · cases herror'

/-- A group that cannot be listed keeps the walk from stopping at a file, if all files before that
group can be read. -/
theorem not_unreadable_of_failsToList (hfails : d.FailsToList s root) {path : Path} {fault : Fault} :
    d.load s root ≠ .error (.unreadable path fault) := by
  intro h
  rcases load_eq_error hd hroot h with ⟨_, -, herror⟩ | ⟨hopens, entry, hentry, herror, hbefore⟩
  · cases herror
  rcases readEntry_eq_error hd hroot hentry herror with
    ⟨_, -, -, herror'⟩ | ⟨hlisted, f, -, hselects, htop, hunreadable, -, -⟩
  · cases herror'
  obtain ⟨g, hg, hdir, hno, hreadable⟩ := hfails.resolve_left (not_not.mpr hopens)
  have hgroup : (⟨g, false⟩ : Entry) ∈ d.shown root := mem_shown.mpr ⟨mem_entriesAt.mpr hdir, hg⟩
  -- the walk stops at an entry; the group is not this one, nor does it come after it or before it
  by_cases hname : entry.name = g
  · have hfile : entry.isFile = false := by
      by_contra hfile
      have hplace := (mem_shown.mp hentry).1
      rw [mem_entriesAt, if_pos (by simpa using hfile), hname, hd.disjoint _ hdir] at hplace
      cases hplace
    exact hno (hname ▸ hlisted hfile)
  · rcases Text.isLinear_le.total entry.name g with hle | hle
    · have hlt : Text.Lt f.top g := htop ▸ ⟨hle, hname⟩
      exact hunreadable (hreadable f hselects (Text.lt_iff_bytesLt.mp hlt))
    · obtain ⟨l, hread⟩ := hbefore _ hgroup ⟨hle, Ne.symm hname⟩
      exact hno ((readEntry_eq_ok hd hroot hgroup hread).1 rfl)

/-- The walk stops at a directory exactly if it comes to one that cannot be listed. -/
theorem load_eq_unlisted_iff :
    (∃ r dir fault, d.load s root = .error (.unlisted r dir fault)) ↔ d.FailsToList s root := by
  refine ⟨fun ⟨_, _, _, h⟩ => failsToList_of_load hd hroot h, fun hfails => ?_⟩
  cases h : d.load s root with
  | ok sources => exact absurd hfails (not_failsToList (opensDirectories_of_load h))
  | error e =>
    rcases error_of_load hd hroot h with ⟨dir, fault, -, -, rfl⟩ | ⟨f, fault, -, -, -, rfl⟩
    · exact ⟨root, dir, fault, rfl⟩
    · exact absurd h (not_unreadable_of_failsToList hd hroot hfails)

/-- It stops at a file exactly if it comes to no such directory and one of the files cannot be read. -/
theorem load_eq_unreadable_iff : (∃ path fault, d.load s root = .error (.unreadable path fault)) ↔
    ¬d.FailsToList s root ∧ ∃ f, d.Selects s root f ∧ ¬d.Readable root f := by
  constructor
  · rintro ⟨path, fault, h⟩
    have hlisted : ¬d.FailsToList s root := fun hfails =>
      not_unreadable_of_failsToList hd hroot hfails h
    rcases error_of_load hd hroot h with ⟨_, _, -, -, herror⟩ | ⟨f, -, hselects, hno, -, -⟩
    · cases herror
    · exact ⟨hlisted, f, hselects, hno⟩
  · rintro ⟨hlisted, f, hselects, hno⟩
    cases h : d.load s root with
    | ok sources => exact absurd (readable_of_load hd h f hselects) hno
    | error e =>
      rcases error_of_load hd hroot h with ⟨dir, fault, -, -, rfl⟩ | ⟨g, fault, -, -, -, rfl⟩
      · exact absurd (failsToList_of_load hd hroot h) hlisted
      · exact ⟨g.path, fault, rfl⟩

end Stops

theorem load_eq_missingRoot_iff (hd : d.tree.WellFormed) {r : Path} :
    d.load s root = .error (.missingRoot r) ↔ r = root ∧ d.isDirectory root = false := by
  constructor
  · intro h
    cases hroot : d.isDirectory root with
    | false =>
      rw [load, hroot] at h
      obtain rfl := SourceError.missingRoot.inj (Except.error.inj h)
      exact ⟨rfl, rfl⟩
    | true =>
      rcases error_of_load hd hroot h with ⟨_, _, -, -, herror⟩ | ⟨_, _, -, -, -, herror⟩ <;>
        cases herror
  · rintro ⟨rfl, hroot⟩
    rw [load, hroot]
    rfl

end Disk

/-- Loading is complete, exact and ordered. It fails for want of a working directory exactly if that
is no directory. Otherwise it stops at the first directory that cannot be listed or the first
selected class file that cannot be read, whichever comes first, and tells which it is and why. If
there is neither, the sources are the selected class files, each read once, by their groups and
within a group by their names. -/
theorem Source.load_exact {d : Disk} {s : Selection} {root : Path} (hd : d.tree.WellFormed) :
    let outcome := (exec (Source.load s root : ExceptT _ (StateM Disk) _) d).1
    (∀ r, outcome = .error (.missingRoot r) ↔ r = root ∧ d.isDirectory root = false) ∧
    (d.isDirectory root = true →
      ((∃ r dir fault, outcome = .error (.unlisted r dir fault)) ↔ d.FailsToList s root) ∧
      ((∃ path fault, outcome = .error (.unreadable path fault)) ↔
        ¬d.FailsToList s root ∧ ∃ f, d.Selects s root f ∧ ¬d.Readable root f) ∧
      (∀ r dir fault, outcome = .error (.unlisted r dir fault) →
        r = root ∧ d.Visits root dir ∧ d.entries dir = .error fault) ∧
      (∀ path fault, outcome = .error (.unreadable path fault) →
        ∃ f, d.Selects s root f ∧ f.path = path ∧ d.readText path = .error fault) ∧
      (d.OpensDirectories root → (∀ f, d.Selects s root f → d.Readable root f) →
        ∃ files sources, outcome = .ok sources ∧ files.Pairwise ClassFile.Precedes ∧
          (∀ f, f ∈ files ↔ d.Selects s root f) ∧
          List.Forall₂ (d.ReadAs s root) files sources)) := by
  intro outcome
  rw [show outcome = d.load s root from Disk.fst_exec_load]
  refine ⟨fun r => Disk.load_eq_missingRoot_iff hd, fun hroot => ?_⟩
  have herror := fun e => Disk.error_of_load (s := s) (e := e) hd hroot
  refine ⟨Disk.load_eq_unlisted_iff hd hroot, Disk.load_eq_unreadable_iff hd hroot,
    fun r dir fault h => ?_, fun path fault h => ?_, fun hopens hreadable => ?_⟩
  · rcases herror _ h with ⟨dir, fault, hvisits, hentries, h⟩ | ⟨_, _, -, -, -, h⟩
    · obtain ⟨rfl, rfl, rfl⟩ := SourceError.unlisted.inj h
      exact ⟨rfl, hvisits, hentries⟩
    · cases h
  · rcases herror _ h with ⟨_, _, -, -, h⟩ | ⟨f, fault, hselects, -, htext, h⟩
    · cases h
    · obtain ⟨rfl, rfl⟩ := SourceError.unreadable.inj h
      exact ⟨f, hselects, rfl, htext⟩
  · cases h : d.load s root with
    | ok sources =>
      obtain ⟨files, hfiles⟩ := Disk.exists_files_of_load hd h
      exact ⟨files, sources, rfl, hfiles⟩
    | error e =>
      rcases herror _ h with ⟨dir, fault, hvisits, hentries, -⟩ | ⟨f, fault, hselects, hno, -, -⟩
      · exact absurd (hopens dir hvisits) (Disk.not_opens_of_entries hentries)
      · exact absurd (hreadable f hselects) hno

/-- Class files in the working directory and in two groups, with others around them that are locked:
a hidden group, a hidden file, a file of another kind, and a directory that lies too deep. -/
def Disk.office : Disk :=
  let work : Place := ⟨true, ["work".toList]⟩
  let file (p : Place) (text : String) : Place × ByteArray := (p, text.toUTF8)
  { tree :=
      { dirs := [.root, work, work.child "people".toList,
          (work.child "people".toList).child "old".toList, work.child "billing".toList,
          work.child ".git".toList]
        files :=
          [file (work.child "Zone.cs".toList) "", file (work.child "notes.md".toList) "",
            file (work.child "Item.CS".toList) "public int Count;\n",
            file (work.child ".draft.cs".toList) "",
            file ((work.child "people".toList).child "User.cs".toList) "public int Age;",
            file ((work.child "people".toList).child "Group.cs".toList) "",
            file (((work.child "people".toList).child "old".toList).child "Deep.cs".toList) "",
            file ((work.child "billing".toList).child "Invoice.cs".toList) "",
            file ((work.child ".git".toList).child "Config.cs".toList) ""]
        locked :=
          [work.child ".git".toList, work.child ".draft.cs".toList, work.child "notes.md".toList,
            (work.child "people".toList).child "old".toList] }
    current := work }

/-- The walk meets the files of the working directory and those of the groups mixed, as their names
come; the sources are in order all the same. -/
theorem Source.office_load_exact :
    let root : Path := ⟨".".toList⟩
    let s : Selection := { extensions := [".cs".toList] }
    Disk.office.tree.WellFormed ∧ Disk.office.isDirectory root = true ∧
    Disk.office.OpensDirectories root ∧
    (∀ f, Disk.office.Selects s root f → Disk.office.Readable root f) ∧
    ∃ (files : List ClassFile) (sources : List Source),
      (exec (Source.load s root : ExceptT _ (StateM Disk) _) Disk.office).1 = .ok sources ∧
      files.Pairwise ClassFile.Precedes ∧ files.length = 5 ∧
      sources.map (fun source => (source.group, source.name)) =
        [([], "Item".toList), ([], "Zone".toList), ("billing".toList, "Invoice".toList),
          ("people".toList, "Group".toList), ("people".toList, "User".toList)] := by
  intro root s
  have hd : Disk.office.tree.WellFormed := by decide +kernel
  have hroot : Disk.office.isDirectory root = true := by decide +kernel
  have hopens : Disk.office.OpensDirectories root := by decide +kernel
  obtain ⟨-, hunreadable, -, -, hsucceeds⟩ := (load_exact (s := s) hd).2 hroot
  set outcome := (exec (Source.load s root : ExceptT _ (StateM Disk) _) Disk.office).1
  have hnames : outcome.toOption.map (·.map fun source => (source.group, source.name)) =
      some [([], "Item".toList), ([], "Zone".toList), ("billing".toList, "Invoice".toList),
        ("people".toList, "Group".toList), ("people".toList, "User".toList)] := by
    decide +kernel
  have hreadable : ∀ f, Disk.office.Selects s root f → Disk.office.Readable root f := by
    intro f hselects
    by_contra hno
    obtain ⟨path, fault, h⟩ :=
      hunreadable.mpr ⟨Disk.not_failsToList hopens, f, hselects, hno⟩
    rw [h] at hnames
    cases hnames
  obtain ⟨files, sources, h, hordered, -, hread⟩ := hsucceeds hopens hreadable
  rw [h] at hnames
  have hsources := Option.some.inj hnames
  have hlength : sources.length = 5 := by simpa using congrArg List.length hsources
  exact ⟨hd, hroot, hopens, hreadable, files, sources, h, hordered,
    hread.length_eq.trans hlength, hsources⟩

/-- One class file in the directory in which the program runs. -/
def Disk.lone : Disk where
  tree := { dirs := [.root], files := [(⟨true, ["user.cs".toList]⟩, "".toUTF8)] }

theorem Disk.selects_lone {root : Path} (h : lone.place root = .root) :
    lone.Selects {} root ⟨[], "user.cs".toList, root.child "user.cs".toList⟩ := by
  refine ⟨rfl, rfl, rfl, rfl, ?_⟩
  rw [h]
  rfl

theorem Disk.hasText_lone {root : Path} {f : ClassFile} (h : lone.Selects {} root f) :
    lone.HasText root f [] := by
  have hfile := h.isFile
  unfold HasText
  simp only [lone, Tree.file?, List.lookup_cons, List.lookup_nil] at hfile ⊢
  split at hfile
  · rfl
  · cases hfile

/-- The one class file of a disk, which has a text, cannot be read if its path is too long where that
of the working directory is not, or if it is locked. And where there is no class file, a group may
still have too long a path to be listed. -/
theorem Source.lone_load_fails :
    let slashes (n : Nat) : Path := ⟨'.' :: List.replicate n '/'⟩
    let shut : Disk :=
      { Disk.lone with tree := { Disk.lone.tree with locked := [⟨true, ["user.cs".toList]⟩] } }
    let hollow : Disk := { tree := { dirs := [.root, ⟨true, ["crm".toList]⟩], files := [] } }
    (Disk.lone.tree.WellFormed ∧ Disk.lone.OpensDirectories (slashes 4089) ∧
      (∀ f, Disk.lone.Selects {} (slashes 4089) f → ∃ t, Disk.lone.HasText (slashes 4089) f t) ∧
      ∃ path fault, (exec (Source.load {} (slashes 4089) : ExceptT _ (StateM Disk) _) Disk.lone).1 =
        .error (.unreadable path fault)) ∧
    (shut.tree.WellFormed ∧ (exec (Source.load {} (slashes 0) : ExceptT _ (StateM Disk) _) shut).1 =
      .error (.unreadable ⟨"./user.cs".toList⟩ (.system .denied))) ∧
    (hollow.tree.WellFormed ∧ hollow.isDirectory (slashes 4092) = true ∧
      ∃ root dir fault,
        (exec (Source.load {} (slashes 4092) : ExceptT _ (StateM Disk) _) hollow).1 =
          .error (.unlisted root dir fault)) := by
  intro slashes shut hollow
  refine ⟨?_, ⟨by decide +kernel, by decide +kernel⟩, ?_⟩
  · have hd : Disk.lone.tree.WellFormed := by decide +kernel
    have hopens : Disk.lone.OpensDirectories (slashes 4089) := by decide +kernel
    have hselects := Disk.selects_lone
      (show Disk.lone.place (slashes 4089) = .root by decide +kernel)
    have hlong : ¬Disk.Admits (slashes 4089) "user.cs".toList := fun h =>
      absurd h.path_fits (by decide +kernel)
    refine ⟨hd, hopens, fun f h => ⟨[], Disk.hasText_lone h⟩, ?_⟩
    rw [Disk.fst_exec_load]
    exact (Disk.load_eq_unreadable_iff hd (hopens _ (Or.inl rfl)).1).mpr
      ⟨Disk.not_failsToList hopens, _, hselects, fun h => hlong h.1⟩
  · have hd : hollow.tree.WellFormed := by decide +kernel
    have hroot : hollow.isDirectory (slashes 4092) = true := by decide +kernel
    refine ⟨hd, hroot, ?_⟩
    rw [Disk.fst_exec_load]
    refine (Disk.load_eq_unlisted_iff hd hroot).mpr (Or.inr ⟨"crm".toList, by decide,
      by decide +kernel, by decide +kernel, fun f h => ?_⟩)
    cases h.isFile

end InterfaceGen
