import InterfaceGen.Proofs.Conversion.Execution
import InterfaceGen.Proofs.Sorting
import InterfaceGen.Proofs.Storage.Disk.Reading

/-! Sources that are read from a disk. Which they are is decided by the files at the places that the
selection takes, whatever else lies on the disk. Reading them succeeds if every directory on the way
can be listed and every one of the files can be read. -/

namespace InterfaceGen

/-- A place at which a source is looked for: an accepted name that is not hidden, in the directory
at `w` or in a directory directly below it that is not hidden. -/
def Selection.Takes (s : Selection) (w q : Place) : Prop :=
  ∃ n, s.accepts n = true ∧ FileName.isHidden n = false ∧
    (q = w.child n ∨ ∃ g, FileName.isHidden g = false ∧ q = (w.child g).child n)

section Runs

variable {ε σ α β : Type} {s : σ}

theorem exec_mapM {f : α → ExceptT ε (StateM σ) β} {g : α → Except ε β}
    (h : ∀ a, exec (f a) s = (g a, s)) (l : List α) : exec (l.mapM f) s = (l.mapM g, s) := by
  induction l with
  | nil => rfl
  | cons a l ih =>
    rw [List.mapM_cons, List.mapM_cons, exec_bind, h]
    cases g a with
    | error e => rfl
    | ok b =>
      simp only
      rw [exec_bind, ih]
      cases l.mapM g <;> rfl

theorem mapM_congr {f g : α → Except ε β} {l : List α} (h : ∀ a ∈ l, f a = g a) :
    l.mapM f = l.mapM g := by
  induction l with
  | nil => rfl
  | cons a l ih =>
    rw [List.mapM_cons, List.mapM_cons, h a List.mem_cons_self,
      ih fun b hb => h b (List.mem_cons_of_mem a hb)]

/-- Where the run over a list succeeds, it has done so at every element. -/
theorem forall₂_of_mapM_eq_ok {f : α → Except ε β} {l : List α} {l' : List β}
    (h : l.mapM f = .ok l') : List.Forall₂ (fun a b => f a = .ok b) l l' := by
  induction l generalizing l' with
  | nil =>
    obtain rfl := Except.ok.inj h
    exact .nil
  | cons a l ih =>
    rw [List.mapM_cons] at h
    cases ha : f a with
    | error e =>
      rw [ha] at h
      cases h
    | ok b =>
      cases hl : l.mapM f with
      | error e =>
        rw [ha, hl] at h
        cases h
      | ok bs =>
        rw [ha, hl] at h
        obtain rfl := Except.ok.inj h
        exact .cons ha (ih hl)

theorem exists_of_mem_forall₂ {R : α → β → Prop} {l : List α} {l' : List β}
    (h : List.Forall₂ R l l') {a : α} (ha : a ∈ l) : ∃ b ∈ l', R a b := by
  induction h with
  | nil => cases ha
  | cons hb _ ih =>
    rcases List.mem_cons.mp ha with rfl | ha
    · exact ⟨_, List.mem_cons_self, hb⟩
    · obtain ⟨b, hmem, hab⟩ := ih ha
      exact ⟨b, List.mem_cons_of_mem _ hmem, hab⟩

theorem exists_of_mapM_eq_ok {f : α → Except ε β} {l : List α} {l' : List β}
    (h : l.mapM f = .ok l') {a : α} (ha : a ∈ l) : ∃ b, f a = .ok b := by
  obtain ⟨b, -, hb⟩ := exists_of_mem_forall₂ (forall₂_of_mapM_eq_ok h) ha
  exact ⟨b, hb⟩

/-- Where it fails, it has done so at one of them, and has succeeded at those before. -/
theorem exists_of_mapM_eq_error {f : α → Except ε β} {l : List α} {e : ε}
    (h : l.mapM f = .error e) : ∃ l₁ a l₂, l = l₁ ++ a :: l₂ ∧
      (∀ b ∈ l₁, ∃ c, f b = .ok c) ∧ f a = .error e := by
  induction l with
  | nil => cases h
  | cons a l ih =>
    rw [List.mapM_cons] at h
    cases ha : f a with
    | error e' =>
      rw [ha] at h
      obtain rfl := Except.error.inj h
      exact ⟨[], a, l, rfl, by simp, ha⟩
    | ok b =>
      cases hl : l.mapM f with
      | error e' =>
        rw [ha, hl] at h
        obtain rfl := Except.error.inj h
        obtain ⟨l₁, a', l₂, rfl, hbefore, ha'⟩ := ih hl
        exact ⟨a :: l₁, a', l₂, rfl, List.forall_mem_cons.mpr ⟨⟨b, ha⟩, hbefore⟩, ha'⟩
      | ok bs =>
        rw [ha, hl] at h
        cases h

/-- To run over lists one after the other is to run over all that is in them. -/
theorem mapM_flatten (f : α → Except ε β) (lists : List (List α)) :
    lists.flatten.mapM f = (lists.mapM fun l : List α => l.mapM f).map List.flatten := by
  induction lists with
  | nil => rfl
  | cons l lists ih =>
    rw [List.flatten_cons, List.mapM_append, List.mapM_cons, ih]
    cases l.mapM f with
    | error e => rfl
    | ok bs => cases lists.mapM fun l : List α => l.mapM f <;> rfl

end Runs

/-- The path to a group; what has no group lies in the working directory itself. -/
def Path.group (root : Path) (g : Text) : Path := if g = [] then root else root.child g

/-- The place of a group. -/
def Place.group (w : Place) (g : Text) : Place := if g = [] then w else w.child g

namespace ClassFile

/-- The name of the entry of the working directory to which a class file belongs. -/
def top (f : ClassFile) : Text := if f.group = [] then f.name else f.group

/-- The order in which class files are found. -/
def Before (f g : ClassFile) : Prop :=
  Text.Lt f.top g.top ∨ f.top = g.top ∧ Text.Lt f.name g.name

theorem not_before_of_before {f g : ClassFile} (h : f.Before g) : ¬g.Before f := by
  rcases h with h | ⟨heq, h⟩
  · rintro (h' | ⟨heq, -⟩)
    · exact Text.not_lt_of_lt h h'
    · exact h.2 heq.symm
  · rintro (h' | ⟨-, h'⟩)
    · exact h'.2 heq.symm
    · exact Text.not_lt_of_lt h h'

end ClassFile

namespace Disk

variable {d e : Disk} {s : Selection} {root dir : Path} {f : ClassFile}

/-- The entries in the place of a directory that are not hidden, in the order of their names. -/
def shown (d : Disk) (dir : Path) : List Entry :=
  Sorting.sort (fun a b => Text.le a.name b.name)
    ((d.entriesAt (d.place dir)).filter (!FileName.isHidden ·.name))

/-- The class files to which an entry of the working directory leads. -/
def classFilesAt (d : Disk) (s : Selection) (root : Path) (entry : Entry) : List ClassFile :=
  if entry.isFile then ClassFile.inGroup s [] root [entry]
  else ClassFile.inGroup s entry.name (root.child entry.name) (d.shown (root.child entry.name))

def classFiles (d : Disk) (s : Selection) (root : Path) : List ClassFile :=
  ((d.shown root).map (d.classFilesAt s root)).flatten

/-- A class file that is to be loaded: it lies in the working directory or in a directory directly
below it, neither has a name that begins with a dot, and its extension is wanted. -/
structure Selects (d : Disk) (s : Selection) (root : Path) (f : ClassFile) : Prop where
  accepts : s.accepts f.name = true
  name_shown : FileName.isHidden f.name = false
  group_shown : FileName.isHidden f.group = false
  path_eq : f.path = (root.group f.group).child f.name
  isFile : (d.tree.file? (((d.place root).group f.group).child f.name)).isSome = true

/-- A directory that has to be listed: the working directory, or one directly below it that is not
hidden. -/
def Visits (d : Disk) (root dir : Path) : Prop :=
  dir = root ∨ ∃ g, FileName.isHidden g = false ∧
    d.tree.hasDir ((d.place root).child g) = true ∧ dir = root.child g

/-- Every directory that has to be listed can be. -/
def OpensDirectories (d : Disk) (root : Path) : Prop := ∀ dir, d.Visits root dir → d.Opens dir

theorem opensDirectories_iff : d.OpensDirectories root ↔ d.Opens root ∧
    ∀ q ∈ d.tree.dirs, ∀ g ∈ q.names.getLast?, FileName.isHidden g = false →
      q = (d.place root).child g → d.Opens (root.child g) := by
  constructor
  · intro h
    refine ⟨h root (Or.inl rfl), ?_⟩
    rintro q hq g - hg rfl
    exact h _ (Or.inr ⟨g, hg, Tree.hasDir_iff_mem.mpr hq, rfl⟩)
  · rintro ⟨hroot, hgroups⟩ dir (rfl | ⟨g, hg, hdir, rfl⟩)
    · exact hroot
    · exact hgroups _ (Tree.hasDir_iff_mem.mp hdir) g (by simp) hg rfl

instance (d : Disk) (root : Path) : Decidable (d.OpensDirectories root) :=
  decidable_of_iff _ opensDirectories_iff.symm

section Walk

/-- The entries of a directory, as a walk through the working directory meets them. -/
def visible (d : Disk) (root dir : Path) : Except SourceError (List Entry) :=
  match d.entries dir with
  | .ok entries =>
    .ok (Sorting.sort (fun a b => Text.le a.name b.name)
      (entries.filter (!FileName.isHidden ·.name)))
  | .error fault => .error (.unlisted root dir fault)

def readSource (d : Disk) (s : Selection) (f : ClassFile) : Except SourceError Source :=
  match d.readText f.path with
  | .ok text => .ok ⟨Selection.typeName s.suffix? f.name, f.group, f.path, text.lines⟩
  | .error fault => .error (.unreadable f.path fault)

/-- The sources to which an entry of the working directory leads. -/
def readEntry (d : Disk) (s : Selection) (root : Path) (entry : Entry) :
    Except SourceError (List Source) :=
  if entry.isFile then (ClassFile.inGroup s [] root [entry]).mapM (d.readSource s)
  else do
    let entries ← d.visible root (root.child entry.name)
    (ClassFile.inGroup s entry.name (root.child entry.name) entries).mapM (d.readSource s)

/-- The sources of a working directory. -/
def load (d : Disk) (s : Selection) (root : Path) : Except SourceError (List Source) :=
  if d.isDirectory root then do
    let found ← (← d.visible root root).mapM (d.readEntry s root)
    return Sorting.sort (fun a b => Text.le a.group b.group) found.flatten
  else throw (.missingRoot root)

theorem exec_visible :
    exec (ClassFile.visible root dir : ExceptT _ (StateM Disk) _) d = (d.visible root dir, d) := by
  unfold ClassFile.visible visible
  have hrun : (SourceTree.entries dir : StateM Disk _).run d = (d.entries dir, d) := rfl
  rw [exec_ask hrun]
  cases d.entries dir <;> rfl

theorem exec_read (f : ClassFile) :
    exec (ClassFile.read s f : ExceptT _ (StateM Disk) _) d = (d.readSource s f, d) := by
  unfold ClassFile.read readSource
  have hrun : (SourceTree.readText f.path : StateM Disk _).run d = (d.readText f.path, d) := rfl
  rw [exec_ask hrun]
  cases d.readText f.path <;> rfl

theorem exec_readEntry (entry : Entry) :
    exec (ClassFile.readEntry s root entry : ExceptT _ (StateM Disk) _) d =
      (d.readEntry s root entry, d) := by
  unfold ClassFile.readEntry ClassFile.ofEntry readEntry
  split_ifs
  · exact exec_mapM exec_read _
  · rw [exec_bind, exec_bind, exec_visible]
    cases d.visible root (root.child entry.name) with
    | error fault => rfl
    | ok entries => exact exec_mapM exec_read _

/-- Reading the sources leaves the disk as it is. -/
theorem exec_load :
    exec (Source.load s root : ExceptT _ (StateM Disk) _) d = (d.load s root, d) := by
  unfold Source.load load
  have hrun : (SourceTree.isDirectory root : StateM Disk _).run d = (d.isDirectory root, d) := rfl
  rw [exec_ask hrun]
  split_ifs
  · rw [exec_bind, exec_visible]
    cases d.visible root root with
    | error fault => rfl
    | ok entries =>
      simp only
      rw [exec_bind, exec_mapM exec_readEntry]
      change _ = (entries.mapM (d.readEntry s root) >>= _, d)
      cases entries.mapM (d.readEntry s root) <;> rfl
  · rfl

theorem source_of_readSource {source : Source} (h : d.readSource s f = .ok source) :
    ∃ t, d.readText f.path = .ok t ∧
      source = ⟨Selection.typeName s.suffix? f.name, f.group, f.path, t.lines⟩ := by
  unfold readSource at h
  split at h
  next t ht => exact ⟨t, ht, (Except.ok.inj h).symm⟩
  next => cases h

theorem error_of_readSource {e : SourceError} (h : d.readSource s f = .error e) :
    ∃ fault, d.readText f.path = .error fault ∧ e = .unreadable f.path fault := by
  unfold readSource at h
  split at h
  next => cases h
  next fault hfault => exact ⟨fault, hfault, (Except.error.inj h).symm⟩

theorem visible_of_opens (h : d.Opens dir) : d.visible root dir = .ok (d.shown dir) := by
  rw [visible, entries_eq_ok_iff.mpr ⟨h, rfl⟩]
  rfl

theorem visible_of_not_opens (root : Path) (h : ¬d.Opens dir) : ∃ fault, d.entries dir = .error fault ∧
    d.visible root dir = .error (.unlisted root dir fault) := by
  unfold visible
  cases hentries : d.entries dir with
  | error fault => exact ⟨fault, rfl, rfl⟩
  | ok entries => exact absurd (entries_eq_ok_iff.mp hentries).1 h

theorem readEntry_of_opens {entry : Entry}
    (h : entry.isFile = false → d.Opens (root.child entry.name)) :
    d.readEntry s root entry = (d.classFilesAt s root entry).mapM (d.readSource s) := by
  unfold readEntry classFilesAt
  cases hfile : entry.isFile with
  | true => rfl
  | false =>
    rw [visible_of_opens (h hfile)]
    rfl

theorem readEntry_of_not_opens (entry : Entry) (hfile : entry.isFile = false)
    (h : ¬d.Opens (root.child entry.name)) :
    ∃ fault, d.entries (root.child entry.name) = .error fault ∧
      d.readEntry s root entry = .error (.unlisted root (root.child entry.name) fault) := by
  obtain ⟨fault, hentries, hvisible⟩ := visible_of_not_opens root h
  refine ⟨fault, hentries, ?_⟩
  rw [readEntry, hfile, hvisible]
  rfl

theorem load_of_opens (h : d.Opens root) : d.load s root =
    ((d.shown root).mapM (d.readEntry s root)).map fun found =>
      Sorting.sort (fun a b => Text.le a.group b.group) found.flatten := by
  rw [load, if_pos h.1, visible_of_opens h]
  change (d.shown root).mapM (d.readEntry s root) >>= _ = _
  cases (d.shown root).mapM (d.readEntry s root) <;> rfl

theorem load_of_not_opens (hroot : d.isDirectory root = true) (h : ¬d.Opens root) :
    ∃ fault, d.entries root = .error fault ∧
      d.load s root = .error (.unlisted root root fault) := by
  obtain ⟨fault, hentries, hvisible⟩ := visible_of_not_opens root h
  refine ⟨fault, hentries, ?_⟩
  rw [load, if_pos hroot, hvisible]
  rfl

end Walk

theorem mem_shown {entry : Entry} : entry ∈ d.shown dir ↔
    entry ∈ d.entriesAt (d.place dir) ∧ FileName.isHidden entry.name = false := by
  rw [shown, (Sorting.sort_perm _).mem_iff, List.mem_filter, Bool.not_eq_true']

theorem mem_inGroup {group : Text} {dir : Path} {l : List Entry} {f : ClassFile} :
    f ∈ ClassFile.inGroup s group dir l ↔ ∃ entry ∈ l, entry.isFile = true ∧
      s.accepts entry.name = true ∧ f = ⟨group, entry.name, dir.child entry.name⟩ := by
  simp only [ClassFile.inGroup, List.mem_map, List.mem_filter, Bool.and_eq_true, and_assoc]
  simp only [eq_comm (b := f)]

theorem visits_of_mem_shown {entry : Entry} (h : entry ∈ d.shown root)
    (hfile : entry.isFile = false) : d.Visits root (root.child entry.name) := by
  obtain ⟨hentry, hshown⟩ := mem_shown.mp h
  rw [mem_entriesAt, hfile] at hentry
  exact Or.inr ⟨_, hshown, hentry, rfl⟩

/-- Where all directories can be listed, the class files are read in the order in which they are
found. -/
theorem load_of_opensDirectories (h : d.OpensDirectories root) : d.load s root =
    ((d.classFiles s root).mapM (d.readSource s)).map
      (Sorting.sort fun a b => Text.le a.group b.group) := by
  have hentries : ∀ entry ∈ d.shown root,
      d.readEntry s root entry = (d.classFilesAt s root entry).mapM (d.readSource s) :=
    fun entry hentry => readEntry_of_opens fun hfile => h _ (visits_of_mem_shown hentry hfile)
  rw [load_of_opens (h root (Or.inl rfl)), mapM_congr hentries, classFiles, mapM_flatten,
    List.mapM_map]
  change _ = Except.map _ (Except.map _
    ((d.shown root).mapM fun entry => (d.classFilesAt s root entry).mapM (d.readSource s)))
  cases (d.shown root).mapM fun entry => (d.classFilesAt s root entry).mapM (d.readSource s) <;> rfl

theorem isDirectory_of_load {sources : List Source} (h : d.load s root = .ok sources) :
    d.isDirectory root = true := by
  by_contra hno
  rw [load, if_neg hno] at h
  cases h

/-- What has been loaded has been found by listing all directories. -/
theorem opensDirectories_of_load {sources : List Source} (h : d.load s root = .ok sources) :
    d.OpensDirectories root := by
  have hroot : d.Opens root := by
    by_contra hno
    obtain ⟨fault, -, hfail⟩ := load_of_not_opens (s := s) (isDirectory_of_load h) hno
    rw [hfail] at h
    cases h
  rintro dir (rfl | ⟨g, hg, hdir, rfl⟩)
  · exact hroot
  · have hentry : (⟨g, false⟩ : Entry) ∈ d.shown root := mem_shown.mpr ⟨mem_entriesAt.mpr hdir, hg⟩
    by_contra hno
    obtain ⟨fault, -, hfail⟩ := readEntry_of_not_opens (s := s) ⟨g, false⟩ rfl hno
    rw [load_of_opens hroot] at h
    cases hread : (d.shown root).mapM (d.readEntry s root) with
    | error e =>
      rw [hread] at h
      cases h
    | ok found =>
      obtain ⟨sources, hok⟩ := exists_of_mapM_eq_ok hread hentry
      rw [hfail] at hok
      cases hok

/-- The sources are what has been read from the class files, sorted by groups. -/
theorem exists_read_of_load {sources : List Source} (h : d.load s root = .ok sources) :
    ∃ read, (d.classFiles s root).mapM (d.readSource s) = .ok read ∧
      sources = Sorting.sort (fun a b => Text.le a.group b.group) read := by
  rw [load_of_opensDirectories (opensDirectories_of_load h)] at h
  cases hread : (d.classFiles s root).mapM (d.readSource s) with
  | error e =>
    rw [hread] at h
    cases h
  | ok read =>
    rw [hread] at h
    exact ⟨read, rfl, (Except.ok.inj h).symm⟩

/-- Every class file is read as one source. -/
theorem length_of_load {sources : List Source} (h : d.load s root = .ok sources) :
    sources.length = (d.classFiles s root).length := by
  obtain ⟨read, hread, rfl⟩ := exists_read_of_load h
  rw [(Sorting.sort_perm _).length_eq, (forall₂_of_mapM_eq_ok hread).length_eq]

section Order

variable (hd : d.tree.WellFormed)

include hd

theorem pairwise_shown (dir : Path) :
    (d.shown dir).Pairwise fun a b => Text.Lt a.name b.name := by
  apply Text.pairwise_lt_sort
  exact (nodup_names_entriesAt hd _).sublist (List.filter_sublist.map _)

omit hd in
theorem top_of_mem_classFilesAt {entry : Entry} (hn : Path.IsEntry entry.name) {f : ClassFile}
    (h : f ∈ d.classFilesAt s root entry) : f.top = entry.name := by
  unfold classFilesAt at h
  split_ifs at h
  · obtain ⟨entry', hsingle, -, -, rfl⟩ := mem_inGroup.mp h
    rw [List.mem_singleton.mp hsingle]
    rfl
  · obtain ⟨entry', -, -, -, rfl⟩ := mem_inGroup.mp h
    exact if_neg hn.ne_nil

theorem pairwise_classFilesAt {entry : Entry} (hn : Path.IsEntry entry.name) :
    (d.classFilesAt s root entry).Pairwise ClassFile.Before := by
  have htop : ∀ f ∈ d.classFilesAt s root entry, ∀ g ∈ d.classFilesAt s root entry, f.top = g.top :=
    fun f hf g hg => (top_of_mem_classFilesAt hn hf).trans (top_of_mem_classFilesAt hn hg).symm
  have hnames : (d.classFilesAt s root entry).Pairwise fun f g => Text.Lt f.name g.name := by
    unfold classFilesAt ClassFile.inGroup
    split_ifs
    · cases h : entry.isFile && s.accepts entry.name <;> simp [h]
    · rw [List.pairwise_map]
      exact (pairwise_shown hd _).sublist List.filter_sublist
  exact hnames.imp_of_mem fun hf hg h => Or.inr ⟨htop _ hf _ hg, h⟩

/-- Class files are found in order, each once. -/
theorem pairwise_classFiles : (d.classFiles s root).Pairwise ClassFile.Before := by
  unfold classFiles
  rw [List.pairwise_flatten, List.pairwise_map]
  have hentry : ∀ entry ∈ d.shown root, Path.IsEntry entry.name := fun entry h =>
    isEntry_of_mem_entriesAt hd (mem_shown.mp h).1
  constructor
  · intro l hl
    obtain ⟨entry, h, rfl⟩ := List.mem_map.mp hl
    exact pairwise_classFilesAt hd (hentry entry h)
  · refine (pairwise_shown hd root).imp_of_mem fun ha hb hlt f hf g hg => Or.inl ?_
    rwa [top_of_mem_classFilesAt (hentry _ ha) hf, top_of_mem_classFilesAt (hentry _ hb) hg]

theorem nodup_classFiles : (d.classFiles s root).Nodup := by
  refine (pairwise_classFiles hd).imp fun {f g} hlt => ?_
  rintro rfl
  exact ClassFile.not_before_of_before hlt hlt

end Order

namespace Selects

variable (h : d.Selects s root f) (hd : d.tree.WellFormed)

include h

theorem contains : d.tree.contains (((d.place root).group f.group).child f.name) = true :=
  Tree.contains_of_isSome_file? h.isFile

include hd

theorem isEntry_name : Path.IsEntry f.name := hd.entries _ h.contains _ (by simp)

theorem isEntry_group (hgroup : f.group ≠ []) : Path.IsEntry f.group :=
  hd.entries _ h.contains _ (by simp [Place.group, hgroup])

/-- The directory of a class file has to be listed. -/
theorem visits : d.Visits root (root.group f.group) := by
  unfold Path.group
  split_ifs with hgroup
  · exact Or.inl rfl
  · have habove := hd.above _ h.contains (by simp)
    rw [Place.above_child, Place.group, if_neg hgroup] at habove
    exact Or.inr ⟨f.group, h.group_shown, habove, rfl⟩

theorem place_group : d.place (root.group f.group) = (d.place root).group f.group := by
  unfold Path.group Place.group
  split_ifs with hgroup
  · rfl
  · exact place_child (h.isEntry_group hd hgroup)

theorem place_path : d.place f.path = ((d.place root).group f.group).child f.name := by
  rw [h.path_eq, place_child (h.isEntry_name hd), h.place_group hd]

theorem file?_path : (d.tree.file? (d.place f.path)).isSome = true := by
  rw [h.place_path hd]
  exact h.isFile

/-- A class file lies where the selection takes one. -/
theorem takes : s.Takes (d.place root) (d.place f.path) := by
  refine ⟨f.name, h.accepts, h.name_shown, ?_⟩
  rw [h.place_path hd]
  unfold Place.group
  split_ifs
  · exact Or.inl rfl
  · exact Or.inr ⟨f.group, h.group_shown, rfl⟩

/-- A class file of one disk is one of another that holds the same at its place. -/
theorem congr (hcurrent : d.current = e.current)
    (hsame : d.tree.file? (d.place f.path) = e.tree.file? (d.place f.path)) :
    e.Selects s root f := by
  refine ⟨h.accepts, h.name_shown, h.group_shown, h.path_eq, ?_⟩
  rw [h.place_path hd] at hsame
  rw [← place_congr hcurrent, ← hsame]
  exact h.isFile

end Selects

section Selected

variable (hd : d.tree.WellFormed)

include hd

theorem selects_of_mem_classFiles (h : f ∈ d.classFiles s root) : d.Selects s root f := by
  unfold classFiles at h
  obtain ⟨l, hl, hf⟩ := List.mem_flatten.mp h
  obtain ⟨⟨g, isFile⟩, hentry, rfl⟩ := List.mem_map.mp hl
  obtain ⟨hentry, hg⟩ := mem_shown.mp hentry
  have hgname := isEntry_of_mem_entriesAt hd hentry
  rw [mem_entriesAt] at hentry
  cases isFile with
  | true =>
    obtain ⟨entry, hsingle, -, haccepts, rfl⟩ := mem_inGroup.mp hf
    obtain rfl := List.mem_singleton.mp hsingle
    exact ⟨haccepts, hg, rfl, rfl, hentry⟩
  | false =>
    obtain ⟨⟨n, isFile⟩, hinner, rfl, haccepts, rfl⟩ := mem_inGroup.mp hf
    obtain ⟨hinner, hn⟩ := mem_shown.mp hinner
    rw [mem_entriesAt, place_child hgname] at hinner
    refine ⟨haccepts, hn, hg, ?_, ?_⟩
    · rw [Path.group, if_neg hgname.ne_nil]
    · rw [Place.group, if_neg hgname.ne_nil]
      exact hinner

theorem mem_classFiles_of_selects (h : d.Selects s root f) : f ∈ d.classFiles s root := by
  obtain ⟨group, n, path⟩ := f
  obtain rfl : path = (root.group group).child n := h.path_eq
  refine List.mem_flatten.mpr ?_
  by_cases hgroup : group = []
  · subst hgroup
    have hentry : (⟨n, true⟩ : Entry) ∈ d.shown root :=
      mem_shown.mpr ⟨mem_entriesAt.mpr h.isFile, h.name_shown⟩
    exact ⟨_, List.mem_map_of_mem hentry,
      mem_inGroup.mpr ⟨_, List.mem_singleton_self _, rfl, h.accepts, rfl⟩⟩
  · have hg := h.isEntry_group hd hgroup
    have hfile := h.isFile
    have habove := hd.above _ h.contains (by simp)
    rw [Place.above_child] at habove
    simp only [Place.group, Path.group, if_neg hgroup] at hfile habove ⊢
    have hentry : (⟨group, false⟩ : Entry) ∈ d.shown root :=
      mem_shown.mpr ⟨mem_entriesAt.mpr habove, h.group_shown⟩
    have hinner : (⟨n, true⟩ : Entry) ∈ d.shown (root.child group) := by
      refine mem_shown.mpr ⟨mem_entriesAt.mpr ?_, h.name_shown⟩
      rw [place_child hg]
      exact hfile
    exact ⟨_, List.mem_map_of_mem hentry, mem_inGroup.mpr ⟨_, hinner, rfl, h.accepts, rfl⟩⟩

/-- What the walk finds are the files that are selected. -/
theorem mem_classFiles : f ∈ d.classFiles s root ↔ d.Selects s root f :=
  ⟨selects_of_mem_classFiles hd, mem_classFiles_of_selects hd⟩

/-- It finds them at the entries of the working directory. -/
theorem selects_iff : d.Selects s root f ↔
    ∃ entry ∈ d.shown root, f ∈ d.classFilesAt s root entry := by
  simp [← mem_classFiles hd, classFiles]

/-- No class file is locked where all have been read. -/
theorem isLocked_of_load {sources : List Source} (h : d.load s root = .ok sources)
    (hf : d.Selects s root f) : d.tree.isLocked (d.place f.path) = false := by
  obtain ⟨read, hread, -⟩ := exists_read_of_load h
  obtain ⟨source, hsource⟩ := exists_of_mapM_eq_ok hread ((mem_classFiles hd).mpr hf)
  obtain ⟨t, htext, -⟩ := source_of_readSource hsource
  obtain ⟨place, hlocate, hlocked, -⟩ := readText_eq_ok_iff.mp htext
  rwa [← place_of_locate hlocate]

end Selected

section Congruence

variable (hd : d.tree.WellFormed) (he : e.tree.WellFormed) (hcurrent : d.current = e.current)

include hcurrent in
/-- All directories can be listed on a disk of which every one that is not there on another, too,
can be found, if no lock is in the way. -/
theorem OpensDirectories.congr (hopens : d.OpensDirectories root) (he : e.tree.WellFormed)
    (heroot : e.isDirectory root = true)
    (hlocked : ∀ dir, e.Visits root dir → e.tree.isLocked (e.place dir) = false)
    (hdirs : ∀ g, FileName.isHidden g = false →
      e.tree.hasDir ((e.place root).child g) = true →
      d.tree.hasDir ((d.place root).child g) = true ∨ e.isDirectory (root.child g) = true) :
    e.OpensDirectories root := by
  rintro dir (rfl | ⟨g, hg, hdir, rfl⟩)
  · exact ⟨heroot, hlocked _ (Or.inl rfl)⟩
  · refine ⟨?_, hlocked _ (Or.inr ⟨g, hg, hdir, rfl⟩)⟩
    rcases hdirs g hg hdir with hd | hfound
    · have hgname : Path.IsEntry g := he.entries _ (Tree.contains_of_hasDir hdir) _ (by simp)
      exact isDirectory_child_congr hcurrent (hopens root (Or.inl rfl)).1 heroot hgname
        (hopens _ (Or.inr ⟨g, hg, hd, rfl⟩)).1 hdir
    · exact hfound

variable (hdopens : d.OpensDirectories root) (heopens : e.OpensDirectories root)

include hd he hcurrent hdopens heopens

/-- The text of a class file is the same on disks that agree on that file. -/
theorem readText_congr (h : d.Selects s root f) (hsame : d.SameFile e (d.place f.path)) :
    d.readText f.path = e.readText f.path := by
  have h' := h.congr hd hcurrent hsame.1
  have hplace := h.place_group hd
  rw [h.place_path hd] at hsame
  rw [h.path_eq]
  exact readText_child_congr hcurrent (hdopens _ (h.visits hd)).1 (heopens _ (h'.visits he)).1
    (h.isEntry_name hd) (hplace ▸ hsame) (hplace ▸ h.isFile)

/-- What is read from two disks is the same if they hold the same wherever one of them has a class
file. -/
theorem load_eq (hde : ∀ f, d.Selects s root f → d.SameFile e (d.place f.path))
    (hed : ∀ f, e.Selects s root f → d.SameFile e (d.place f.path)) :
    d.load s root = e.load s root := by
  have hsame : d.classFiles s root = e.classFiles s root := by
    have hirrefl : Std.Irrefl ClassFile.Before := ⟨fun f h => ClassFile.not_before_of_before h h⟩
    have hantisymm : Std.Antisymm ClassFile.Before :=
      ⟨fun f g h h' => absurd h' (ClassFile.not_before_of_before h)⟩
    refine (pairwise_classFiles hd).eq_of_mem_iff (pairwise_classFiles he) fun f => ?_
    rw [mem_classFiles hd, mem_classFiles he]
    constructor
    · exact fun h => h.congr hd hcurrent (hde f h).1
    · intro h
      refine h.congr he hcurrent.symm ?_
      rw [← place_congr hcurrent]
      exact (hed f h).1.symm
  have hread : ∀ f ∈ e.classFiles s root, d.readSource s f = e.readSource s f := by
    intro f hf
    have hselects := (mem_classFiles hd).mp (hsame ▸ hf)
    rw [readSource, readSource,
      readText_congr hd he hcurrent hdopens heopens hselects (hde f hselects)]
  have hmapM : (e.classFiles s root).mapM (d.readSource s) =
      (e.classFiles s root).mapM (e.readSource s) := mapM_congr hread
  rw [load_of_opensDirectories hdopens, load_of_opensDirectories heopens, hsame, hmapM]

end Congruence

end Disk

end InterfaceGen
