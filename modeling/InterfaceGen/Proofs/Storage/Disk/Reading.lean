import InterfaceGen.Proofs.Storage.Disk.Extension

/-! What is read from a directory: its entries, each name once, and the texts of its files. It
depends on the places directly below the directory, on the locks there, and on nothing else. -/

namespace InterfaceGen

theorem Path.text_child {p : Path} {n : Text} (hn : IsEntry n) :
    (p.child n).text = p.text ++ n ∨ (p.child n).text = p.text ++ '/' :: n := by
  rw [child, join, if_neg (by simpa using isAbsolute_of_isEntry hn)]
  split_ifs
  · exact Or.inl rfl
  · exact Or.inr rfl

theorem Path.text_child_ne_nil {p : Path} {n : Text} (hn : IsEntry n) : (p.child n).text ≠ [] := by
  rcases text_child (p := p) hn with h | h <;> simp [h, hn.ne_nil]

theorem fromUTF8?_eq_some_iff {bytes : ByteArray} {text : String} :
    String.fromUTF8? bytes = some text ↔ bytes = text.toUTF8 := by
  unfold String.fromUTF8?
  split_ifs with h
  · rw [Option.some.injEq, String.fromUTF8, ← String.toByteArray_inj]
    rfl
  · simp only [false_iff]
    rintro rfl
    exact h text.isValidUTF8

namespace Disk

variable {d e : Disk} {p : Path} {n : Text}

/-- All but the last segment of the path of an entry leads to the directory. -/
theorem segments_child (hp : d.isDirectory p = true) (hn : Path.IsEntry n) :
    ∃ front, (p.child n).segments = front ++ [n] ∧ d.Leads (d.origin p) front ∧
      front.foldl Place.follow (d.origin p) = d.place p := by
  obtain ⟨-, hl⟩ := isDirectory_iff.mp hp
  obtain ⟨front, hs, hsteps, hplace⟩ :=
    segments_join (d := d) (p := p) (Path.isAbsolute_of_isEntry hn)
  rw [Path.segments_of_isEntry hn] at hs
  refine ⟨front, hs, ?_, hplace⟩
  rwa [← leads_steps, hsteps, leads_steps]

/-- An entry of a directory is found one step below it. -/
theorem locate_child (hp : d.isDirectory p = true) (hn : Path.IsEntry n) : d.locate (p.child n) =
    match pathFault? (p.child n) with
    | some fault => .error fault
    | none =>
      if Text.utf8Size n > nameLimit then .error (.system .nameTooLong)
      else if d.tree.contains ((d.place p).child n) then .ok ((d.place p).child n)
      else .error (.system .noEntry) := by
  obtain ⟨front, hs, hfront, hplace⟩ := segments_child hp hn
  rw [locate, origin_child hn, hs, walk_append, hfront.walk]
  cases pathFault? (p.child n) with
  | some fault => rfl
  | none =>
    change d.walk _ [n] = _
    rw [walk_cons hfront.hasDir_end, if_neg (by simp [hn.isIdle, hn.ne_up]), hplace,
      Place.follow_of_isEntry hn]
    rfl

/-- Whether the system takes the path of an entry: there is no null character in the name, and
neither the name nor the path is too long. -/
structure Admits (p : Path) (n : Text) : Prop where
  noNull : '\x00' ∉ n
  name_fits : Text.utf8Size n ≤ nameLimit
  path_fits : Text.utf8Size (p.child n).text < pathLimit

theorem pathFault?_child_eq_none_iff (hp : d.isDirectory p = true) (hn : Path.IsEntry n) :
    pathFault? (p.child n) = none ↔
      '\x00' ∉ n ∧ Text.utf8Size (p.child n).text < pathLimit := by
  have hf := (isDirectory_iff.mp hp).1
  have hnull : '\x00' ∉ p.text := by
    intro h
    simp [pathFault?, h] at hf
  have hmem : '\x00' ∈ (p.child n).text ↔ '\x00' ∈ n := by
    rcases Path.text_child (p := p) hn with h | h <;> simp [h, hnull]
  have hne := Path.text_child_ne_nil (p := p) hn
  unfold pathFault?
  split_ifs with h₁ h₂ h₃ <;> simp_all

/-- What lies in a directory is found by its path if the system takes the path. -/
theorem locate_child_eq_ok_iff (hp : d.isDirectory p = true) (hn : Path.IsEntry n)
    (hc : d.tree.contains ((d.place p).child n) = true) {place : Place} :
    d.locate (p.child n) = .ok place ↔ Admits p n ∧ (d.place p).child n = place := by
  have hfault := pathFault?_child_eq_none_iff hp hn
  rw [locate_child hp hn, hc, if_pos rfl]
  cases hf : pathFault? (p.child n) with
  | some fault =>
    rw [hf] at hfault
    simp only [reduceCtorEq, false_iff, not_and] at hfault ⊢
    exact fun h => absurd h.path_fits (hfault h.noNull)
  | none =>
    rw [hf] at hfault
    obtain ⟨hnull, hpath⟩ := hfault.mp rfl
    simp only
    split_ifs with hname
    · simp only [false_iff, not_and]
      exact fun h => absurd h.name_fits (by omega)
    · simp only [Except.ok.injEq]
      exact ⟨fun h => ⟨⟨hnull, by omega, hpath⟩, h⟩, fun h => h.2⟩

/-- A path that can be followed one step further can be so on any disk that has the directory. -/
theorem isDirectory_child_congr (hcurrent : d.current = e.current)
    (hdp : d.isDirectory p = true) (hep : e.isDirectory p = true) (hn : Path.IsEntry n)
    (h : d.isDirectory (p.child n) = true) (hdir : e.tree.hasDir ((e.place p).child n) = true) :
    e.isDirectory (p.child n) = true := by
  obtain ⟨hlocate, -⟩ := locate_of_isDirectory h
  have hlocate' : e.locate (p.child n) = .ok ((e.place p).child n) := by
    rw [locate_child hdp hn] at hlocate
    rw [place_congr hcurrent] at hlocate
    rw [locate_child hep hn, Tree.contains_of_hasDir hdir]
    simp only [if_true]
    split at hlocate
    · cases hlocate
    · split_ifs at hlocate ⊢
      rfl
  exact isDirectory_of_locate hlocate' hdir

theorem entryAt?_eq_some_iff {dir q : Place} {isFile : Bool} {entry : Entry} :
    entryAt? dir q isFile = some entry ↔ q = dir.child entry.name ∧ entry.isFile = isFile := by
  obtain ⟨name, isFile'⟩ := entry
  unfold entryAt?
  constructor
  · intro h
    split at h
    · split_ifs at h with hq
      obtain ⟨rfl, rfl⟩ := Entry.mk.inj (Option.some.inj h)
      exact ⟨hq, rfl⟩
    · cases h
  · rintro ⟨rfl, rfl⟩
    simp

theorem mem_entriesAt {dir : Place} {entry : Entry} : entry ∈ d.entriesAt dir ↔
    if entry.isFile = true then (d.tree.file? (dir.child entry.name)).isSome = true
    else d.tree.hasDir (dir.child entry.name) = true := by
  simp only [entriesAt, List.mem_append, List.mem_filterMap, entryAt?_eq_some_iff]
  cases entry.isFile <;> simp [Tree.hasDir_iff_mem, Tree.isSome_file?_iff]

theorem isEntry_of_mem_entriesAt (hd : d.tree.WellFormed) {dir : Place} {entry : Entry}
    (h : entry ∈ d.entriesAt dir) : Path.IsEntry entry.name := by
  have hentry := mem_entriesAt.mp h
  have hc : d.tree.contains (dir.child entry.name) = true := by
    rw [Tree.contains_iff]
    split_ifs at hentry
    · exact Or.inr hentry
    · exact Or.inl hentry
  exact hd.entries _ hc entry.name (by simp)

/-- No two entries of a directory have one name. -/
theorem nodup_names_entriesAt (hd : d.tree.WellFormed) (dir : Place) :
    ((d.entriesAt dir).map (·.name)).Nodup := by
  set nameAt : Place → Option Text := fun q => (entryAt? dir q true).map (·.name) with hnameAt
  have hname : ∀ q isFile, (entryAt? dir q isFile).map (·.name) = nameAt q := by
    intro q isFile
    simp only [hnameAt, entryAt?]
    cases q.names.getLast? with
    | none => rfl
    | some n =>
      simp only
      split_ifs <;> rfl
  have hnames : (d.entriesAt dir).map (·.name) = d.tree.places.filterMap nameAt := by
    rw [entriesAt, Tree.places, List.map_append, List.map_filterMap, List.map_filterMap,
      List.filterMap_append, List.filterMap_map]
    simp only [hname]
    rfl
  rw [hnames]
  refine hd.nodup_places.filterMap fun q q' name hq hq' => ?_
  obtain ⟨entry, hentry, rfl⟩ := Option.map_eq_some_iff.mp hq
  obtain ⟨entry', hentry', hsame⟩ := Option.map_eq_some_iff.mp hq'
  rw [(entryAt?_eq_some_iff.mp hentry).1, (entryAt?_eq_some_iff.mp hentry').1, hsame]

/-- A directory that can be listed: its path leads to it, and it is not locked. -/
def Opens (d : Disk) (p : Path) : Prop :=
  d.isDirectory p = true ∧ d.tree.isLocked (d.place p) = false

instance (d : Disk) (p : Path) : Decidable (d.Opens p) := inferInstanceAs (Decidable (_ ∧ _))

theorem entries_eq_ok_iff {l : List Entry} : d.entries p = .ok l ↔
    d.Opens p ∧ l = d.entriesAt (d.place p) := by
  unfold entries
  cases hlocate : d.locate p with
  | error fault => simp [Opens, isDirectory, hlocate, bind, Except.bind]
  | ok dir =>
    obtain rfl := place_of_locate hlocate
    have hdir : d.isDirectory p = d.tree.hasDir (d.place p) := by
      rw [isDirectory, hlocate]
    simp only [bind, Except.bind, Opens, hdir]
    cases d.tree.hasDir (d.place p) <;> cases d.tree.isLocked (d.place p) <;>
      simp [pure, Except.pure, eq_comm]

theorem not_opens_of_entries {fault : Fault} (h : d.entries p = .error fault) : ¬d.Opens p := by
  intro hopens
  rw [entries_eq_ok_iff.mpr ⟨hopens, rfl⟩] at h
  cases h

/-- The two disks have the same file at a place, locked on both or on neither. -/
def SameFile (d e : Disk) (q : Place) : Prop :=
  d.tree.file? q = e.tree.file? q ∧ d.tree.isLocked q = e.tree.isLocked q

/-- The text of a file is the same on disks that agree on that file. -/
theorem readText_child_congr (hcurrent : d.current = e.current) (hd : d.isDirectory p = true)
    (he : e.isDirectory p = true) (hn : Path.IsEntry n)
    (hsame : d.SameFile e ((d.place p).child n))
    (hsome : (d.tree.file? ((d.place p).child n)).isSome = true) :
    d.readText (p.child n) = e.readText (p.child n) := by
  obtain ⟨hfile, hlocked⟩ := hsame
  have hc : d.tree.contains ((d.place p).child n) = true := Tree.contains_of_isSome_file? hsome
  have hc' : e.tree.contains ((d.place p).child n) = true :=
    Tree.contains_of_isSome_file? (hfile ▸ hsome)
  rw [readText, readText, locate_child hd hn, locate_child he hn, ← place_congr hcurrent]
  split
  · rfl
  · simp only [hc, hc', if_true]
    split_ifs
    · rfl
    · simp only [bind, Except.bind, hfile, hlocked]

/-- The text of a file can be read if its path leads to the bytes of that text and it is not locked.
-/
theorem readText_eq_ok_iff {t : Text} : d.readText p = .ok t ↔
    ∃ place, d.locate p = .ok place ∧ d.tree.isLocked place = false ∧
      d.tree.file? place = some (String.ofList t).toUTF8 := by
  unfold readText
  cases d.locate p with
  | error fault => simp [bind, Except.bind]
  | ok place =>
    simp only [bind, Except.bind, Except.ok.injEq, exists_eq_left']
    cases hlocked : d.tree.isLocked place with
    | true => simp
    | false =>
      rw [if_neg Bool.false_ne_true]
      simp only [true_and]
      cases d.tree.file? place with
      | none => simp
      | some bytes =>
        simp only [Option.some.injEq]
        rw [← fromUTF8?_eq_some_iff]
        cases String.fromUTF8? bytes with
        | none => simp
        | some text =>
          simp only [Except.ok.injEq, Option.some.injEq]
          rw [← String.toList_inj, String.toList_ofList]

end Disk

end InterfaceGen
