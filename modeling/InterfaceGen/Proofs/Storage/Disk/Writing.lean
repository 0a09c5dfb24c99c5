import InterfaceGen.Proofs.Storage.Disk.Directories

/-! Files that are written to a disk, each after the directory for it has been made. Where a disk
has such a file already, every part of that disk takes it, too. -/

namespace InterfaceGen.Disk

variable {d d' e t : Disk} {p q : Path} {contents : ByteArray}

theorem write_eq_ok_iff : d.write p contents = .ok d' ↔
    ∃ dir n, d.holder p = .ok (dir, .name n) ∧ p.text.getLast? ≠ some '/' ∧
      Text.utf8Size n ≤ nameLimit ∧ d.tree.hasDir (dir.child n) = false ∧
      d' = { d with tree := d.tree.addFile (dir.child n) contents } := by
  rw [write, bind_holder_eq_ok_iff]
  · refine exists_congr fun dir => exists_congr fun n => and_congr_right fun _ => ?_
    dsimp only
    constructor
    · intro h
      split_ifs at h with hslash hlong hdir
      exact ⟨by simpa using hslash, Nat.not_lt.mp hlong, by simpa using hdir,
        (Except.ok.inj h).symm⟩
    · rintro ⟨hslash, hsize, hdir, rfl⟩
      simp [hslash, Nat.not_lt.mpr hsize, hdir]
  · rintro dir (_ | _ | _ | n) h
    all_goals first | exact ⟨n, rfl⟩ | cases h

/-- Makes the directory in which a path is to lie, as far as the path tells one. -/
def makeParent (d : Disk) (p : Path) : Outcome :=
  match p.parent? with
  | none => (.ok (), d)
  | some q => d.makeDirectories q

/-- The disk has a file at the path, in directories that can be made. -/
structure Accepts (t : Disk) (p : Path) : Prop where
  parent : ∀ q, p.parent? = some q → q.parent? = none ∨ t.isDirectory q = true
  holder : ∃ dir n, t.holder p = .ok (dir, .name n) ∧ Text.utf8Size n ≤ nameLimit
  noSlash : p.text.getLast? ≠ some '/'
  file : (t.tree.file? (t.place p)).isSome = true

theorem Accepts.mono (h : t.Accepts p) (hpart : t.PartOf e) : e.Accepts p := by
  refine ⟨fun q hq => (h.parent q hq).imp_right hpart.isDirectory, ?_, h.noSlash, ?_⟩
  · obtain ⟨dir, n, hholder, hsize⟩ := h.holder
    exact ⟨dir, n, hpart.holder hholder, hsize⟩
  · rw [← place_congr hpart.current]
    exact hpart.files _ h.file

/-- A path to a file leads there. -/
theorem Accepts.locate (h : t.Accepts p) : t.locate p = .ok (t.place p) := by
  obtain ⟨dir, n, hholder, hsize⟩ := h.holder
  obtain ⟨above, he, hn, hf, hl, -⟩ := holder_eq_name_iff.mp hholder
  have hs : p.segments = above ++ [n] := by
    obtain ⟨k, hk⟩ := he.segments
    cases k with
    | zero => simpa using hk
    | succ k =>
      refine absurd ?_ h.noSlash
      rw [Path.text_eq, hk, List.replicate_succ', ← List.cons_append, ← List.append_assoc,
        Path.text_ofSegments_append (by simp) (by simp)]
      simp [Path.ofSegments]
  have hfollow := place_of_endsWith (d := t) he
  have hc : t.tree.contains (t.place p) = true := Tree.contains_of_isSome_file? h.file
  rw [hfollow] at hc ⊢
  rw [Disk.locate, hf]
  change t.walk _ p.segments = _
  rw [hs, walk_append, hl.walk]
  change t.walk _ [n] = _
  rw [walk_cons hl.hasDir_end, if_neg (by simp [hn.isIdle, hn.ne_up]),
    if_neg (Nat.not_lt.mpr hsize), if_pos hc]
  rfl

/-- A file that has been written is there, and nothing else has changed. -/
theorem write_spec (hd : d.tree.WellFormed) (h : d.write p contents = .ok d') :
    d'.tree.WellFormed ∧ d.PartOf d' ∧
      (∀ q, d'.tree.file? q = if q = d.place p then some contents else d.tree.file? q) ∧
      ∀ q, d'.tree.isLocked q = d.tree.isLocked q := by
  obtain ⟨dir, n, hholder, -, -, hdir, rfl⟩ := write_eq_ok_iff.mp h
  have hfile : ∀ q, (d.tree.addFile (dir.child n) contents).file? q =
      if q = d.place p then some contents else d.tree.file? q := by
    intro q
    rw [Tree.file?_addFile, place_of_holder hholder]
  refine ⟨hd.addFile (hasDir_of_holder hholder) (isEntry_of_holder hholder) hdir contents,
    ⟨rfl, fun q hq => by simpa using hq, fun q hq => ?_⟩, hfile, fun q => by simp⟩
  rw [hfile]
  split_ifs
  · rfl
  · exact hq

theorem makeParent_grows (hd : d.tree.WellFormed) (h : d.makeParent p = (.ok (), d')) :
    d'.tree.WellFormed ∧ d.Grows d' ∧
      ∀ q, p.parent? = some q → q.parent? = none ∨ d'.isDirectory q = true := by
  unfold makeParent at h
  cases hp : p.parent? with
  | none =>
    rw [hp] at h
    obtain ⟨-, rfl⟩ := Prod.mk.inj h
    exact ⟨hd, .refl d, nofun⟩
  | some q =>
    rw [hp] at h
    obtain ⟨hwf, hgrows, hdir⟩ := makeDirectories_grows hd h
    refine ⟨hwf, hgrows, fun q' hq' => ?_⟩
    obtain rfl := Option.some.inj hq'
    exact (hdir rfl).imp_right And.left

/-- No directory is made for a file but at the places where the walk along its path stands. -/
theorem hasDir_of_makeParent (hd : d.tree.WellFormed) (h : d.makeParent p = (.ok (), d'))
    {y : Place} (hy : d'.tree.hasDir y = true) :
    d.tree.hasDir y = true ∨ y ∈ (d.origin p).trail p.segments := by
  unfold makeParent at h
  cases hp : p.parent? with
  | none =>
    rw [hp] at h
    obtain ⟨-, rfl⟩ := Prod.mk.inj h
    exact Or.inl hy
  | some q =>
    rw [hp] at h
    dsimp only at h
    by_cases hq : q.parent? = none
    · rw [makeDirectories_of_parent?_eq_none hq] at h
      obtain ⟨-, rfl⟩ := Prod.mk.inj h
      exact Or.inl hy
    · exact (hasDir_of_makeDirectories hd h hy).imp_right fun htrail =>
        mem_trail_of_parent? hp htrail hq

/-- On a part of a disk that has a file at a path, the directory of the path can be made. -/
theorem makeParent_on_part {above : List Text} {n : Text} (he : e.tree.WellFormed)
    (ht : t.tree.WellFormed) (hpart : e.PartOf t)
    (hparent : ∀ q, p.parent? = some q → q.parent? = none ∨ t.isDirectory q = true)
    (hend : p.EndsWith above n) (hn : Path.IsEntry n)
    (hstart : e.tree.hasDir (e.origin p) = true) :
    ∃ e', e.makeParent p = (.ok (), e') ∧ e'.tree.WellFormed ∧ e.Grows e' ∧ e'.PartOf t ∧
      e'.Leads (e'.origin p) above := by
  have hfront : ∀ front {s idles}, p.segments = front ++ s :: idles → s ≠ [] →
      (∀ u ∈ idles, Path.isIdle u = true) → front = above := by
    intro front s idles hs hne hidles
    rcases Path.endsInDot_or_endsWith hs hne hidles with ⟨between, hend', -⟩ | hend'
    · exact absurd (hend.unique hend').2 hn.ne_here
    · exact (hend'.unique hend).1
  unfold makeParent
  cases hp : p.parent? with
  | none =>
    obtain ⟨k, hk⟩ := hend.segments
    have hidle := (Path.of_parent?_eq_none hp).2 n (by simp [hk])
    rw [hn.isIdle] at hidle
    cases hidle
  | some q =>
    rcases Path.parent?_cases hp with ⟨first, idles, hs, hfirst, hidles, rfl⟩ |
      ⟨front, s, idles, hon⟩
    · obtain rfl := hfront [] hs hfirst hidles
      exact ⟨e, makeDirectories_of_parent?_eq_none rfl, he, .refl e, hpart, leads_nil.mpr hstart⟩
    · obtain rfl := hfront _ hon.segments hon.segment_ne_nil hon.idles
      have hstartq : e.tree.hasDir (e.origin q) = true := by rwa [origin_of_goesOn hon]
      rcases hparent q hp with hnone | hdir
      · have hidle := (Path.of_parent?_eq_none hnone).2
        have hl := (leads_of_goesOn hon).mp ((leads_of_isIdle hidle).mpr hstartq)
        exact ⟨e, makeDirectories_of_parent?_eq_none hnone, he, .refl e, hpart, hl⟩
      · have hdot : q.EndsInDot → e.tree.hasDir (e.place q) = true := by
          intro hdot
          rwa [place_of_goesOn hon hdot]
        obtain ⟨e', hmake, hcompletes⟩ := makeDirectories_on_part he ht hpart hdir hstartq hdot
        have hl := (leads_of_goesOn hon).mp (isDirectory_iff.mp hcompletes.isDirectory).2
        exact ⟨e', hmake, hcompletes.wellFormed, hcompletes.grows, hcompletes.partOf, hl⟩

/-- A file has been put on a disk: its directory was made, then it was written. -/
def Puts (d : Disk) (p : Path) (contents : ByteArray) (d' : Disk) : Prop :=
  ∃ e, d.makeParent p = (.ok (), e) ∧ e.write p contents = .ok d'

/-- A file that has been put on a disk is there, and of the files nothing else has changed. -/
theorem Puts.spec (hd : d.tree.WellFormed) (h : d.Puts p contents d') :
    d'.tree.WellFormed ∧ d.PartOf d' ∧ d'.Accepts p ∧
      (∀ q, d'.tree.file? q = if q = d.place p then some contents else d.tree.file? q) ∧
      ∀ q, d'.tree.isLocked q = d.tree.isLocked q := by
  obtain ⟨e, hmake, hwrite⟩ := h
  obtain ⟨he, hgrows, hparent⟩ := makeParent_grows hd hmake
  obtain ⟨hd', hpart, hfile, hlocked⟩ := write_spec he hwrite
  obtain ⟨dir, n, hholder, hslash, hsize, -⟩ := write_eq_ok_iff.mp hwrite
  have hplace : d'.place p = e.place p := place_congr hpart.current.symm p
  refine ⟨hd', hgrows.partOf.trans hpart, ⟨fun q hq => (hparent q hq).imp_right hpart.isDirectory,
    ⟨dir, n, hpart.holder hholder, hsize⟩, hslash, ?_⟩, fun q => ?_,
    fun q => (hlocked q).trans (hgrows.locked q)⟩
  · rw [hfile, hplace, if_pos rfl]
    rfl
  · rw [hfile, hgrows.files, place_congr hgrows.current]

/-- The directories are those that were there and some on the way to the file. -/
theorem Puts.hasDir_cases (hd : d.tree.WellFormed) (h : d.Puts p contents d') {y : Place}
    (hy : d'.tree.hasDir y = true) :
    d.tree.hasDir y = true ∨ y ∈ (d.origin p).trail p.segments := by
  obtain ⟨e, hmake, hwrite⟩ := h
  obtain ⟨dir, n, -, -, -, -, rfl⟩ := write_eq_ok_iff.mp hwrite
  rw [Tree.hasDir_addFile] at hy
  exact hasDir_of_makeParent hd hmake hy

/-- Every part of a disk that has a file takes that file, and stays a part. -/
theorem exists_puts_on_part (he : e.tree.WellFormed) (ht : t.tree.WellFormed) (hpart : e.PartOf t)
    (haccepts : t.Accepts p) (hstart : e.tree.hasDir (e.origin p) = true)
    (contents : ByteArray) : ∃ e', e.Puts p contents e' ∧ e'.PartOf t := by
  obtain ⟨dir, n, hholder, hsize⟩ := haccepts.holder
  obtain ⟨above, hend, hn, hf, -, hdir⟩ := holder_eq_name_iff.mp hholder
  obtain ⟨e₁, hmake, -, -, hpart₁, hl⟩ :=
    makeParent_on_part he ht hpart haccepts.parent hend hn hstart
  have hholder₁ : e₁.holder p = .ok (dir, .name n) := by
    refine holder_eq_name_iff.mpr ⟨above, hend, hn, hf, hl, ?_⟩
    rw [hdir, origin_congr hpart₁.current]
  have hplace : t.place p = dir.child n := place_of_holder hholder
  have hnodir : e₁.tree.hasDir (dir.child n) = false := by
    by_contra h
    have hfile := haccepts.file
    rw [hplace, ht.disjoint _ (hpart₁.dirs _ (by simpa using h))] at hfile
    cases hfile
  have hwrite : e₁.write p contents =
      .ok { e₁ with tree := e₁.tree.addFile (dir.child n) contents } :=
    write_eq_ok_iff.mpr ⟨dir, n, hholder₁, haccepts.noSlash, hsize, hnodir, rfl⟩
  refine ⟨_, ⟨e₁, hmake, hwrite⟩, hpart₁.current, fun q hq => hpart₁.dirs q hq, fun q hq => ?_⟩
  rw [Tree.file?_addFile] at hq
  split_ifs at hq with hq'
  · rw [hq', ← hplace]
    exact haccepts.file
  · exact hpart₁.files q hq

/-- Files have been put on a disk one after the other. -/
def PutsAll (d : Disk) : List (Path × ByteArray) → Disk → Prop
  | [], d' => d = d'
  | f :: rest, d' => ∃ e, d.Puts f.1 f.2 e ∧ e.PutsAll rest d'

variable {files : List (Path × ByteArray)}

theorem PutsAll.spec (hd : d.tree.WellFormed) (h : d.PutsAll files d') :
    d'.tree.WellFormed ∧ d.PartOf d' ∧ (∀ f ∈ files, d'.Accepts f.1) ∧
      ∀ q, d'.tree.isLocked q = d.tree.isLocked q := by
  induction files generalizing d with
  | nil =>
    obtain rfl := h
    exact ⟨hd, .refl d, by simp, fun _ => rfl⟩
  | cons f files ih =>
    obtain ⟨e, hput, hrest⟩ := h
    obtain ⟨he, hpart, haccepts, -, hlocked⟩ := hput.spec hd
    obtain ⟨hd', hpart', hall, hlocked'⟩ := ih he hrest
    exact ⟨hd', hpart.trans hpart', List.forall_mem_cons.mpr ⟨haccepts.mono hpart', hall⟩,
      fun q => (hlocked' q).trans (hlocked q)⟩

theorem PutsAll.hasDir_cases (hd : d.tree.WellFormed) (h : d.PutsAll files d') {y : Place}
    (hy : d'.tree.hasDir y = true) : d.tree.hasDir y = true ∨
      ∃ f ∈ files, y ∈ (d.origin f.1).trail f.1.segments := by
  induction files generalizing d with
  | nil =>
    obtain rfl := h
    exact Or.inl hy
  | cons f files ih =>
    obtain ⟨e, hput, hrest⟩ := h
    obtain ⟨he, hpart, -⟩ := hput.spec hd
    rcases ih he hrest with hy | ⟨g, hg, hy⟩
    · exact (hput.hasDir_cases hd hy).imp_right fun hy => ⟨f, List.mem_cons_self, hy⟩
    · rw [← origin_congr hpart.current] at hy
      exact Or.inr ⟨g, List.mem_cons_of_mem f hg, hy⟩

/-- What files hold in the end is the same for two disks that begin alike, wherever no file is put.
-/
theorem PutsAll.file?_congr {d₁ d₁' : Disk} (hd : d.tree.WellFormed) (hd₁ : d₁.tree.WellFormed)
    (hcurrent : d.current = d₁.current) (h : d.PutsAll files d') (h₁ : d₁.PutsAll files d₁')
    {q : Place} (hq : (∃ f ∈ files, d.place f.1 = q) ∨ d.tree.file? q = d₁.tree.file? q) :
    d'.tree.file? q = d₁'.tree.file? q := by
  induction files generalizing d d₁ with
  | nil =>
    obtain rfl := h
    obtain rfl := h₁
    simpa using hq
  | cons f files ih =>
    obtain ⟨e, hput, hrest⟩ := h
    obtain ⟨e₁, hput₁, hrest₁⟩ := h₁
    obtain ⟨he, hpart, -, hfile, -⟩ := hput.spec hd
    obtain ⟨he₁, hpart₁, -, hfile₁, -⟩ := hput₁.spec hd₁
    refine ih he he₁ (hpart.current.symm.trans (hcurrent.trans hpart₁.current)) hrest hrest₁ ?_
    rw [hfile, hfile₁, ← place_congr hcurrent]
    by_cases hlast : q = d.place f.1
    · exact Or.inr (by simp [hlast])
    · rw [if_neg hlast, if_neg hlast]
      refine hq.imp_left ?_
      rintro ⟨g, hg, hgq⟩
      rcases List.mem_cons.mp hg with rfl | hg
      · exact absurd hgq.symm hlast
      · exact ⟨g, hg, by rw [← place_congr hpart.current, hgq]⟩

/-- Where no file is put, files hold what they held. -/
theorem PutsAll.file?_of_ne (hd : d.tree.WellFormed) (h : d.PutsAll files d') {q : Place}
    (hq : ∀ f ∈ files, d.place f.1 ≠ q) : d'.tree.file? q = d.tree.file? q := by
  induction files generalizing d with
  | nil =>
    obtain rfl := h
    rfl
  | cons f files ih =>
    obtain ⟨e, hput, hrest⟩ := h
    obtain ⟨he, hpart, -, hfile, -⟩ := hput.spec hd
    rw [ih he hrest fun g hg => place_congr hpart.current g.1 ▸ hq g (List.mem_cons_of_mem f hg),
      hfile, if_neg (hq f List.mem_cons_self).symm]

/-- Every part of a disk that has all of the files takes them once more, and stays a part. -/
theorem exists_putsAll_on_part (he : e.tree.WellFormed) (ht : t.tree.WellFormed)
    (hpart : e.PartOf t) (haccepts : ∀ f ∈ files, t.Accepts f.1)
    (hstart : ∀ f ∈ files, e.tree.hasDir (e.origin f.1) = true) :
    ∃ e', e.PutsAll files e' ∧ e'.PartOf t := by
  induction files generalizing e with
  | nil => exact ⟨e, rfl, hpart⟩
  | cons f files ih =>
    obtain ⟨e₁, hput, hpart₁⟩ := exists_puts_on_part he ht hpart (haccepts f List.mem_cons_self)
      (hstart f List.mem_cons_self) f.2
    obtain ⟨he₁, hgrows, -, -⟩ := hput.spec he
    obtain ⟨e', hall, hpart'⟩ := ih he₁ hpart₁ (fun g hg => haccepts g (List.mem_cons_of_mem f hg))
      fun g hg => by
        rw [← origin_congr hgrows.current]
        exact hgrows.dirs _ (hstart g (List.mem_cons_of_mem f hg))
    exact ⟨e', ⟨e₁, hput, hall⟩, hpart'⟩

end InterfaceGen.Disk
