import InterfaceGen.Proofs.Storage.Disk.Extension

/-! Directories that are made together with those above them. They are made from the first missing
one on, so the outcome depends on what is there already; but where nothing is in the way of a
directory on a larger disk, nothing is in the way of making it. -/

namespace InterfaceGen.Disk

variable {d d' e t : Disk} {p q : Path}

theorem makeDirectory_eq_ok_iff : d.makeDirectory p = .ok d' ↔
    ∃ dir n, d.holder p = .ok (dir, .name n) ∧ Text.utf8Size n ≤ nameLimit ∧
      d.tree.contains (dir.child n) = false ∧
      d' = { d with tree := d.tree.addDir (dir.child n) } := by
  rw [makeDirectory, bind_holder_eq_ok_iff]
  · refine exists_congr fun dir => exists_congr fun n => and_congr_right fun _ => ?_
    dsimp only
    constructor
    · intro h
      split_ifs at h with hlong hc
      exact ⟨Nat.not_lt.mp hlong, by simpa using hc, (Except.ok.inj h).symm⟩
    · rintro ⟨hsize, hc, rfl⟩
      simp [Nat.not_lt.mpr hsize, hc]
  · rintro dir (_ | _ | _ | n) h
    all_goals first | exact ⟨n, rfl⟩ | cases h

/-- A directory that has been made is there, and the disk has grown by it. -/
theorem makeDirectory_grows (hd : d.tree.WellFormed) (h : d.makeDirectory p = .ok d') :
    d'.tree.WellFormed ∧ d.Grows d' ∧ d'.isDirectory p = true := by
  obtain ⟨dir, n, hholder, hsize, hnew, rfl⟩ := makeDirectory_eq_ok_iff.mp h
  have hgrows : d.Grows { d with tree := d.tree.addDir (dir.child n) } :=
    ⟨rfl, fun q hq => by simp [hq], fun q => by simp, fun q => by simp⟩
  refine ⟨hd.addDir (hasDir_of_holder hholder) (isEntry_of_holder hholder) hnew, hgrows, ?_⟩
  have hholder' := hgrows.partOf.holder hholder
  obtain ⟨above, he, -, hf, hl, -⟩ := holder_eq_name_iff.mp hholder'
  refine isDirectory_iff.mpr ⟨hf, (leads_of_endsWith he).mpr ⟨hl, hsize, ?_⟩⟩
  rw [place_of_holder hholder']
  simp

theorem makeDirectory_of_isDirectory (h : d.isDirectory p = true) :
    d.makeDirectory p = .error (.system .alreadyExists) := by
  obtain ⟨hf, hl⟩ := isDirectory_iff.mp h
  rcases p.endsWith_or_forall_nil with ⟨above, last, he⟩ | hnil
  · obtain ⟨habove, hsize, hdir⟩ := (leads_of_endsWith he).mp hl
    have hholder := (holder_eq_ok_iff he).mpr ⟨hf, habove, rfl, rfl⟩
    rw [makeDirectory, hholder]
    cases hlast : Component.ofSegment last with
    | name n =>
      rw [hlast] at hholder
      obtain ⟨_, he', -⟩ := holder_eq_name_iff.mp hholder
      obtain rfl := (he.unique he').2
      rw [place_of_holder hholder] at hdir
      have hc := Tree.contains_of_hasDir hdir
      simp [bind, Except.bind, Nat.not_lt.mpr hsize, hc]
    | _ => rfl
  · rw [makeDirectory, holder_of_forall_nil hnil hf]
    rfl

/-- Makes one directory, or finds it there. -/
def ensureDirectory (d : Disk) (p : Path) : Outcome :=
  match d.makeDirectory p with
  | .ok d' => (.ok (), d')
  | .error fault => (if d.isDirectory p then .ok () else .error fault, d)

theorem ensureDirectory_grows (hd : d.tree.WellFormed) {r : Except Fault Unit}
    (h : d.ensureDirectory p = (r, d')) : d'.tree.WellFormed ∧ d.Grows d' ∧
      (r = .ok () → d'.isDirectory p = true ∧ d.tree.hasDir (d.origin p) = true) := by
  unfold ensureDirectory at h
  cases hmake : d.makeDirectory p with
  | ok d₁ =>
    rw [hmake] at h
    obtain ⟨-, rfl⟩ := Prod.mk.inj h
    obtain ⟨hwf, hgrows, hdir⟩ := makeDirectory_grows hd hmake
    obtain ⟨dir, n, hholder, -⟩ := makeDirectory_eq_ok_iff.mp hmake
    obtain ⟨above, -, -, -, hl, -⟩ := holder_eq_name_iff.mp hholder
    exact ⟨hwf, hgrows, fun _ => ⟨hdir, hl.hasDir_start⟩⟩
  | error fault =>
    rw [hmake] at h
    obtain ⟨hr, rfl⟩ := Prod.mk.inj h
    refine ⟨hd, .refl d, fun hok => ?_⟩
    rw [hok] at hr
    split_ifs at hr with hdir
    exact ⟨hdir, (isDirectory_iff.mp hdir).2.hasDir_start⟩

theorem makeDirectories_of_parent?_eq_none (h : p.parent? = none) :
    d.makeDirectories p = (.ok (), d) := by
  rw [makeDirectories, Path.lineage_of_parent?_eq_none h]
  rfl

theorem makeDirectories_of_parent? (h : p.parent? = some q)
    (hmake : d.makeDirectory p ≠ .error (.system .noEntry)) :
    d.makeDirectories p = d.ensureDirectory p := by
  rw [makeDirectories, Path.lineage_of_parent? h, makeLineage, ensureDirectory]
  split
  · rename_i hok
    rw [hok]
  · rename_i hno
    exact absurd hno hmake
  · rename_i herror
    rw [herror]

/-- Where the directory above a path is missing, it is made first. -/
theorem makeDirectories_of_noEntry (h : p.parent? = some q)
    (hmake : d.makeDirectory p = .error (.system .noEntry)) : d.makeDirectories p =
      match d.makeDirectories q with
      | (.ok (), d') => d'.ensureDirectory p
      | (.error fault, d') => (.error fault, d') := by
  rw [makeDirectories, Path.lineage_of_parent? h, makeLineage, hmake, makeDirectories]
  rcases d.makeLineage q.lineage with ⟨_ | ⟨⟩, d'⟩
  · rfl
  · cases hmake' : d'.makeDirectory p <;> simp only [ensureDirectory, hmake']

theorem makeDirectories_of_isDirectory (h : d.isDirectory p = true) :
    d.makeDirectories p = (.ok (), d) := by
  cases hp : p.parent? with
  | none => exact makeDirectories_of_parent?_eq_none hp
  | some q =>
    have hmake := makeDirectory_of_isDirectory h
    rw [makeDirectories_of_parent? hp (by simp [hmake]), ensureDirectory, hmake]
    simp [h]

/-- Making directories lets the disk grow. If it succeeds, the path leads to a directory, and the
walk to it had a directory to start from. -/
theorem makeDirectories_grows (hd : d.tree.WellFormed) {r : Except Fault Unit}
    (h : d.makeDirectories p = (r, d')) : d'.tree.WellFormed ∧ d.Grows d' ∧
      (r = .ok () → p.parent? = none ∨
        d'.isDirectory p = true ∧ d.tree.hasDir (d.origin p) = true) := by
  induction p using Path.parent?_induction generalizing r d' with
  | h p ih =>
  cases hp : p.parent? with
  | none =>
    rw [makeDirectories_of_parent?_eq_none hp] at h
    obtain ⟨-, rfl⟩ := Prod.mk.inj h
    exact ⟨hd, .refl d, fun _ => Or.inl rfl⟩
  | some q =>
    by_cases hmissing : d.makeDirectory p = .error (.system .noEntry)
    · rw [makeDirectories_of_noEntry hp hmissing] at h
      rcases habove : d.makeDirectories q with ⟨fault | ⟨⟩, d₁⟩
      · rw [habove] at h
        obtain ⟨rfl, rfl⟩ := Prod.mk.inj h
        obtain ⟨hwf, hgrows, -⟩ := ih q hp habove
        exact ⟨hwf, hgrows, nofun⟩
      · rw [habove] at h
        obtain ⟨hwf₁, hgrows₁, hstart₁⟩ := ih q hp habove
        obtain ⟨hwf, hgrows, hdir⟩ := ensureDirectory_grows hwf₁ h
        refine ⟨hwf, hgrows₁.trans hgrows, fun hok => Or.inr ⟨(hdir hok).1, ?_⟩⟩
        rcases Path.parent?_cases hp with ⟨-, -, -, -, -, rfl⟩ | ⟨front, s, idles, hon⟩
        · rw [makeDirectories_of_parent?_eq_none rfl] at habove
          obtain ⟨-, rfl⟩ := Prod.mk.inj habove
          exact (hdir hok).2
        · rcases hstart₁ rfl with hnone | ⟨-, hstart⟩
          · rw [makeDirectories_of_parent?_eq_none hnone] at habove
            obtain ⟨-, rfl⟩ := Prod.mk.inj habove
            exact (hdir hok).2
          · rwa [origin_of_goesOn hon] at hstart
    · rw [makeDirectories_of_parent? hp hmissing] at h
      obtain ⟨hwf, hgrows, hdir⟩ := ensureDirectory_grows hd h
      exact ⟨hwf, hgrows, fun hok => Or.inr (hdir hok)⟩

/-- Directories that have been made are there to stay. -/
theorem makeDirectories_again (hd : d.tree.WellFormed) (h : d.makeDirectories p = (.ok (), d'))
    (hpart : d'.PartOf t) : t.makeDirectories p = (.ok (), t) := by
  obtain ⟨-, -, hdir⟩ := makeDirectories_grows hd h
  rcases hdir rfl with hnone | ⟨hdir, -⟩
  · exact makeDirectories_of_parent?_eq_none hnone
  · exact makeDirectories_of_isDirectory (hpart.isDirectory hdir)

/-- A path to which directories have been made leads to a directory, unless it is empty, and its
walk had a directory to start from. -/
theorem isDirectory_of_makeDirectories (hd : d.tree.WellFormed)
    (h : d.makeDirectories p = (.ok (), d')) (hf : pathFault? p = none) :
    d'.isDirectory p = true ∧ d.tree.hasDir (d.origin p) = true := by
  obtain ⟨hd', -, hdir⟩ := makeDirectories_grows hd h
  rcases hdir rfl with hnone | hdir
  · obtain ⟨hempty | habs, hidle⟩ := Path.of_parent?_eq_none hnone
    · simp [pathFault?, hempty] at hf
    · have horigin : ∀ e : Disk, e.origin p = .root := fun e => by simp [origin, habs]
      refine ⟨isDirectory_iff.mpr ⟨hf, (leads_of_isIdle hidle).mpr ?_⟩, ?_⟩
      · rw [horigin]
        exact hd'.root
      · rw [horigin]
        exact hd.root
  · exact hdir

theorem hasDir_of_ensureDirectory {r : Except Fault Unit} (h : d.ensureDirectory p = (r, d'))
    {y : Place} (hy : d'.tree.hasDir y = true) : d.tree.hasDir y = true ∨ y = d.place p := by
  unfold ensureDirectory at h
  cases hmake : d.makeDirectory p with
  | ok d₁ =>
    rw [hmake] at h
    obtain ⟨-, rfl⟩ := Prod.mk.inj h
    obtain ⟨dir, n, hholder, -, -, rfl⟩ := makeDirectory_eq_ok_iff.mp hmake
    rw [place_of_holder hholder]
    simpa using hy
  | error fault =>
    rw [hmake] at h
    obtain ⟨-, rfl⟩ := Prod.mk.inj h
    exact Or.inl hy

/-- The walk to the parent stands nowhere but where the walk to the path does. -/
theorem mem_trail_of_parent? (h : p.parent? = some q) {y : Place}
    (hy : y ∈ (d.origin q).trail q.segments) (hq : q.parent? ≠ none) :
    y ∈ (d.origin p).trail p.segments := by
  rcases Path.parent?_cases h with ⟨-, -, -, -, -, rfl⟩ | ⟨front, s, idles, hon⟩
  · exact absurd rfl hq
  · rw [← Place.mem_trail_steps, hon.steps, Place.mem_trail_steps] at hy
    rw [hon.segments, ← origin_of_goesOn hon]
    exact Place.mem_trail_append.mpr (Or.inl hy)

/-- No directory is made but at the places where the walk along the path stands. -/
theorem hasDir_of_makeDirectories (hd : d.tree.WellFormed) {r : Except Fault Unit}
    (h : d.makeDirectories p = (r, d')) {y : Place} (hy : d'.tree.hasDir y = true) :
    d.tree.hasDir y = true ∨ y ∈ (d.origin p).trail p.segments := by
  have hplace : ∀ p, d.place p ∈ (d.origin p).trail p.segments := fun p =>
    Place.foldl_follow_mem_trail _ _
  induction p using Path.parent?_induction generalizing r d' y with
  | h p ih =>
  cases hp : p.parent? with
  | none =>
    rw [makeDirectories_of_parent?_eq_none hp] at h
    obtain ⟨-, rfl⟩ := Prod.mk.inj h
    exact Or.inl hy
  | some q =>
    have habove : ∀ {r d₁ y}, d.makeDirectories q = (r, d₁) → d₁.tree.hasDir y = true →
        d.tree.hasDir y = true ∨ y ∈ (d.origin p).trail p.segments := by
      intro r d₁ y hmake hy
      by_cases hq : q.parent? = none
      · rw [makeDirectories_of_parent?_eq_none hq] at hmake
        obtain ⟨-, rfl⟩ := Prod.mk.inj hmake
        exact Or.inl hy
      · exact (ih q hp hmake hy).imp_right fun h => mem_trail_of_parent? hp h hq
    by_cases hmissing : d.makeDirectory p = .error (.system .noEntry)
    · rw [makeDirectories_of_noEntry hp hmissing] at h
      rcases hmake : d.makeDirectories q with ⟨fault | ⟨⟩, d₁⟩
      · rw [hmake] at h
        obtain ⟨-, rfl⟩ := Prod.mk.inj h
        exact habove hmake hy
      · rw [hmake] at h
        rcases hasDir_of_ensureDirectory h hy with hy | rfl
        · exact habove hmake hy
        · rw [← place_congr (makeDirectories_grows hd hmake).2.1.current]
          exact Or.inr (hplace p)
    · rw [makeDirectories_of_parent? hp hmissing] at h
      rcases hasDir_of_ensureDirectory h hy with hy | rfl
      · exact Or.inl hy
      · exact Or.inr (hplace p)

section Extension

variable {front idles : List Text} {s : Text}

theorem utf8Size_append (a b : Text) :
    Text.utf8Size (a ++ b) = Text.utf8Size a + Text.utf8Size b := by
  induction a with
  | nil => simp [Text.utf8Size]
  | cons c a ih =>
    rw [List.cons_append, Text.utf8Size, ih, Text.utf8Size, Nat.add_assoc]

/-- What begins a path that may be one may be one too. -/
theorem pathFault?_of_isPrefix (h : q.text <+: p.text) (hne : q.text ≠ [])
    (hf : pathFault? p = none) : pathFault? q = none := by
  obtain ⟨rest, hrest⟩ := h
  unfold pathFault? at hf ⊢
  split_ifs at hf with hnull hempty hlong
  rw [← hrest, utf8Size_append] at hlong
  have hnull' : ¬q.text.contains '\x00' = true := by
    intro hmem
    apply hnull
    rw [← hrest]
    simpa using Or.inl (by simpa using hmem)
  rw [if_neg hnull', if_neg (by simpa using hne), if_neg (by omega)]

/-- On the part of a disk on which a path leads to a directory, that directory is there or can be
made as soon as the one above it is there. -/
theorem isDirectory_or_makeDirectory (he : e.tree.WellFormed) (ht : t.tree.WellFormed)
    (hpart : e.PartOf t) (hp : t.isDirectory p = true)
    (hdot : p.EndsInDot → e.tree.hasDir (e.place p) = true) (hs : p.segments = front ++ s :: idles)
    (hne : s ≠ []) (hidles : ∀ u ∈ idles, Path.isIdle u = true) (hl : e.Leads (e.origin p) front) :
    e.isDirectory p = true ∨ ∃ e', e.makeDirectory p = .ok e' := by
  obtain ⟨hf, htl⟩ := isDirectory_iff.mp hp
  have hplace : e.place p = (front.foldl Place.follow (e.origin p)).follow s := by
    rw [place, hs, List.foldl_append, List.foldl_cons, Place.foldl_follow_of_isIdle hidles]
  have hdir : e.tree.hasDir (e.place p) = true → e.isDirectory p = true := by
    intro h
    refine isDirectory_iff.mpr ⟨hf, ?_⟩
    rw [hplace] at h
    rw [hs, leads_append, leads_cons, leads_of_isIdle hidles]
    exact ⟨hl, htl.fits s (by simp [hs]), hl.hasDir_end, h⟩
  by_cases h : e.tree.hasDir (e.place p) = true
  · exact Or.inl (hdir h)
  · have hend : p.EndsWith front s := by
      rcases Path.endsInDot_or_endsWith hs hne hidles with ⟨between, hend, -⟩ | hend
      · exact absurd (hdot ⟨_, hend⟩) h
      · exact hend
    have hentry : Path.IsEntry s := by
      refine hend.isEntry ?_ ?_
      · rintro rfl
        exact h (hdot ⟨front, hend⟩)
      · rintro rfl
        exact h (hplace ▸ he.hasDir_above hl.hasDir_end)
    refine Or.inr ⟨_, makeDirectory_eq_ok_iff.mpr ⟨_, s, holder_eq_name_iff.mpr
      ⟨front, hend, hentry, hf, hl, rfl⟩, htl.fits s (by simp [hs]), ?_, rfl⟩⟩
    rw [hplace, Place.follow_of_isEntry hentry] at h
    by_contra hc
    refine h (hpart.hasDir_of_contains ht (by simpa using hc) ?_)
    have htdir := (locate_of_isDirectory hp).2
    rwa [← place_congr hpart.current, hplace, Place.follow_of_isEntry hentry] at htdir

/-- On such a part a directory is missing because of one above it. -/
theorem makeDirectory_eq_noEntry (he : e.tree.WellFormed) (ht : t.tree.WellFormed)
    (hpart : e.PartOf t) (hp : t.isDirectory p = true)
    (hs : p.segments = front ++ s :: idles) (hne : s ≠ [])
    (hidles : ∀ u ∈ idles, Path.isIdle u = true) (hstart : e.tree.hasDir (e.origin p) = true)
    (hl : ¬e.Leads (e.origin p) front) : e.makeDirectory p = .error (.system .noEntry) := by
  obtain ⟨hf, htl⟩ := isDirectory_iff.mp hp
  rw [hs, leads_append, ← origin_congr hpart.current] at htl
  have hwalk : e.walk (e.origin p) front = .error (.system .noEntry) := by
    refine (leads_or_noEntry he hstart htl.1.fits fun q hq hc => ?_).resolve_left hl
    exact hpart.hasDir_of_contains ht hc (htl.1.dirs q hq)
  have hholder : ∀ above last, p.EndsWith above last → (∃ rest, above = front ++ rest) →
      e.makeDirectory p = .error (.system .noEntry) := by
    rintro above last hend ⟨rest, rfl⟩
    rw [makeDirectory, holder_of_endsWith hend hf, walk_append, hwalk]
    rfl
  rcases Path.endsInDot_or_endsWith hs hne hidles with ⟨between, hend, -⟩ | hend
  · exact hholder _ _ hend ⟨_, rfl⟩
  · exact hholder _ _ hend ⟨[], by simp⟩

theorem makeDirectory_partOf (hpart : e.PartOf t) (hp : t.isDirectory p = true)
    (h : e.makeDirectory p = .ok d') : d'.PartOf t := by
  obtain ⟨dir, n, hholder, -, -, rfl⟩ := makeDirectory_eq_ok_iff.mp h
  have hplace : t.tree.hasDir (dir.child n) = true := by
    rw [← place_of_holder hholder, place_congr hpart.current]
    exact (locate_of_isDirectory hp).2
  refine ⟨hpart.current, fun q hq => ?_, fun q hq => hpart.files q (by simpa using hq)⟩
  simp only [Tree.hasDir_addDir, Bool.or_eq_true, beq_iff_eq] at hq
  rcases hq with hq | rfl
  · exact hpart.dirs q hq
  · exact hplace

/-- The disk `e'` is what is left to do for a path to lead to a directory, and no more than that. -/
structure Completes (e e' t : Disk) (p : Path) : Prop where
  wellFormed : e'.tree.WellFormed
  grows : e.Grows e'
  partOf : e'.PartOf t
  isDirectory : e'.isDirectory p = true

theorem ensureDirectory_on_part (he : e.tree.WellFormed) (hpart : e.PartOf t)
    (hp : t.isDirectory p = true)
    (h : e.isDirectory p = true ∨ ∃ e', e.makeDirectory p = .ok e') :
    ∃ e', e.ensureDirectory p = (.ok (), e') ∧ e.Completes e' t p := by
  rcases h with h | ⟨e', h⟩
  · refine ⟨e, ?_, he, .refl e, hpart, h⟩
    rw [ensureDirectory, makeDirectory_of_isDirectory h]
    simp [h]
  · obtain ⟨hwf, hgrows, hdir⟩ := makeDirectory_grows he h
    refine ⟨e', ?_, hwf, hgrows, makeDirectory_partOf hpart hp h, hdir⟩
    rw [ensureDirectory, h]

theorem makeDirectories_of_ensured (he : e.tree.WellFormed) (hpart : e.PartOf t)
    (hp : t.isDirectory p = true) (hparent : p.parent? = some q)
    (h : e.isDirectory p = true ∨ ∃ e', e.makeDirectory p = .ok e') :
    ∃ e', e.makeDirectories p = (.ok (), e') ∧ e.Completes e' t p := by
  have hne : e.makeDirectory p ≠ .error (.system .noEntry) := by
    rcases h with h | ⟨e', h⟩
    · simp [makeDirectory_of_isDirectory h]
    · simp [h]
  rw [makeDirectories_of_parent? hparent hne]
  exact ensureDirectory_on_part he hpart hp h

theorem isDirectory_of_goesOn (hon : p.GoesOn q front s idles) (hp : t.isDirectory p = true) :
    t.isDirectory q = true := by
  obtain ⟨hf, htl⟩ := isDirectory_iff.mp hp
  rw [hon.segments, leads_append] at htl
  exact isDirectory_iff.mpr
    ⟨pathFault?_of_isPrefix hon.isPrefix hon.ne_nil hf, (leads_of_goesOn hon).mpr htl.1⟩

/-- Once the parent of a missing directory has been made, the directory can be made as well. -/
theorem makeDirectories_after_parent {e₁ : Disk} (ht : t.tree.WellFormed)
    (hp : t.isDirectory p = true) (hdot : p.EndsInDot → e.tree.hasDir (e.place p) = true)
    (hparent : p.parent? = some q) (hon : p.GoesOn q front s idles)
    (hmissing : e.makeDirectory p = .error (.system .noEntry))
    (hmake : e.makeDirectories q = (.ok (), e₁)) (hcompletes : e.Completes e₁ t q) :
    ∃ e', e.makeDirectories p = (.ok (), e') ∧ e.Completes e' t p := by
  have hl₁ : e₁.Leads (e₁.origin p) front :=
    (leads_of_goesOn hon).mp (isDirectory_iff.mp hcompletes.isDirectory).2
  have hdot₁ : p.EndsInDot → e₁.tree.hasDir (e₁.place p) = true := by
    intro hend
    rw [← place_congr hcompletes.grows.current]
    exact hcompletes.grows.dirs _ (hdot hend)
  have hready := isDirectory_or_makeDirectory hcompletes.wellFormed ht hcompletes.partOf hp hdot₁
    hon.segments hon.segment_ne_nil hon.idles hl₁
  obtain ⟨e₂, hensure, hcompletes₂⟩ :=
    ensureDirectory_on_part hcompletes.wellFormed hcompletes.partOf hp hready
  refine ⟨e₂, ?_, hcompletes₂.wellFormed, hcompletes.grows.trans hcompletes₂.grows,
    hcompletes₂.partOf, hcompletes₂.isDirectory⟩
  rw [makeDirectories_of_noEntry hparent hmissing, hmake]
  exact hensure

/-- On a part of a disk on which a path leads to a directory, making the directories of the path
succeeds, and adds nothing that the larger disk has not. -/
theorem makeDirectories_on_part (he : e.tree.WellFormed) (ht : t.tree.WellFormed)
    (hpart : e.PartOf t) (hp : t.isDirectory p = true)
    (hstart : e.tree.hasDir (e.origin p) = true)
    (hdot : p.EndsInDot → e.tree.hasDir (e.place p) = true) :
    ∃ e', e.makeDirectories p = (.ok (), e') ∧ e.Completes e' t p := by
  induction p using Path.parent?_induction with
  | h p ih =>
  cases hparent : p.parent? with
  | none =>
    have hidle := (Path.of_parent?_eq_none hparent).2
    have hdir : e.isDirectory p = true :=
      isDirectory_iff.mpr ⟨(isDirectory_iff.mp hp).1, (leads_of_isIdle hidle).mpr hstart⟩
    exact ⟨e, makeDirectories_of_parent?_eq_none hparent, he, .refl e, hpart, hdir⟩
  | some q =>
    rcases Path.parent?_cases hparent with ⟨first, idles, hs, hfirst, hidles, rfl⟩ |
      ⟨front, s, idles, hon⟩
    · have hs' : p.segments = [] ++ first :: idles := hs
      exact makeDirectories_of_ensured he hpart hp hparent
        (isDirectory_or_makeDirectory he ht hpart hp hdot hs' hfirst hidles (leads_nil.mpr hstart))
    · by_cases hl : e.Leads (e.origin p) front
      · exact makeDirectories_of_ensured he hpart hp hparent
          (isDirectory_or_makeDirectory he ht hpart hp hdot hon.segments hon.segment_ne_nil
            hon.idles hl)
      · have hmissing := makeDirectory_eq_noEntry he ht hpart hp hon.segments hon.segment_ne_nil
          hon.idles hstart hl
        have hstartq : e.tree.hasDir (e.origin q) = true := by rwa [origin_of_goesOn hon]
        have hdotq : q.EndsInDot → e.tree.hasDir (e.place q) = true := by
          intro hdot
          rwa [place_of_goesOn hon hdot]
        obtain ⟨e₁, hmake, hcompletes⟩ :=
          ih q hparent (isDirectory_of_goesOn hon hp) hstartq hdotq
        exact makeDirectories_after_parent ht hp hdot hparent hon hmissing hmake hcompletes

end Extension

end InterfaceGen.Disk
