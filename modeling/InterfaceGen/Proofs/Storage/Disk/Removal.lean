import InterfaceGen.Proofs.Storage.Disk.Extension

/-! Removal of a directory with all below it. The directory is emptied first and then deleted along
its path, which may be cut by then. What happens is decided by the places on the way to the
directory, so it happens in the same way on any disk on which the path leads there. -/

namespace InterfaceGen

namespace Place

/-- Whether a place lies below another. -/
def isBelow (q o : Place) : Bool := q.isWithin o && q != o

theorem isBelow_of_above {q o : Place} (hq : q.names ≠ []) (h : q.above.isWithin o = true) :
    q.isBelow o = true := by
  rw [isBelow, Bool.and_eq_true, bne_iff_ne]
  refine ⟨isWithin_above_of_isWithin h, ?_⟩
  rintro rfl
  have hlength := (isWithin_iff.mp h).length_le
  have hpos := List.length_pos_of_ne_nil hq
  cases hr : q.rooted <;> simp [components, above, hr] at hlength <;> omega

end Place

namespace Disk

variable {d d' e t : Disk} {p : Path} {o : Place} {segments : List Text}

/-- Whether two disks have the same directories, and the same places taken, along a trail. -/
def Agrees (d e : Disk) (q : Place) (segments : List Text) : Prop := ∀ r ∈ q.trail segments,
  d.tree.hasDir r = e.tree.hasDir r ∧ d.tree.contains r = e.tree.contains r

/-- Disks that agree along a trail lead the same walk. -/
theorem walk_congr {q : Place} (h : d.Agrees e q segments) :
    d.walk q segments = e.walk q segments := by
  induction segments generalizing q with
  | nil => rfl
  | cons s segments ih =>
    have hrest := ih fun r hr => h r (List.mem_cons_of_mem q hr)
    have hq := (h q List.mem_cons_self).1
    have hnext := (h (q.follow s) (List.mem_cons_of_mem q (Place.self_mem_trail _ _))).2
    by_cases hdir : d.tree.hasDir q = true
    · rw [walk_cons hdir, walk_cons (hq ▸ hdir), hnext, hrest]
    · simp [walk, hdir, ← hq]

theorem holder_congr (hcurrent : d.current = e.current) (h : d.Agrees e (d.origin p) p.segments) :
    d.holder p = e.holder p := by
  cases hf : pathFault? p with
  | some fault => simp [holder, hf]
  | none =>
    rcases p.endsWith_or_forall_nil with ⟨above, last, hend⟩ | hnil
    · obtain ⟨k, hs⟩ := hend.segments
      have habove : d.Agrees e (d.origin p) above := by
        intro r hr
        exact h r (hs ▸ Place.mem_trail_append.mpr (Or.inl hr))
      rw [holder_of_endsWith hend hf, holder_of_endsWith hend hf, ← origin_congr hcurrent,
        ← walk_congr habove]
      cases hw : d.walk (d.origin p) above with
      | error fault => rfl
      | ok dir =>
        have hdir := (habove dir (eq_foldl_of_walk hw ▸ Place.foldl_follow_mem_trail _ _)).1
        change (if d.tree.hasDir dir = true then _ else _) =
          if e.tree.hasDir dir = true then _ else _
        rw [hdir]
    · rw [holder_of_forall_nil hnil hf, holder_of_forall_nil hnil hf]

theorem removeDirectory_congr (hcurrent : d.current = e.current)
    (h : d.Agrees e (d.origin p) p.segments) :
    (d.removeDirectory p).map (fun _ => ()) = (e.removeDirectory p).map fun _ => () := by
  have hholder := holder_congr hcurrent h
  rw [removeDirectory, removeDirectory, hholder]
  cases he : e.holder p with
  | error fault => rfl
  | ok found =>
    obtain ⟨dir, _ | _ | _ | n⟩ := found
    · rfl
    · rfl
    · rfl
    · obtain ⟨hdir, hc⟩ := h (dir.child n) (by
        rw [← place_of_holder he, ← place_congr hcurrent]
        exact Place.foldl_follow_mem_trail _ _)
      simp only [bind, Except.bind, hdir, hc]
      split_ifs <;> rfl

/-- The disk with nothing left below `o`. -/
def emptied (d : Disk) (o : Place) : Disk := { d with tree := d.tree.remove (·.isBelow o) }

theorem wellFormed_emptied (hd : d.tree.WellFormed) (ho : o.rooted = true) :
    (d.emptied o).tree.WellFormed := by
  refine hd.remove ?_ fun q _ hq habove => ?_
  · by_contra h
    have h := Bool.and_eq_true_iff.mp (by simpa using h : Place.root.isBelow o = true)
    exact (Place.isWithin_above ho rfl h.1 (bne_iff_ne.mp h.2)).1 rfl
  · exact Place.isBelow_of_above hq (Bool.and_eq_true_iff.mp habove).1

/-- All below `o` has gone from `d`, perhaps `o` itself, and nothing else. -/
structure Clears (d d' : Disk) (o : Place) : Prop where
  wellFormed : d'.tree.WellFormed
  current : d.current = d'.current
  dirs : ∀ q, d'.tree.hasDir q = true → d.tree.hasDir q = true
  dirs_outside : ∀ q, q.isWithin o = false → d.tree.hasDir q = true → d'.tree.hasDir q = true
  below : ∀ q, q.isBelow o = true → d'.tree.hasDir q = false
  files : ∀ q, d'.tree.file? q = if q.isWithin o then none else d.tree.file? q
  locked : ∀ q, d'.tree.isLocked q = true → d.tree.isLocked q = true
  locked_outside : ∀ q, q.isWithin o = false → d'.tree.isLocked q = d.tree.isLocked q

theorem Clears.partOf (h : d.Clears d' o) : d'.PartOf d := by
  refine ⟨h.current.symm, h.dirs, fun q hq => ?_⟩
  rw [h.files] at hq
  split_ifs at hq with hwithin
  · cases hq
  · exact hq

/-- Whatever is left of the directories lies outside of what has been cleared, or is that itself. -/
theorem Clears.outside_or_eq (h : d.Clears d' o) {q : Place} (hq : d'.tree.hasDir q = true) :
    q.isWithin o = false ∨ q = o := by
  by_contra hno
  rw [not_or] at hno
  have hbelow : q.isBelow o = true := by
    rw [Place.isBelow]
    simpa using hno
  rw [h.below q hbelow] at hq
  cases hq

theorem contains_emptied {q : Place} (h : (d.emptied o).tree.contains q = true) :
    d.tree.contains q = true ∧ q.isBelow o = false := by
  simpa [emptied] using h

theorem clears_emptied (hd : d.tree.WellFormed) (ho : d.tree.hasDir o = true) :
    d.Clears (d.emptied o) o := by
  refine ⟨wellFormed_emptied hd (hd.rooted o (Tree.contains_of_hasDir ho)), rfl, ?_, ?_, ?_, ?_,
    ?_, ?_⟩
  · intro q hq
    exact (Bool.and_eq_true_iff.mp (Tree.hasDir_remove ▸ hq)).1
  · intro q hq hdir
    simp [emptied, Place.isBelow, hq, hdir]
  · intro q hq
    simp [emptied, hq]
  · intro q
    by_cases hq : q = o
    · subst hq
      simp [emptied, Place.isBelow, hd.disjoint q ho]
    · simp [emptied, Place.isBelow, hq]
  · intro q hq
    exact (Bool.and_eq_true_iff.mp (Tree.isLocked_remove ▸ hq)).1
  · intro q hq
    simp [emptied, Place.isBelow, hq]

/-- The emptied directory may be deleted itself. -/
theorem Clears.remove_self (h : d.Clears (d.emptied o) o) (ho : o ≠ .root) :
    d.Clears { d.emptied o with tree := (d.emptied o).tree.remove (· == o) } o := by
  have hne : ∀ {q : Place}, q.isWithin o = false → q ≠ o := by
    rintro q hq rfl
    simp at hq
  refine ⟨?_, rfl, ?_, ?_, ?_, ?_, ?_, ?_⟩
  · refine h.wellFormed.remove (by simpa using Ne.symm ho) ?_
    intro q hq hnames habove
    have hbelow : q.isBelow o = true := by
      apply Place.isBelow_of_above hnames
      rw [beq_iff_eq.mp habove, Place.isWithin_refl]
    rw [(contains_emptied hq).2] at hbelow
    cases hbelow
  · intro q hq
    rw [Tree.hasDir_remove] at hq
    exact h.dirs q (Bool.and_eq_true_iff.mp hq).1
  · intro q hq hqdir
    simp [h.dirs_outside q hq hqdir, hne hq]
  · intro q hq
    simp [h.below q hq]
  · intro q
    rw [Tree.file?_remove, h.files]
    by_cases hq : q = o <;> simp [hq]
  · intro q hq
    rw [Tree.isLocked_remove] at hq
    exact h.locked q (Bool.and_eq_true_iff.mp hq).1
  · intro q hq
    simp [h.locked_outside q hq, hne hq]

theorem removeDirectory_eq_ok_iff : d.removeDirectory p = .ok d' ↔
    ∃ dir n, d.holder p = .ok (dir, .name n) ∧ d.tree.hasDir (dir.child n) = true ∧
      d' = { d with tree := d.tree.remove (· == dir.child n) } := by
  rw [removeDirectory, bind_holder_eq_ok_iff]
  · refine exists_congr fun dir => exists_congr fun n => and_congr_right fun _ => ?_
    dsimp only
    constructor
    · intro h
      split_ifs at h with hc hdir
      exact ⟨by simpa using hdir, (Except.ok.inj h).symm⟩
    · rintro ⟨hdir, rfl⟩
      simp [hdir, Tree.contains_of_hasDir hdir]
  · rintro dir (_ | _ | _ | n) h
    all_goals first | exact ⟨n, rfl⟩ | cases h

theorem holdsLocked_eq_false_iff : d.holdsLocked o = false ↔
    ∀ q, d.tree.hasDir q = true → q.isWithin o = true → d.tree.isLocked q = false := by
  simp [holdsLocked, Tree.hasDir_iff_mem]

theorem removeTree_of_isDirectory (h : d.isDirectory p = true)
    (hopen : d.holdsLocked (d.place p) = false) : d.removeTree p =
    match (d.emptied (d.place p)).removeDirectory p with
    | .ok d' => (.ok (), d')
    | .error (.system .noEntry) => (.ok (), d.emptied (d.place p))
    | .error fault => (.error fault, d.emptied (d.place p)) := by
  obtain ⟨hlocate, hdir⟩ := locate_of_isDirectory h
  rw [removeTree, hlocate]
  simp only [hdir, hopen]
  rfl

/-- What has been removed was a directory, and no directory there was locked. -/
theorem isDirectory_of_removeTree (h : d.removeTree p = (.ok (), d')) :
    d.isDirectory p = true ∧ d.holdsLocked (d.place p) = false := by
  unfold removeTree at h
  cases hlocate : d.locate p with
  | error fault => simp [hlocate] at h
  | ok o =>
    simp only [hlocate] at h
    split_ifs at h with hdir hlocked
    · simp at h
    · simp at h
    · rw [← place_of_locate hlocate]
      exact ⟨isDirectory_of_locate hlocate (by simpa using hdir), by simpa using hlocked⟩

/-- What has been removed is gone, and nothing else. -/
theorem removeTree_clears (hd : d.tree.WellFormed) (h : d.removeTree p = (.ok (), d')) :
    d.Clears d' (d.place p) ∧ (p.EndsInDot → d'.tree.hasDir (d.place p) = true) := by
  obtain ⟨hp, hopen⟩ := isDirectory_of_removeTree h
  have hdir := (locate_of_isDirectory hp).2
  have hclears := clears_emptied hd hdir
  have hstays : (d.emptied (d.place p)).tree.hasDir (d.place p) = true := by
    simp [emptied, Place.isBelow, hdir]
  rw [removeTree_of_isDirectory hp hopen] at h
  split at h
  · rename_i d₁ hremove
    obtain ⟨-, rfl⟩ := Prod.mk.inj h
    obtain ⟨dir, n, hholder, hchild, rfl⟩ := removeDirectory_eq_ok_iff.mp hremove
    have hplace : d.place p = dir.child n :=
      (place_congr (e := d.emptied (d.place p)) rfl p).trans (place_of_holder hholder)
    rw [← hplace]
    have hroot : d.place p ≠ .root := by simp [hplace, Place.root, Place.child]
    refine ⟨hclears.remove_self hroot, fun hdot => ?_⟩
    obtain ⟨above, hend⟩ := hdot
    obtain ⟨above', hend', hn, -⟩ := holder_eq_name_iff.mp hholder
    exact absurd (hend'.unique hend).2 hn.ne_here
  · obtain ⟨-, rfl⟩ := Prod.mk.inj h
    exact ⟨hclears, fun _ => hstays⟩
  · simp at h

/-- No lock is left where something has been removed. -/
theorem isLocked_of_removeTree (hd : d.tree.WellFormed) (h : d.removeTree p = (.ok (), d'))
    {q : Place} (hq : q.isWithin (d.place p) = true) : d'.tree.isLocked q = false := by
  obtain ⟨hclears, -⟩ := removeTree_clears hd h
  obtain ⟨-, hopen⟩ := isDirectory_of_removeTree h
  by_contra hlocked
  rw [Bool.not_eq_false] at hlocked
  have hdir : d'.tree.hasDir q = true := by
    refine (Tree.contains_iff.mp (hclears.wellFormed.locked q hlocked)).resolve_right ?_
    simp [hclears.files, hq]
  have hopen' := holdsLocked_eq_false_iff.mp hopen q (hclears.dirs q hdir) hq
  rw [hclears.locked q hlocked] at hopen'
  cases hopen'

/-- What comes of a removal, and whether the directory itself stays, is decided when the emptied one
is deleted. -/
theorem outcome_of_isDirectory (h : d.isDirectory p = true)
    (hopen : d.holdsLocked (d.place p) = false) :
    ((d.removeTree p).1, (d.removeTree p).2.tree.hasDir (d.place p)) =
      match ((d.emptied (d.place p)).removeDirectory p).map fun _ => () with
      | .ok () => (.ok (), false)
      | .error (.system .noEntry) => (.ok (), true)
      | .error fault => (.error fault, true) := by
  have hstays : (d.emptied (d.place p)).tree.hasDir (d.place p) = true := by
    simp [emptied, Place.isBelow, (locate_of_isDirectory h).2]
  rw [removeTree_of_isDirectory h hopen]
  cases hremove : (d.emptied (d.place p)).removeDirectory p with
  | ok t =>
    obtain ⟨dir, n, hholder, -, rfl⟩ := removeDirectory_eq_ok_iff.mp hremove
    have hplace : d.place p = dir.child n :=
      (place_congr (e := d.emptied (d.place p)) rfl p).trans (place_of_holder hholder)
    simp [Except.map, hplace]
  | error fault =>
    simp only [Except.map]
    split <;> simp_all

/-- On any two disks on which a path leads to a directory without locked ones, its removal has the
same outcome, and the directory itself stays on both or goes from both. -/
theorem removeTree_congr (hd : d.tree.WellFormed) (he : e.tree.WellFormed)
    (hcurrent : d.current = e.current) (hdp : d.isDirectory p = true)
    (hep : e.isDirectory p = true) (hdopen : d.holdsLocked (d.place p) = false)
    (heopen : e.holdsLocked (e.place p) = false) :
    (d.removeTree p).1 = (e.removeTree p).1 ∧
      (d.removeTree p).2.tree.hasDir (d.place p) = (e.removeTree p).2.tree.hasDir (e.place p) := by
  have hagrees :
      (d.emptied (d.place p)).Agrees (e.emptied (e.place p)) (d.origin p) p.segments := by
    intro r hr
    have hdr := (isDirectory_iff.mp hdp).2.dirs r hr
    have her := (isDirectory_iff.mp hep).2.dirs r (origin_congr hcurrent p ▸ hr)
    rw [← place_congr hcurrent p]
    simp [emptied, Tree.contains, hdr, her, hd.disjoint r hdr, he.disjoint r her]
  have hremove := removeDirectory_congr (d := d.emptied (d.place p)) (e := e.emptied (e.place p))
    hcurrent hagrees
  apply Prod.mk.inj
  rw [outcome_of_isDirectory hdp hdopen, outcome_of_isDirectory hep heopen, hremove]

section Deletion

variable {above : List Text} {last : Text} (hd : d.tree.WellFormed) (hp : d.isDirectory p = true)
  (hend : p.EndsWith above last)

include hd hp hend

/-- The walk to a directory whose contents have been removed still leads there, or is cut. -/
theorem leads_emptied_or_noEntry (hstart : (d.origin p).isWithin (d.place p) = false) :
    (d.emptied (d.place p)).Leads (d.origin p) above ∨
      (d.emptied (d.place p)).walk (d.origin p) above = .error (.system .noEntry) := by
  obtain ⟨hf, hl⟩ := isDirectory_iff.mp hp
  obtain ⟨habove, -, hdir⟩ := (leads_of_endsWith hend).mp hl
  refine leads_or_noEntry (clears_emptied hd hdir).wellFormed ?_ habove.fits fun q hq hc => ?_
  · simp [emptied, Place.isBelow, hstart, hl.hasDir_start]
  · simp [emptied, habove.dirs q hq, (contains_emptied hc).2]

/-- If the walk is not cut, it does not come back from below, so the last step is not upwards. -/
theorem ne_up_of_leads_emptied (hroot : d.place p ≠ .root)
    (hleads : (d.emptied (d.place p)).Leads (d.origin p) above) : last ≠ ['.', '.'] := by
  rintro rfl
  have hplace := place_of_endsWith (d := d) hend
  have hwf := (clears_emptied hd (locate_of_isDirectory hp).2).wellFormed
  have hdir := hleads.hasDir_end
  rw [Place.follow_up] at hplace
  by_cases hnames : (above.foldl Place.follow (d.origin p)).names = []
  · have hrooted := hwf.rooted _ (Tree.contains_of_hasDir hdir)
    refine absurd (hplace.trans ?_) hroot
    rw [Place.above, hnames]
    exact congrArg (Place.mk · []) hrooted
  · have hbelow : (above.foldl Place.follow (d.origin p)).isBelow (d.place p) = true := by
      apply Place.isBelow_of_above hnames
      rw [← hplace, Place.isWithin_refl]
    rw [(clears_emptied hd (locate_of_isDirectory hp).2).below _ hbelow] at hdir
    cases hdir

omit hd in
theorem removeDirectory_emptied (hentry : Path.IsEntry last)
    (hleads : (d.emptied (d.place p)).Leads (d.origin p) above) :
    ∃ d', (d.emptied (d.place p)).removeDirectory p = .ok d' := by
  obtain ⟨hf, -⟩ := isDirectory_iff.mp hp
  have hplace := place_of_endsWith (d := d) hend
  rw [Place.follow_of_isEntry hentry] at hplace
  have hholder : (d.emptied (d.place p)).holder p =
      .ok (above.foldl Place.follow (d.origin p), .name last) :=
    holder_eq_name_iff.mpr ⟨above, hend, hentry, hf, hleads, rfl⟩
  refine ⟨_, removeDirectory_eq_ok_iff.mpr ⟨_, last, hholder, ?_, rfl⟩⟩
  rw [← hplace]
  simp [emptied, Place.isBelow, (locate_of_isDirectory hp).2]

end Deletion

/-- A removal succeeds if it deletes or cuts off the path itself, no directory there is locked, and
the path does not begin below what is removed. -/
theorem removeTree_of_not_endsInDot (hd : d.tree.WellFormed) (hp : d.isDirectory p = true)
    (hopen : d.holdsLocked (d.place p) = false)
    (hdot : ¬p.EndsInDot) (hroot : d.place p ≠ .root)
    (hstart : (d.origin p).isWithin (d.place p) = false) : ∃ d', d.removeTree p = (.ok (), d') := by
  obtain ⟨hf, -⟩ := isDirectory_iff.mp hp
  rw [removeTree_of_isDirectory hp hopen]
  rcases p.endsWith_or_forall_nil with ⟨above, last, hend⟩ | hnil
  · rcases leads_emptied_or_noEntry hd hp hend hstart with hleads | hcut
    · have hentry := hend.isEntry (fun hhere => hdot ⟨above, hhere ▸ hend⟩)
        (ne_up_of_leads_emptied hd hp hend hroot hleads)
      obtain ⟨d', hremove⟩ := removeDirectory_emptied hp hend hentry hleads
      exact ⟨d', by rw [hremove]⟩
    · have hremove : (d.emptied (d.place p)).removeDirectory p = .error (.system .noEntry) := by
        rw [removeDirectory, holder_of_endsWith hend hf]
        change (d.emptied (d.place p)).walk (d.origin p) above >>= _ >>= _ = _
        rw [hcut]
        rfl
      exact ⟨d.emptied (d.place p), by rw [hremove]⟩
  · exact absurd (place_of_forall_nil hnil hf) hroot

end Disk

end InterfaceGen
