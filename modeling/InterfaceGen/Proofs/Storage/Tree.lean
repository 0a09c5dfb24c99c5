import InterfaceGen.Proofs.Path.Segments
import InterfaceGen.Storage.Tree

/-! What the operations on trees do to a single place, and the shape of a tree as an operating
system keeps it: from the root on, directory within directory, and no place a directory and a file.
-/

namespace InterfaceGen

namespace Place

variable {p q : Place} {n : Text}

@[simp] theorem names_child : (p.child n).names = p.names ++ [n] := rfl

@[simp] theorem above_child : (p.child n).above = p := by
  simp [child, above]

theorem isWithin_iff : p.isWithin q = true ↔ q.components <+: p.components := by
  simp [isWithin]

@[simp] theorem isWithin_refl (p : Place) : p.isWithin p = true := by
  simp [isWithin_iff]

theorem rooted_of_isWithin (hq : q.rooted = true) (h : p.isWithin q = true) : p.rooted = true := by
  by_contra hp
  rw [isWithin_iff] at h
  cases hn : p.names <;> simp [components, hq, hp, hn] at h

theorem isWithin_append (p : Place) (names : List Text) :
    (⟨p.rooted, p.names ++ names⟩ : Place).isWithin p = true := by
  rw [isWithin_iff, components, components, List.map_append, ← List.append_assoc]
  exact List.prefix_append _ _

theorem isWithin_above_of_isWithin (h : p.above.isWithin q = true) : p.isWithin q = true := by
  rw [isWithin_iff] at *
  refine h.trans ?_
  unfold components above
  rw [List.prefix_append_right_inj]
  exact (List.dropLast_prefix p.names).map _

/-- A place strictly within a rooted one has a name to take away, and stays within. -/
theorem isWithin_above {q : Place} (hq : q.rooted = true) (hp : p.rooted = true)
    (h : p.isWithin q = true) (hne : p ≠ q) : p.names ≠ [] ∧ p.above.isWithin q = true := by
  have hbegins : q.names <+: p.names := by
    have hmap : q.names.map Component.name <+: p.names.map Component.name := by
      simpa [isWithin_iff, components, hq, hp] using h
    exact (List.prefix_map_iff_of_injective fun a b hab => Component.name.inj hab).mp hmap
  have hnames : q.names ≠ p.names := by
    intro hnames
    exact hne (by cases p; cases q; simp_all)
  have hdrop : q.names <+: p.names.dropLast := by
    obtain ⟨rest, hrest⟩ := hbegins
    rcases List.eq_nil_or_concat rest with rfl | ⟨front, last, rfl⟩
    · exact absurd (by simpa using hrest) hnames
    · exact ⟨front, by simp [← hrest, ← List.append_assoc]⟩
  constructor
  · intro hnil
    rw [hnil] at hdrop hnames
    exact hnames (List.prefix_nil.mp hdrop)
  · simpa [isWithin_iff, components, hq, hp, above] using hdrop.map Component.name

end Place

namespace Tree

variable {α : Type} {t : Tree α} {p q : Place} {c : α}

@[simp] theorem hasDir_addDir : (t.addDir p).hasDir q = (t.hasDir q || q == p) := by
  unfold addDir
  split_ifs with h
  · by_cases hq : q = p
    · simp [hq, h]
    · simp [hq]
  · rw [Bool.eq_iff_iff]
    simp [hasDir]

@[simp] theorem files_addDir : (t.addDir p).files = t.files := by
  unfold addDir
  split_ifs <;> rfl

@[simp] theorem file?_addDir : (t.addDir p).file? q = t.file? q := by
  simp [file?]

@[simp] theorem hasDir_addFile : (t.addFile p c).hasDir q = t.hasDir q := rfl

theorem lookup_filter_ne {l : List (Place × α)} (h : q ≠ p) :
    (l.filter (·.1 != p)).lookup q = l.lookup q := by
  induction l with
  | nil => rfl
  | cons e l ih =>
    by_cases he : e.1 = p
    · have hq : (q == e.1) = false := by simp [he, h]
      rw [List.filter_cons_of_neg (by simp [he]), ih, List.lookup_cons, hq]
    · rw [List.filter_cons_of_pos (by simp [he]), List.lookup_cons, List.lookup_cons, ih]

@[simp] theorem file?_addFile :
    (t.addFile p c).file? q = if q = p then some c else t.file? q := by
  unfold file? addFile
  rw [List.lookup_append]
  split_ifs with h
  · subst h
    have hnone : (t.files.filter (·.1 != q)).lookup q = none := by
      rw [List.lookup_eq_none_iff]
      intro e he
      have hne : e.1 ≠ q := by simpa using (List.mem_filter.mp he).2
      simpa using hne.symm
    rw [hnone, Option.none_or, List.lookup_cons_self]
  · have hq : (q == p) = false := beq_eq_false_iff_ne.mpr h
    rw [lookup_filter_ne h, List.lookup_cons, hq, List.lookup_nil, Option.or_none]

variable {gone : Place → Bool}

@[simp] theorem hasDir_remove : (t.remove gone).hasDir q = (t.hasDir q && !gone q) := by
  rw [Bool.eq_iff_iff]
  simp [hasDir, remove]

@[simp] theorem file?_remove :
    (t.remove gone).file? q = if gone q = true then none else t.file? q := by
  unfold file? remove
  induction t.files with
  | nil => simp
  | cons e l ih =>
    by_cases he : gone e.1 = true
    · rw [List.filter_cons_of_neg (by simp [he]), ih]
      split_ifs with hq
      · rfl
      · have hne : (q == e.1) = false := by
          rw [beq_eq_false_iff_ne]
          rintro rfl
          exact hq he
        rw [List.lookup_cons, hne]
    · rw [List.filter_cons_of_pos (by simp [he]), List.lookup_cons, List.lookup_cons, ih]
      by_cases hq : q = e.1
      · subst hq
        simp [he]
      · rw [beq_eq_false_iff_ne.mpr hq]

theorem contains_iff : t.contains p = true ↔ t.hasDir p = true ∨ (t.file? p).isSome = true := by
  simp [contains]

theorem contains_of_hasDir (h : t.hasDir p = true) : t.contains p = true :=
  contains_iff.mpr (Or.inl h)

theorem contains_of_isSome_file? (h : (t.file? p).isSome = true) : t.contains p = true :=
  contains_iff.mpr (Or.inr h)

@[simp] theorem contains_addDir : (t.addDir p).contains q = (t.contains q || q == p) := by
  simp [contains, Bool.or_right_comm]

@[simp] theorem contains_addFile : (t.addFile p c).contains q = (t.contains q || q == p) := by
  by_cases hq : q = p <;> simp [contains, hq]

@[simp] theorem contains_remove : (t.remove gone).contains q = (t.contains q && !gone q) := by
  cases hg : gone q <;> simp [contains, hg]

@[simp] theorem isLocked_addDir : (t.addDir p).isLocked q = t.isLocked q := by
  unfold addDir
  split_ifs <;> rfl

@[simp] theorem isLocked_addFile : (t.addFile p c).isLocked q = t.isLocked q := rfl

@[simp] theorem isLocked_remove : (t.remove gone).isLocked q = (t.isLocked q && !gone q) := by
  rw [Bool.eq_iff_iff]
  simp [isLocked, remove]

/-- Whatever must be a directory for something to lie where it does is one. -/
def Closed (t : Tree α) : Prop :=
  ∀ p, t.contains p = true → ∀ q, p.parent? = some q → t.hasDir q = true

/-- In a closed tree, what lies within a place is there only if that place is. -/
theorem Closed.contains_of_isWithin (h : t.Closed) {q o : Place} (ho : o.rooted = true)
    (hq : t.contains q = true) (hw : q.isWithin o = true) : t.contains o = true := by
  by_cases hqo : q = o
  · rwa [← hqo]
  · have hrooted := Place.rooted_of_isWithin ho hw
    obtain ⟨hnames, habove⟩ := Place.isWithin_above ho hrooted hw hqo
    have hparent : q.parent? = some q.above := by
      simp [Place.parent?, hnames, Place.above, Place.start, hrooted]
    exact h.contains_of_isWithin ho (contains_of_hasDir (h q hq _ hparent)) habove
termination_by q.names.length
decreasing_by
  have := List.length_pos_of_ne_nil hnames
  simp only [Place.above, List.length_dropLast]
  omega

/-- The shape of a tree on a disk. -/
structure WellFormed (t : Tree α) : Prop where
  root : t.hasDir .root = true
  rooted : ∀ p, t.contains p = true → p.rooted = true
  entries : ∀ p, t.contains p = true → ∀ n ∈ p.names, Path.IsEntry n
  above : ∀ p, t.contains p = true → p.names ≠ [] → t.hasDir p.above = true
  disjoint : ∀ p, t.hasDir p = true → t.file? p = none
  dirs_nodup : t.dirs.Nodup
  files_nodup : (t.files.map (·.1)).Nodup
  locked : ∀ p, t.isLocked p = true → t.contains p = true

theorem WellFormed.closed (h : t.WellFormed) : t.Closed := by
  intro p hp q hq
  unfold Place.parent? at hq
  split_ifs at hq with hnames
  rw [← Option.some.inj hq]
  exact h.above p hp (by simpa using hnames)

theorem isSome_file?_iff : (t.file? p).isSome = true ↔ p ∈ t.files.map (·.1) := by
  unfold file?
  rw [Option.isSome_iff_ne_none, Ne, List.lookup_eq_none_iff]
  push Not
  rw [List.mem_map]
  refine exists_congr fun f => and_congr_right fun _ => ?_
  rw [Ne, Bool.not_eq_true, bne_eq_false_iff_eq]
  exact eq_comm

theorem hasDir_iff_mem : t.hasDir p = true ↔ p ∈ t.dirs := by
  simp [hasDir]

/-- All places at which a tree has something. -/
def places (t : Tree α) : List Place := t.dirs ++ t.files.map (·.1)

theorem contains_iff_mem : t.contains p = true ↔ p ∈ t.places := by
  rw [contains_iff, hasDir_iff_mem, isSome_file?_iff, places, List.mem_append]

theorem WellFormed.nodup_places (h : t.WellFormed) : t.places.Nodup := by
  refine List.Nodup.append h.dirs_nodup h.files_nodup fun q hq hq' => ?_
  rw [← isSome_file?_iff, h.disjoint q (hasDir_iff_mem.mpr hq)] at hq'
  cases hq'

/-- The shape of a tree can be checked place by place. -/
theorem wellFormed_iff : t.WellFormed ↔ t.hasDir .root = true ∧ t.places.Nodup ∧
    (∀ p ∈ t.places, p.rooted = true ∧ (∀ n ∈ p.names, Path.IsEntry n) ∧
      (p.names ≠ [] → t.hasDir p.above = true)) ∧
    ∀ p ∈ t.locked, t.contains p = true := by
  have hlocked : ∀ p, t.isLocked p = true ↔ p ∈ t.locked := fun p => List.contains_iff_mem
  constructor
  · intro h
    refine ⟨h.root, h.nodup_places, fun p hp => ?_, fun p hp => h.locked p ((hlocked p).mpr hp)⟩
    have hc := contains_iff_mem.mpr hp
    exact ⟨h.rooted p hc, h.entries p hc, h.above p hc⟩
  · rintro ⟨hroot, hnodup, hplaces, hopen⟩
    have hp : ∀ p, t.contains p = true → _ := fun p hc => hplaces p (contains_iff_mem.mp hc)
    obtain ⟨hdirs, hfiles, hdisjoint⟩ := List.nodup_append.mp hnodup
    refine ⟨hroot, fun p hc => (hp p hc).1, fun p hc => (hp p hc).2.1, fun p hc => (hp p hc).2.2,
      fun p hdir => ?_, hdirs, hfiles, fun p hp => hopen p ((hlocked p).mp hp)⟩
    by_contra hfile
    have hmem := isSome_file?_iff.mp (Option.isSome_iff_ne_none.mpr hfile)
    exact hdisjoint p (hasDir_iff_mem.mp hdir) p hmem rfl

theorem closed_iff : t.Closed ↔ ∀ p ∈ t.places, ∀ q ∈ p.parent?, t.hasDir q = true :=
  ⟨fun h p hp => h p (contains_iff_mem.mpr hp), fun h p hp => h p (contains_iff_mem.mp hp)⟩

instance (t : Tree α) : Decidable t.Closed := decidable_of_iff _ closed_iff.symm

instance (t : Tree α) : Decidable t.WellFormed := decidable_of_iff _ wellFormed_iff.symm

namespace WellFormed

variable (h : t.WellFormed)

include h

theorem hasDir_above (hp : t.hasDir p = true) : t.hasDir p.above = true := by
  by_cases hn : p.names = []
  · have hp' : p.above = p := by
      cases p
      simp_all [Place.above]
    rw [hp', hp]
  · exact h.above p (contains_of_hasDir hp) hn

/-- What lies within a place is there only if that place is. -/
theorem contains_of_isWithin {q o : Place} (ho : o.rooted = true) (hq : t.contains q = true)
    (hw : q.isWithin o = true) : t.contains o = true :=
  h.closed.contains_of_isWithin ho hq hw

/-- Where a place is free, nothing lies within it. -/
theorem outside_of_not_contains {q o : Place} (ho : o.rooted = true) (hfree : t.contains o = false)
    (hq : t.contains q = true) : q.isWithin o = false := by
  by_contra hwithin
  rw [h.contains_of_isWithin ho hq (by simpa using hwithin)] at hfree
  cases hfree

/-- If an entry of a directory is all that a tree has in addition, each of its places has the shape.
-/
theorem shape_of_contains {n : Text} {t' : Tree α} (hp : t.hasDir p = true) (hn : Path.IsEntry n)
    (hcases : ∀ q, t'.contains q = true → t.contains q = true ∨ q = p.child n) {q : Place}
    (hq : t'.contains q = true) : q.rooted = true ∧ (∀ m ∈ q.names, Path.IsEntry m) ∧
      (q.names ≠ [] → t.hasDir q.above = true) := by
  have hcp : t.contains p = true := contains_of_hasDir hp
  rcases hcases q hq with hq | rfl
  · exact ⟨h.rooted q hq, h.entries q hq, h.above q hq⟩
  · refine ⟨h.rooted p hcp, fun m hm => ?_, fun _ => by simpa using hp⟩
    rcases List.mem_append.mp hm with hm | hm
    · exact h.entries p hcp m hm
    · exact List.mem_singleton.mp hm ▸ hn

/-- A new directory within a directory keeps the shape. -/
theorem addDir {n : Text} (hp : t.hasDir p = true) (hn : Path.IsEntry n)
    (hnew : t.contains (p.child n) = false) : (t.addDir (p.child n)).WellFormed := by
  have hnodir : t.hasDir (p.child n) = false := by
    by_contra hdir
    simp [contains, Bool.not_eq_false _ ▸ hdir] at hnew
  have hcases : ∀ q, (t.addDir (p.child n)).contains q = true →
      t.contains q = true ∨ q = p.child n := by
    intro q hq
    simpa using hq
  have hshape := fun q hq => h.shape_of_contains hp hn hcases (q := q) hq
  refine ⟨by simp [h.root], fun q hq => (hshape q hq).1, fun q hq => (hshape q hq).2.1,
    fun q hq hnames => ?_, fun q hq => ?_, ?_, by simpa using h.files_nodup, fun q hq => ?_⟩
  · simp [(hshape q hq).2.2 hnames]
  · simp only [hasDir_addDir, Bool.or_eq_true, beq_iff_eq] at hq
    rw [file?_addDir]
    rcases hq with hq | rfl
    · exact h.disjoint q hq
    · by_contra hfile
      simp [contains, Option.isSome_iff_ne_none.mpr hfile] at hnew
  · unfold Tree.addDir
    rw [if_neg (by simp [hnodir])]
    refine List.Nodup.append h.dirs_nodup (List.nodup_singleton _) ?_
    intro q hq hq'
    rw [List.mem_singleton.mp hq'] at hq
    simp [hasDir, hq] at hnodir
  · simp [h.locked q (isLocked_addDir ▸ hq)]

/-- A file in a directory keeps the shape, unless a directory is in its place. -/
theorem addFile {n : Text} (hp : t.hasDir p = true) (hn : Path.IsEntry n)
    (hnew : t.hasDir (p.child n) = false) (c : α) : (t.addFile (p.child n) c).WellFormed := by
  have hcases : ∀ q, (t.addFile (p.child n) c).contains q = true →
      t.contains q = true ∨ q = p.child n := by
    intro q hq
    simpa using hq
  have hshape := fun q hq => h.shape_of_contains hp hn hcases (q := q) hq
  refine ⟨h.root, fun q hq => (hshape q hq).1, fun q hq => (hshape q hq).2.1,
    fun q hq => (hshape q hq).2.2, fun q hq => ?_, h.dirs_nodup, ?_, fun q hq => ?_⟩
  · rw [hasDir_addFile] at hq
    have hne : q ≠ p.child n := by
      rintro rfl
      simp [hq] at hnew
    simp [hne, h.disjoint q hq]
  · simp only [Tree.addFile, List.map_append, List.map_cons, List.map_nil]
    refine List.Nodup.append (h.files_nodup.sublist (List.filter_sublist.map _))
      (List.nodup_singleton _) ?_
    intro q hq hq'
    obtain ⟨e, he, rfl⟩ := List.mem_map.mp hq
    simpa [List.mem_singleton.mp hq'] using (List.mem_filter.mp he).2
  · simp [h.locked q hq]

/-- Removal keeps the shape if with a directory goes what lies in it, and the root stays. -/
theorem remove (hroot : gone .root = false)
    (hgone : ∀ p, t.contains p = true → p.names ≠ [] → gone p.above = true → gone p = true) :
    (t.remove gone).WellFormed := by
  have contains_of : ∀ q, (t.remove gone).contains q = true →
      t.contains q = true ∧ gone q = false := by
    intro q hq
    simpa using hq
  refine ⟨by simp [h.root, hroot], ?_, ?_, ?_, ?_, ?_, ?_, ?_⟩
  · exact fun q hq => h.rooted q (contains_of q hq).1
  · exact fun q hq => h.entries q (contains_of q hq).1
  · intro q hq hnames
    obtain ⟨hq, hstays⟩ := contains_of q hq
    have habove : gone q.above = false := by
      by_contra hg
      rw [hgone q hq hnames (by simpa using hg)] at hstays
      exact Bool.noConfusion hstays
    simp [h.above q hq hnames, habove]
  · intro q hq
    rw [hasDir_remove, Bool.and_eq_true] at hq
    simp [h.disjoint q hq.1]
  · exact h.dirs_nodup.filter _
  · exact h.files_nodup.sublist (List.filter_sublist.map _)
  · intro q hq
    rw [isLocked_remove, Bool.and_eq_true] at hq
    simpa [h.locked q hq.1] using hq.2

end WellFormed

end Tree

end InterfaceGen
