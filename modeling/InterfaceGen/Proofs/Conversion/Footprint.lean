import InterfaceGen.Proofs.Conversion.Preparation
import InterfaceGen.Proofs.Source.Placement

/-! The directories that a conversion leaves behind. Once the output directory is there, writing the
files makes none but those of their groups, as long as no extension leads further down. -/

namespace InterfaceGen

namespace Place

/-- On the way to a file of a group there is only the directory of the group. -/
theorem mem_trail_groupDirs {o y : Place} {group file : Text}
    (hgroup : group = [] ∨ Path.IsVisible group)
    (h : y ∈ o.trail (groupDirs group ++ [file])) :
    y = o ∨ y = o.group group ∨ y = (groupDirs group ++ [file]).foldl follow o := by
  have hdirs : (groupDirs group).foldl follow o = o.group group := by
    rcases hgroup with rfl | hgroup
    · rfl
    · simp [groupDirs, Place.group, hgroup.ne_nil, follow_of_isEntry hgroup.isEntry]
  have htrail : y ∈ o.trail (groupDirs group) → y = o ∨ y = o.group group := by
    rcases hgroup with rfl | hgroup
    · exact fun h => Or.inl (by simpa [groupDirs] using h)
    · simp [groupDirs, Place.group, hgroup.ne_nil, follow_of_isEntry hgroup.isEntry]
  rw [List.foldl_append, hdirs]
  rw [mem_trail_append, hdirs] at h
  rcases h with h | h
  · rcases htrail h with h | h
    · exact Or.inl h
    · exact Or.inr (Or.inl h)
  · simpa using Or.inr h

end Place

namespace Generation

variable {dates : Bool} {layout : Layout} {sources : List Source}

/-- Every file lies in the directory of the group of its source. -/
theorem exists_source_of_mem_files (hs : ∀ s ∈ sources, IsPlaced s.group s.name)
    (he : '/' ∉ layout.extension) {f : GeneratedFile}
    (hf : f ∈ (ofSources dates layout sources).files) : ∃ s ∈ sources, f.path =
      .ofSegments (groupDirs s.group ++ [Identifier.camel s.name ++ '.' :: layout.extension]) := by
  obtain ⟨i, hi, rfl⟩ := List.mem_map.mp hf
  obtain ⟨s, hmem, rfl⟩ := mem_interfaces_catalogue.mp hi
  exact ⟨s, hmem, outputPath_eq_ofSegments _ (hs s hmem).isNamed he⟩

variable {output : Path} {p t : Disk}

/-- Where the output directory is there, the directories that are made for the files are those of
the groups of their sources. -/
theorem hasDir_of_putsAll (hp : p.tree.WellFormed)
    (hs : ∀ s ∈ sources, IsPlaced s.group s.name) (he : '/' ∉ layout.extension)
    (hputs : p.PutsAll ((ofSources dates layout sources).files.map (GeneratedFile.target output)) t)
    (houtput : ∀ y ∈ (p.origin output).trail output.segments, p.tree.hasDir y = true) {y : Place}
    (hy : t.tree.hasDir y = true) :
    p.tree.hasDir y = true ∨ ∃ s ∈ sources, y = (p.place output).group s.group := by
  obtain ⟨ht, hpart, haccepts, -⟩ := hputs.spec hp
  rcases hputs.hasDir_cases hp hy with hold | ⟨target, htarget, htrail⟩
  · exact Or.inl hold
  · obtain ⟨f, hf, rfl⟩ := List.mem_map.mp htarget
    obtain ⟨s, hmem, hpath⟩ := exists_source_of_mem_files hs he hf
    have hentries := isEntry_of_mem_outputPath (hs s hmem) he
    have hsegments : f.path.segments =
        groupDirs s.group ++ [Identifier.camel s.name ++ '.' :: layout.extension] := by
      rw [hpath, Path.segments_ofSegments (by simp) fun n hn => (hentries n hn).noSlash]
    have hrelative : f.path.isAbsolute = false := by
      obtain ⟨first, rest, hnames⟩ := List.exists_cons_of_ne_nil (l := groupDirs s.group ++ _)
        (List.append_ne_nil_of_right_ne_nil _ (List.cons_ne_nil _ _))
      have hfirst := hentries first (hnames ▸ List.mem_cons_self)
      rw [hpath, hnames, Path.isAbsolute_ofSegments hfirst.ne_nil hfirst.noSlash]
    change y ∈ (p.origin (output.join f.path)).trail (output.join f.path).segments at htrail
    rcases (Disk.mem_trail_join hrelative).mp htrail with htrail | htrail
    · exact Or.inl (houtput y htrail)
    · rw [hsegments] at htrail
      rcases Place.mem_trail_groupDirs (hs s hmem).group htrail with rfl | hgroup | hfile
      · exact Or.inl (houtput _ (Place.foldl_follow_mem_trail _ _))
      · exact Or.inr ⟨s, hmem, hgroup⟩
      · -- the file itself is no directory
        have hplace : t.place (GeneratedFile.target output f).1 = y := by
          rw [← Disk.place_congr hpart.current, hfile, ← hsegments]
          exact Disk.place_join hrelative
        have hwritten := (haccepts _ htarget).file
        rw [hplace, ht.disjoint y hy] at hwritten
        cases hwritten

end Generation

namespace Plan.Preparation

variable {plan : Plan} {d d₁ d₂ p : Disk} (hprep : plan.Preparation d d₁ d₂ p)

include hprep

/-- After the preparation, the walk to the output directory finds directories only. -/
theorem hasDir_of_mem_trail (hd : d.tree.WellFormed) (hcurrent : d.tree.hasDir d.current = true)
    {y : Place} (hy : y ∈ (p.origin plan.output).trail plan.output.segments) :
    p.tree.hasDir y = true := by
  obtain ⟨-, hgrows₁, hd₂, hsame⟩ := hprep.wellFormed hd
  obtain ⟨hp, hgrows, hdir⟩ := Disk.makeDirectories_grows hd₂ hprep.made
  rcases hdir rfl with hnone | ⟨hdir, -⟩
  · obtain ⟨hempty | habs, hidle⟩ := Path.of_parent?_eq_none hnone
    · -- no such directory has been cleared, so the current one is still there
      obtain rfl := (Place.mem_trail_of_isIdle hidle).mp hy
      have hrelative : plan.output.isAbsolute = false := by simp [Path.isAbsolute, hempty]
      have horigin : p.origin plan.output = d.current := by
        rw [Disk.origin, hrelative, if_neg Bool.false_ne_true, ← hgrows.current, ← hsame,
          ← hgrows₁.current]
      rw [horigin]
      rcases hprep.cleared_or_kept with ⟨-, -, hremove⟩ | ⟨-, rfl⟩
      · obtain ⟨hdir, -⟩ := Disk.isDirectory_of_removeTree hremove
        have hf := (Disk.isDirectory_iff.mp hdir).1
        simp [Disk.pathFault?, hempty] at hf
      · exact hgrows.dirs _ (hgrows₁.dirs _ hcurrent)
    · obtain rfl := (Place.mem_trail_of_isIdle hidle).mp hy
      rw [Disk.origin, if_pos habs]
      exact hp.root
  · exact (Disk.isDirectory_iff.mp hdir).2.dirs y hy

/-- The files make no new directory in the working directory: a group has been read there already,
and the output directory has been made before. -/
theorem hasDir_child_of_putsAll {t : Disk} {sources : List Source} (hd : d.tree.WellFormed)
    (hcurrent : d.tree.hasDir d.current = true) (he : '/' ∉ plan.layout.extension)
    (hload : p.load plan.selection plan.working = .ok sources)
    (hputs : p.PutsAll ((Generation.ofSources plan.dates plan.layout sources).files.map
      (GeneratedFile.target plan.output)) t) {g : Text}
    (hg : t.tree.hasDir ((p.place plan.working).child g) = true) :
    p.tree.hasDir ((p.place plan.working).child g) = true := by
  obtain ⟨-, -, hd₂, -⟩ := hprep.wellFormed hd
  obtain ⟨hp, -, -⟩ := Disk.makeDirectories_grows hd₂ hprep.made
  have houtput := fun y => hprep.hasDir_of_mem_trail hd hcurrent (y := y)
  rcases Generation.hasDir_of_putsAll hp (Disk.isPlaced_of_load hp hload) he hputs houtput hg with
    hold | ⟨s, hs, hgroup⟩
  · exact hold
  · rw [hgroup]
    unfold Place.group at hgroup ⊢
    split_ifs at hgroup ⊢ with hempty
    · exact houtput _ (Place.foldl_follow_mem_trail _ _)
    · have hread := Disk.hasDir_group_of_load hp hload hs
      rw [Place.group, if_neg hempty] at hread
      have hsame : p.place plan.working = p.place plan.output := by
        simpa using congrArg Place.above hgroup
      rwa [← hsame]

end Plan.Preparation

end InterfaceGen
