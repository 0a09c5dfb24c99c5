import InterfaceGen.Proofs.Interface.ImportPath
import InterfaceGen.Proofs.Source.Loading
import InterfaceGen.Proofs.Text.Trimming

/-! Where sources come from. A source that has been loaded stands for a class file that is selected,
and its group and its name are made from the names of two entries that are not hidden. So they are
fit for the paths of the generated files. -/

namespace InterfaceGen

namespace Path

theorem IsVisible.of_isPrefix {n t : Text} (h : IsVisible n) (ht : t <+: n) (hne : t ≠ []) :
    IsVisible t := by
  have hshown := h.shown
  obtain ⟨rest, rfl⟩ := ht
  rw [FileName.isHidden, List.head?_append_of_ne_nil _ hne] at hshown
  exact ⟨hne, fun hslash => h.noSlash (List.mem_append_left rest hslash), hshown⟩

theorem IsEntry.isVisible {n : Text} (h : IsEntry n) (hshown : FileName.isHidden n = false) :
    IsVisible n := ⟨h.ne_nil, h.noSlash, hshown⟩

theorem fileName?_of_isEntry {n : Text} (h : IsEntry n) : (⟨n⟩ : Path).fileName? = some n := by
  rw [← ofSegments_singleton, fileName?, components_ofSegments (by simpa using h.noSlash)
    (by simpa using h.isIdle)]
  simp [h.ofSegment]

end Path

/-- The stem of a file name is what it begins with. -/
theorem FileName.stem_spec (n : Text) : stem n <+: n ∧ (n ≠ [] → stem n ≠ []) := by
  unfold stem cut
  split
  next => exact ⟨List.prefix_refl n, id⟩
  next extension rest h =>
    split_ifs with hempty
    · exact ⟨List.prefix_refl n, id⟩
    · have hn := congrArg List.reverse (Text.eq_of_splitAt?_eq_some h)
      rw [List.reverse_reverse, List.reverse_append, List.reverse_cons, List.append_assoc] at hn
      exact ⟨⟨_, hn.symm⟩, fun _ => by simpa using hempty⟩

namespace Selection

variable {suffix? : Option Text} {n stem : Text}

theorem bareStem_spec (suffix? : Option Text) (stem : Text) :
    bareStem suffix? stem <+: stem ∧ (stem ≠ [] → bareStem suffix? stem ≠ []) := by
  unfold bareStem
  split
  next => exact ⟨List.prefix_refl stem, id⟩
  next suffix =>
    split
    next => exact ⟨List.prefix_refl stem, id⟩
    next => exact ⟨List.prefix_refl stem, id⟩
    next rest hne h =>
      rw [Text.withoutTail?_eq_some_iff] at h
      exact ⟨⟨_, h.symm⟩, fun _ hnil => hne hnil⟩

/-- The type name that a visible file name stands for can be made a file name again. -/
theorem isVisible_typeName (suffix? : Option Text) (h : Path.IsVisible n) :
    Path.IsVisible (typeName suffix? n) := by
  obtain ⟨hstem, hstemne⟩ := FileName.stem_spec n
  obtain ⟨hbare, hbarene⟩ := bareStem_spec suffix? (FileName.stem n)
  rw [typeName, Path.fileName?_of_isEntry h.isEntry]
  exact Identifier.isVisible_pascal
    (h.of_isPrefix (hbare.trans hstem) (hbarene (hstemne h.ne_nil)))

end Selection

namespace Disk

variable {d : Disk} {s : Selection} {root : Path} {sources : List Source}

/-- Every source has been read from a class file that is selected. -/
theorem exists_selects_of_load (hd : d.tree.WellFormed) (h : d.load s root = .ok sources)
    {source : Source} (hsource : source ∈ sources) :
    ∃ f, d.Selects s root f ∧ d.readSource s f = .ok source := by
  obtain ⟨read, hread, rfl⟩ := exists_read_of_load h
  rw [(Sorting.sort_perm _).mem_iff] at hsource
  obtain ⟨f, hf, hfound⟩ := exists_of_mem_forall₂ (forall₂_of_mapM_eq_ok hread).flip hsource
  exact ⟨f, (mem_classFiles hd).mp hf, hfound⟩

theorem Selects.isPlaced {f : ClassFile} (h : d.Selects s root f) (hd : d.tree.WellFormed)
    (suffix? : Option Text) : IsPlaced f.group (Selection.typeName suffix? f.name) := by
  refine ⟨?_, Selection.isVisible_typeName suffix? ((h.isEntry_name hd).isVisible h.name_shown)⟩
  by_cases hgroup : f.group = []
  · exact Or.inl hgroup
  · exact Or.inr ((h.isEntry_group hd hgroup).isVisible h.group_shown)

/-- Sources that have been loaded have groups and names of which paths can be made. -/
theorem isPlaced_of_load (hd : d.tree.WellFormed) (h : d.load s root = .ok sources) :
    ∀ source ∈ sources, IsPlaced source.group source.name := by
  intro source hsource
  obtain ⟨f, hselects, hread⟩ := exists_selects_of_load hd h hsource
  obtain ⟨t, -, rfl⟩ := source_of_readSource hread
  exact hselects.isPlaced hd s.suffix?

/-- The directory of a source's group is there. -/
theorem hasDir_group_of_load (hd : d.tree.WellFormed) (h : d.load s root = .ok sources)
    {source : Source} (hsource : source ∈ sources) :
    d.tree.hasDir ((d.place root).group source.group) = true := by
  obtain ⟨f, hselects, hread⟩ := exists_selects_of_load hd h hsource
  obtain ⟨t, -, rfl⟩ := source_of_readSource hread
  have habove := hd.above _ hselects.contains (by simp)
  rwa [Place.above_child] at habove

end Disk

end InterfaceGen
