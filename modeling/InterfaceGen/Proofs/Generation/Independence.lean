import InterfaceGen.Proofs.Interface.Linking

/-! On what a generated file depends. Every file is made with all sources at hand, but of the others
it takes only the groups in which the mentioned names live. Two runs that agree on these produce the
same file, whatever else their sources are. -/

namespace InterfaceGen

namespace Source

/-- The group in which a name lives, that of the first source which bears it. -/
def groupOf? (sources : List Source) (name : Text) : Option Text :=
  (sources.find? (·.name == name)).map (·.group)

theorem groupOf?_filter {sources : List Source} {names : List Text} {name : Text}
    (h : name ∈ names) :
    groupOf? (sources.filter (·.name ∈ names)) name = groupOf? sources name := by
  unfold groupOf?
  rw [List.find?_filter]
  congr 2
  funext s
  by_cases hs : s.name = name <;> simp [hs, h]

/-- Only names and groups decide where a name lives. -/
theorem groupOf?_congr {sources sources' : List Source}
    (h : sources.map (fun s => (s.name, s.group)) = sources'.map fun s => (s.name, s.group))
    (name : Text) : groupOf? sources name = groupOf? sources' name := by
  have key : ∀ l : List Source, groupOf? l name =
      ((l.map fun s => (s.name, s.group)).find? (·.1 == name)).map (·.2) := by
    intro l
    rw [groupOf?, List.find?_map, Option.map_map]
    rfl
  rw [key, key, h]

theorem find?_name_of_nodup {sources : List Source} (hn : (sources.map (·.name)).Nodup) {s : Source}
    (hs : s ∈ sources) : sources.find? (·.name == s.name) = some s := by
  obtain ⟨t, ht⟩ : ∃ t, sources.find? (·.name == s.name) = some t :=
    Option.isSome_iff_exists.mp (List.find?_isSome.mpr ⟨s, hs, beq_self_eq_true s.name⟩)
  have hname : t.name = s.name := by simpa using List.find?_some ht
  rw [ht, List.inj_on_of_nodup_map hn (List.mem_of_find?_eq_some ht) hs hname]

/-- Where all names differ, their order does not matter. -/
theorem groupOf?_perm {sources sources' : List Source} (hp : sources.Perm sources')
    (hn : (sources.map (·.name)).Nodup) (name : Text) :
    groupOf? sources name = groupOf? sources' name := by
  have hn' : (sources'.map (·.name)).Nodup := (hp.map _).nodup_iff.mp hn
  unfold groupOf?
  by_cases h : ∃ s ∈ sources, s.name = name
  · obtain ⟨s, hs, rfl⟩ := h
    rw [find?_name_of_nodup hn hs, find?_name_of_nodup hn' (hp.mem_iff.mp hs)]
  · have absent : ∀ s ∈ sources, s.name ≠ name := fun s hs hname => h ⟨s, hs, hname⟩
    rw [List.find?_eq_none.mpr (by simpa using absent),
      List.find?_eq_none.mpr (by simpa [← hp.mem_iff] using absent)]

end Source

namespace Catalogue

/-- Catalogues that give a model the same references link it to the same interface. -/
theorem link_congr {c c' : Catalogue} {m : Model} (dates : Bool)
    (h : ∀ name ∈ m.mentions, c.reference? m name = c'.reference? m name) :
    c.link dates m = c'.link dates m := by
  have hparent : m.parent?.bind (c.reference? m) = m.parent?.bind (c'.reference? m) := by
    cases hp : m.parent? with
    | none => rfl
    | some name => exact h name (by simp [Model.mentions, hp])
  have hmembers : m.members.map (c.property dates m) = m.members.map (c'.property dates m) := by
    apply List.map_congr_left
    intro member hm
    have hr := h member.typeName (List.mem_append_right _ (List.mem_map_of_mem hm))
    simp only [property, propertyType, hr]
  simp only [link, hparent, hmembers]

end Catalogue

namespace Generation

/-- What the catalogue of a run knows of a name is the group in which it lives. -/
theorem reference?_catalogue (sources : List Source) (m : Model) (name : Text) :
    (catalogue sources).reference? m name =
      (Source.groupOf? sources name).map fun g => ⟨name, importPath m.group g name⟩ := by
  unfold Catalogue.reference? catalogue Source.groupOf?
  rw [Catalogue.find?_ofModels, List.find?_map, Option.map_map, Option.map_map]
  apply Option.map_congr
  intro s hs
  have hname : s.name = name := by simpa using List.find?_some hs
  simp [hname]

theorem files_getElem? (dates : Bool) (layout : Layout) (sources : List Source) (i : Nat) :
    (ofSources dates layout sources).files[i]? =
      sources[i]?.map fun s => fileOf layout ((catalogue sources).link dates s.model) := by
  simp [ofSources, Catalogue.interfaces, catalogue, Function.comp_def]

/-- Source `i` of one run and source `j` of another lead to the same file. -/
def SameFile (dates : Bool) (layout : Layout) (sources : List Source) (i : Nat)
    (sources' : List Source) (j : Nat) : Prop :=
  ∃ f, (ofSources dates layout sources).files[i]? = some f ∧
    (ofSources dates layout sources').files[j]? = some f

theorem sameFile_of_groups {dates : Bool} {layout : Layout} {sources sources' : List Source}
    {i j : Nat} {s : Source} (hi : sources[i]? = some s) (hj : sources'[j]? = some s)
    (h : ∀ name ∈ s.model.mentions,
      Source.groupOf? sources name = Source.groupOf? sources' name) :
    SameFile dates layout sources i sources' j := by
  refine ⟨fileOf layout ((catalogue sources).link dates s.model), ?_, ?_⟩
  · rw [files_getElem?, hi, Option.map_some]
  · have hlink :
        (catalogue sources).link dates s.model = (catalogue sources').link dates s.model := by
      apply Catalogue.link_congr
      intro name hname
      rw [reference?_catalogue, reference?_catalogue, h name hname]
    rw [files_getElem?, hj, Option.map_some, hlink]

/-- A generated file depends on its own source and on the groups in which the names that it mentions
live. So neither the lines of other sources matter, nor sources of other names, nor, where no name
occurs twice, the order. -/
theorem file_depends_on_mentions (dates : Bool) (layout : Layout) {sources sources' : List Source}
    {i j : Nat} {s : Source} (hi : sources[i]? = some s) (hj : sources'[j]? = some s) :
    ((∀ name ∈ s.model.mentions, Source.groupOf? sources name = Source.groupOf? sources' name) →
      SameFile dates layout sources i sources' j) ∧
    (sources.map (fun t => (t.name, t.group)) = sources'.map (fun t => (t.name, t.group)) →
      SameFile dates layout sources i sources' j) ∧
    (sources.filter (·.name ∈ s.model.mentions) = sources'.filter (·.name ∈ s.model.mentions) →
      SameFile dates layout sources i sources' j) ∧
    (sources.Perm sources' → (sources.map (·.name)).Nodup →
      SameFile dates layout sources i sources' j) := by
  refine ⟨sameFile_of_groups hi hj, fun h => ?_, fun h => ?_, fun hp hn => ?_⟩
  · exact sameFile_of_groups hi hj fun name _ => Source.groupOf?_congr h name
  · apply sameFile_of_groups hi hj
    intro name hname
    rw [← Source.groupOf?_filter hname, h, Source.groupOf?_filter hname]
  · exact sameFile_of_groups hi hj fun name _ => Source.groupOf?_perm hp hn name

/-- The file of the post stays the same when the other files are edited, reordered and joined by one
that it does not mention. -/
theorem post_file_depends_on_mentions :
    let edited : List Source :=
      [⟨"Tag".toList, "meta".toList, ⟨"meta/Tag.cs".toList⟩, ["public string Label;".toList]⟩,
        ⟨"User".toList, "blog".toList, ⟨"blog/User.cs".toList⟩, []⟩,
        ⟨"Entity".toList, [], ⟨"Entity.cs".toList⟩, []⟩] ++ site.drop 1
    ∃ s, site[1]? = some s ∧ edited[3]? = some s ∧
      (∀ name ∈ s.model.mentions, Source.groupOf? site name = Source.groupOf? edited name) ∧
      SameFile true {} site 1 edited 3 := by
  intro edited
  have hgroups : ∀ name ∈ site[1].model.mentions,
      Source.groupOf? site name = Source.groupOf? edited name := by decide +kernel
  exact ⟨site[1], rfl, rfl, hgroups, (file_depends_on_mentions true {} rfl rfl).1 hgroups⟩

end Generation

end InterfaceGen
