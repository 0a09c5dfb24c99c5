import InterfaceGen.Proofs.Identifier
import InterfaceGen.Proofs.Interface.Linking
import InterfaceGen.Proofs.Path.Lineage

/-! Where imports lead. An import is followed from the directory of the file that holds it, dot by
dot, and the extension of the files is put after it. Linking and printing compute their paths on
their own; that an import leads to the very file which the printer writes is the result of this
module. -/

namespace InterfaceGen

/-- A group and a name as reading a working directory yields them: a group that is not empty is one
visible entry, and so is the name. -/
structure IsPlaced (group name : Text) : Prop where
  group : group = [] ∨ Path.IsVisible group
  name : Path.IsVisible name

/-- A group and a name of which a path can be made: a group that is not empty is one visible entry,
and the name has something in it but no slash. -/
structure IsNamed (group name : Text) : Prop where
  group : group = [] ∨ Path.IsVisible group
  ne_nil : name ≠ []
  noSlash : '/' ∉ name

theorem IsPlaced.isNamed {group name : Text} (h : IsPlaced group name) : IsNamed group name :=
  ⟨h.group, h.name.ne_nil, h.name.noSlash⟩

namespace Interface

/-- The directory of the file of an interface, below the output directory. -/
def directory (extension : Text) (i : Interface) : Path :=
  ((i.outputPath extension).parent?).getD ⟨[]⟩

/-- The file to which a reference leads from the file of an interface. -/
def importedFile (extension : Text) (i : Interface) (r : Reference) : Path :=
  ⟨((i.directory extension).join ⟨r.importPath⟩).normalize.text ++ '.' :: extension⟩

end Interface

/-- The directories between the output directory and the files of a group. -/
def groupDirs (group : Text) : List Text := if group.isEmpty then [] else [group]

/-- The way from the files of one group to the directory of another, or of the same. -/
def importDirs (source target : Text) : List Text :=
  if source = target then [['.']]
  else (if source.isEmpty then ['.'] else ['.', '.']) :: groupDirs target

section Paths

variable {source target group : Text}

theorem isEntry_of_mem_groupDirs (h : group = [] ∨ Path.IsVisible group) :
    ∀ d ∈ groupDirs group, Path.IsEntry d := by
  rcases h with rfl | h
  · simp [groupDirs]
  · simp [groupDirs, h.ne_nil, h.isEntry]

theorem groupDirs_injective (h : groupDirs source = groupDirs target) : source = target := by
  unfold groupDirs at h
  split_ifs at h with hs ht
  · rw [List.isEmpty_iff.mp hs, List.isEmpty_iff.mp ht]
  · exact List.singleton_inj.mp h

theorem eq_of_groupDirs_append_eq {extension name name' : Text}
    (h : groupDirs source ++ [Identifier.camel name ++ '.' :: extension] =
      groupDirs target ++ [Identifier.camel name' ++ '.' :: extension]) :
    source = target ∧ Identifier.camel name = Identifier.camel name' := by
  obtain ⟨hdirs, hfile⟩ := List.append_inj' h rfl
  exact ⟨groupDirs_injective hdirs, List.append_cancel_right (List.singleton_inj.mp hfile)⟩

theorem importPath_eq_ofSegments (source target name : Text) :
    (⟨importPath source target name⟩ : Path) =
      Path.ofSegments (importDirs source target ++ [Identifier.camel name]) := by
  unfold importPath importDirs groupDirs
  split_ifs with heq hs ht ht
  · simp [Path.ofSegments, List.intercalate]
  · exact absurd ((List.isEmpty_iff.mp hs).trans (List.isEmpty_iff.mp ht).symm) heq
  all_goals simp [Path.ofSegments, List.intercalate]

theorem isVisible_file {name extension : Text} (hn : Path.IsVisible name) (he : '/' ∉ extension) :
    Path.IsVisible (Identifier.camel name ++ '.' :: extension) :=
  (Identifier.isVisible_camel hn).append (by simp [he])

theorem noSlash_file {name extension : Text} (hn : '/' ∉ name) (he : '/' ∉ extension) :
    '/' ∉ Identifier.camel name ++ '.' :: extension := by
  simp only [List.mem_append, List.mem_cons, not_or]
  exact ⟨fun h => hn (Identifier.mem_of_mem_camel h (by decide)), by decide, he⟩

theorem outputPath_eq_ofSegments (extension : Text) {i : Interface}
    (hi : IsNamed i.group i.name) (he : '/' ∉ extension) :
    i.outputPath extension =
      Path.ofSegments (groupDirs i.group ++ [Identifier.camel i.name ++ '.' :: extension]) := by
  have htext : [Identifier.camel i.name, ".".toList, extension].flatten =
      Identifier.camel i.name ++ '.' :: extension := by
    simp
  unfold Interface.outputPath
  rw [htext, ← Path.ofSegments_singleton, ← Path.ofSegments_singleton i.group]
  rcases hi.group with h | h
  · simp [h, groupDirs]
  · have hdirs : groupDirs i.group = [i.group] := by simp [groupDirs, h.ne_nil]
    rw [if_neg (by simp [h.ne_nil]), hdirs,
      Path.join_ofSegments (by simpa using h.isEntry) (by simp)
        (noSlash_file hi.noSlash he)]

theorem components_outputPath {extension : Text} {i : Interface} (hi : IsNamed i.group i.name)
    (he : '/' ∉ extension) : (i.outputPath extension).components =
      (groupDirs i.group ++ [Identifier.camel i.name ++ '.' :: extension]).map .ofSegment := by
  have hidle : Path.isIdle (Identifier.camel i.name ++ '.' :: extension) = false := by
    obtain ⟨c, t, hcamel⟩ := List.exists_cons_of_ne_nil (Identifier.camel_ne_nil hi.ne_nil)
    simp [Path.isIdle, hcamel]
  have hdirs := isEntry_of_mem_groupDirs hi.group
  rw [outputPath_eq_ofSegments extension hi he, Path.components_ofSegments]
  · exact List.forall_mem_append.mpr
      ⟨fun d hd => (hdirs d hd).noSlash, by simpa using noSlash_file hi.noSlash he⟩
  · exact List.forall_mem_append.mpr ⟨fun d hd => (hdirs d hd).isIdle, by simpa using hidle⟩

/-- The group of an interface and the camel case of its name are what its output path tells. -/
theorem same_outputPath_iff {extension : Text} {i j : Interface}
    (hi : IsNamed i.group i.name) (hj : IsNamed j.group j.name) (he : '/' ∉ extension) :
    (i.outputPath extension).Same (j.outputPath extension) ↔
      i.group = j.group ∧ Identifier.camel i.name = Identifier.camel j.name := by
  rw [Path.Same, components_outputPath hi he, components_outputPath hj he,
    (List.map_injective_iff.mpr Component.ofSegment_injective).eq_iff]
  exact ⟨eq_of_groupDirs_append_eq, fun ⟨hgroup, hname⟩ => by rw [hgroup, hname]⟩

theorem isEntry_of_mem_outputPath {extension name : Text} (h : IsPlaced group name)
    (he : '/' ∉ extension) :
    ∀ n ∈ groupDirs group ++ [Identifier.camel name ++ '.' :: extension], Path.IsEntry n := by
  intro n hn
  rcases List.mem_append.mp hn with hn | hn
  · exact isEntry_of_mem_groupDirs h.group n hn
  · exact List.mem_singleton.mp hn ▸ (isVisible_file h.name he).isEntry

/-- The file of an interface lies below the directory in which it is put. -/
theorem ofPath_join_outputPath {extension : Text} {i : Interface} (hi : IsPlaced i.group i.name)
    (he : '/' ∉ extension) (output : Path) :
    Place.ofPath (output.join (i.outputPath extension)) =
      ⟨(Place.ofPath output).rooted, (Place.ofPath output).names ++
        (groupDirs i.group ++ [Identifier.camel i.name ++ '.' :: extension])⟩ := by
  rw [outputPath_eq_ofSegments extension hi.isNamed he,
    Place.ofPath_join_ofSegments (isEntry_of_mem_outputPath hi he)]

/-- Interfaces of different groups, or whose names differ in camel case, go to different places. -/
theorem eq_of_ofPath_join_outputPath_eq {extension : Text} {i j : Interface} {output : Path}
    (hi : IsPlaced i.group i.name) (hj : IsPlaced j.group j.name) (he : '/' ∉ extension)
    (h : Place.ofPath (output.join (i.outputPath extension)) =
      Place.ofPath (output.join (j.outputPath extension))) :
    i.group = j.group ∧ Identifier.camel i.name = Identifier.camel j.name := by
  rw [ofPath_join_outputPath hi he, ofPath_join_outputPath hj he] at h
  exact eq_of_groupDirs_append_eq (List.append_cancel_left (Place.mk.inj h).2)

/-- A walk from the directory of one group along an import ends in the directory of the other. -/
theorem ofPath_import {file : Text} (hs : source = [] ∨ Path.IsVisible source)
    (ht : target = [] ∨ Path.IsVisible target) (hf : Path.IsEntry file) :
    Place.ofPath (Path.ofSegments (groupDirs source ++ importDirs source target ++ [file])) =
      ⟨false, groupDirs target ++ [file]⟩ := by
  have hfile : ∀ p : Place, p.follow file = p.child file := fun p => Place.follow_of_isEntry hf
  unfold importDirs groupDirs
  rcases hs with rfl | hs
  · rcases ht with rfl | ht
    · simp [Place.ofPath_ofSegments, hf.noSlash, hfile, Place.start, Place.child]
    · simp [Place.ofPath_ofSegments, hf.noSlash, hfile, Place.start, Place.child,
        ht.ne_nil, ht.ne_nil.symm, ht.noSlash, Place.follow_of_isEntry ht.isEntry]
  · rcases ht with rfl | ht
    · simp [Place.ofPath_ofSegments, hf.noSlash, hfile, Place.start, Place.child,
        Place.above, hs.ne_nil, hs.noSlash, Place.follow_of_isEntry hs.isEntry]
    · by_cases heq : source = target
      · subst heq
        simp [Place.ofPath_ofSegments, hf.noSlash, hfile, Place.start, Place.child,
          hs.ne_nil, hs.noSlash, Place.follow_of_isEntry hs.isEntry]
      · simp [Place.ofPath_ofSegments, hf.noSlash, hfile, Place.start, Place.child,
          Place.above, heq, hs.ne_nil, hs.noSlash, Place.follow_of_isEntry hs.isEntry, ht.ne_nil,
          ht.noSlash, Place.follow_of_isEntry ht.isEntry]

end Paths

namespace Catalogue

theorem find?_interfaces (c : Catalogue) (dates : Bool) (name : Text) :
    (c.interfaces dates).find? (·.name == name) =
      (c.models.find? (·.name == name)).map (c.link dates) := by
  rw [interfaces, List.find?_map]
  rfl

end Catalogue

namespace Generation

variable {dates : Bool} {sources : List Source} {i : Interface} {r : Reference}

theorem placed_of_mem_interfaces (hs : ∀ s ∈ sources, IsPlaced s.group s.name)
    (hi : i ∈ (catalogue sources).interfaces dates) :
    IsPlaced i.group i.name := by
  obtain ⟨s, hmem, rfl⟩ := mem_interfaces_catalogue.mp hi
  exact hs s hmem

/-- The target of a reference is the first interface of its name, and the import path is the one to
the group of that interface. -/
theorem exists_target (hi : i ∈ (catalogue sources).interfaces dates) (hr : r ∈ i.references) :
    ∃ t ∈ (catalogue sources).interfaces dates,
      ((catalogue sources).interfaces dates).find? (·.name == r.name) = some t ∧
      r.importPath = importPath i.group t.group t.name := by
  obtain ⟨s, -, rfl⟩ := mem_interfaces_catalogue.mp hi
  obtain ⟨m, hm, hrm⟩ := Option.map_eq_some_iff.mp (Catalogue.mem_references_link hr).2
  have hfind : ((catalogue sources).interfaces dates).find? (·.name == r.name) =
      some ((catalogue sources).link dates m) := by
    rw [Catalogue.find?_interfaces, catalogue, Catalogue.models_ofModels,
      ← Catalogue.find?_ofModels]
    exact congrArg _ hm
  refine ⟨_, List.mem_of_find?_eq_some hfind, hfind, ?_⟩
  rw [← hrm]
  rfl

/-- Following an import leads to the file of its target. -/
theorem importedFile_eq_outputPath {extension : Text} {t : Interface}
    (hi : IsPlaced i.group i.name)
    (ht : IsPlaced t.group t.name) (he : '/' ∉ extension)
    (hr : r.importPath = importPath i.group t.group t.name) :
    i.importedFile extension r = t.outputPath extension := by
  have hdir : i.directory extension = Path.ofSegments (groupDirs i.group) := by
    rw [Interface.directory, outputPath_eq_ofSegments extension hi.isNamed he,
      Path.parent?_ofSegments (isEntry_of_mem_groupDirs hi.group)
        (isVisible_file hi.name he).isEntry, Option.getD_some]
  have hjoin : (i.directory extension).join ⟨r.importPath⟩ = Path.ofSegments
      (groupDirs i.group ++ importDirs i.group t.group ++ [Identifier.camel t.name]) := by
    obtain ⟨first, rest, hdirs, hfirst, hslash⟩ : ∃ first rest,
        first :: rest = importDirs i.group t.group ∧ first ≠ [] ∧ '/' ∉ first := by
      unfold importDirs
      split_ifs <;> exact ⟨_, _, rfl, by decide, by decide⟩
    rw [hdir, hr, importPath_eq_ofSegments, ← hdirs, List.cons_append,
      Path.join_ofSegments (isEntry_of_mem_groupDirs hi.group) hfirst hslash, List.append_assoc,
      List.cons_append]
  have hend := ofPath_import hi.group ht.group (Identifier.isVisible_camel ht.name).isEntry
  rw [Interface.importedFile, Path.normalize, hjoin, hend, outputPath_eq_ofSegments extension ht.isNamed
    he]
  exact congrArg Path.mk (Path.text_ofSegments_append_singleton _ _ _)

theorem eq_of_same_outputPath {extension : Text} {t t' : Interface}
    (ht : IsPlaced t.group t.name)
    (ht' : IsPlaced t'.group t'.name) (he : '/' ∉ extension)
    (h : (t.outputPath extension).Same (t'.outputPath extension)) :
    t.group = t'.group ∧ Identifier.camel t.name = Identifier.camel t'.name :=
  (same_outputPath_iff ht.isNamed ht'.isNamed he).mp h

/-- Import paths and output paths agree. An import leads, from the directory of the file that holds
it, to the file of the first interface of the imported name; and two imports of one file have the
same path only if the same file is meant. -/
theorem imports_lead_to_files (hs : ∀ s ∈ sources, IsPlaced s.group s.name) {extension : Text}
    (he : '/' ∉ extension) (hi : i ∈ (catalogue sources).interfaces dates) :
    (∀ r ∈ i.references, ∃ t,
      ((catalogue sources).interfaces dates).find? (·.name == r.name) = some t ∧
      i.importedFile extension r = t.outputPath extension) ∧
    ∀ r ∈ i.references, ∀ r' ∈ i.references, ∀ t t',
      ((catalogue sources).interfaces dates).find? (·.name == r.name) = some t →
      ((catalogue sources).interfaces dates).find? (·.name == r'.name) = some t' →
      (r.importPath = r'.importPath ↔
        (t.outputPath extension).Same (t'.outputPath extension)) := by
  have placed : ∀ {j}, j ∈ (catalogue sources).interfaces dates →
      IsPlaced j.group j.name :=
    fun hj => placed_of_mem_interfaces hs hj
  constructor
  · intro r hr
    obtain ⟨t, htmem, hfind, hpath⟩ := exists_target hi hr
    exact ⟨t, hfind, importedFile_eq_outputPath (placed hi) (placed htmem) he hpath⟩
  · intro r hr r' hr' t t' hfind hfind'
    obtain ⟨u, htmem, hu, hpath⟩ := exists_target hi hr
    obtain rfl := Option.some.inj (hfind.symm.trans hu)
    obtain ⟨u', htmem', hu', hpath'⟩ := exists_target hi hr'
    obtain rfl := Option.some.inj (hfind'.symm.trans hu')
    constructor
    · intro h
      have hfile := importedFile_eq_outputPath (placed hi) (placed htmem) he hpath
      have hfile' := importedFile_eq_outputPath (placed hi) (placed htmem') he hpath'
      rw [Path.Same, ← hfile, ← hfile', Interface.importedFile, Interface.importedFile, h]
    · intro h
      obtain ⟨hgroup, hname⟩ := eq_of_same_outputPath (placed htmem) (placed htmem') he h
      rw [hpath, hpath', importPath, importPath, hgroup, hname]

/-- The post, one directory down, finds the first of the two tags in the directory beside it. -/
theorem post_imports_lead_to_files :
    (∀ s ∈ site, IsPlaced s.group s.name) ∧ '/' ∉ "ts".toList ∧
    post ∈ (catalogue site).interfaces true ∧
    post.importedFile "ts".toList ⟨"Tag".toList, "../meta/tag".toList⟩ =
      ⟨"meta/tag.ts".toList⟩ := by
  have placed : ∀ s ∈ site, IsPlaced s.group s.name := by
    intro s hs
    fin_cases hs
    · exact ⟨Or.inl rfl, by decide, by decide, by decide⟩
    all_goals exact ⟨Or.inr ⟨by decide, by decide, by decide⟩, by decide, by decide, by decide⟩
  have hext : '/' ∉ "ts".toList := by decide
  have hpost := post_mem_interfaces
  obtain ⟨t, ht, hfile⟩ :=
    (imports_lead_to_files placed hext hpost).1 ⟨"Tag".toList, "../meta/tag".toList⟩ (by decide)
  have htag : ((catalogue site).interfaces true).find? (·.name == "Tag".toList) =
      some ⟨"Tag".toList, "meta".toList, none, []⟩ := by decide +kernel
  obtain rfl := Option.some.inj (htag.symm.trans ht)
  exact ⟨placed, hext, hpost, hfile.trans (by decide +kernel)⟩

end Generation

end InterfaceGen
