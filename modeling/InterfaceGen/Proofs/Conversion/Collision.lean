import InterfaceGen.Proofs.Conversion.Delivery
import InterfaceGen.Proofs.Interface.ImportPath

/-! Interfaces that share a file. Models are told apart by their names, but files are named in camel
case, in which different names may be the same. Nothing is reported then, and of the interfaces
only the last is left. -/

namespace InterfaceGen.Generation

open Identifier

variable {layout : Layout} {models : List Model}

/-- The files for some models. -/
def filesOf (dates : Bool) (layout : Layout) (models : List Model) : List GeneratedFile :=
  ((Catalogue.ofModels models).interfaces dates).map (fileOf layout)

/-- What is generated from sources are the files for their models. -/
theorem files_ofSources (dates : Bool) (layout : Layout) (sources : List Source) :
    (ofSources dates layout sources).files = filesOf dates layout (sources.map (·.model)) := rfl

theorem filesOf_eq_map (dates : Bool) (layout : Layout) (models : List Model) :
    filesOf dates layout models =
      models.map fun m => fileOf layout ((Catalogue.ofModels models).link dates m) := by
  rw [filesOf, Catalogue.interfaces, Catalogue.models_ofModels, List.map_map]
  rfl

/-- No two models of a group have names that are the same in camel case. -/
def CamelApart (models : List Model) : Prop :=
  models.Pairwise fun m n => ¬(m.group = n.group ∧ camel m.name = camel n.name)

/-- Paths are different as long as groups or names in camel case are. -/
theorem pairwise_path_iff (dates : Bool) (hnamed : ∀ m ∈ models, IsNamed m.group m.name)
    (he : '/' ∉ layout.extension) :
    ((filesOf dates layout models).Pairwise fun f g => ¬f.path.Same g.path) ↔
      CamelApart models := by
  rw [filesOf_eq_map, List.pairwise_map, CamelApart]
  refine List.Pairwise.iff_of_mem fun {m n} hm hn => not_congr ?_
  exact same_outputPath_iff (hnamed m hm) (hnamed n hn) he

/-- So are the places to which the files are delivered. -/
theorem pairwise_placeIn (dates : Bool) (output : Path)
    (hplaced : ∀ m ∈ models, IsPlaced m.group m.name) (he : '/' ∉ layout.extension)
    (h : CamelApart models) :
    (filesOf dates layout models).Pairwise fun f g => f.placeIn output ≠ g.placeIn output := by
  rw [filesOf_eq_map, List.pairwise_map]
  refine h.imp_of_mem fun {m n} hm hn hne hplace => hne ?_
  exact eq_of_ofPath_join_outputPath_eq (hplaced m hm) (hplaced n hn) he hplace

/-- Among models with different names, it is enough to compare the names of each group. -/
theorem camelApart_iff (hunique : (Catalogue.ofModels models).duplicates = []) :
    CamelApart models ↔ ∀ m ∈ models, ∀ n ∈ models, m.group = n.group →
      camel m.name = camel n.name → m.name = n.name := by
  have hnames : models.Pairwise fun m n => m.name ≠ n.name :=
    List.pairwise_map.mp ((Catalogue.duplicates_ofModels_eq_nil_iff models).mp hunique)
  constructor
  · intro h m hm n hn hgroup hcamel
    by_contra hne
    have hsymm : Std.Symm fun m n : Model =>
        ¬(m.group = n.group ∧ camel m.name = camel n.name) :=
      ⟨fun m n h hnm => h ⟨hnm.1.symm, hnm.2.symm⟩⟩
    exact h.forall hm hn (fun heq => hne (congrArg _ heq)) ⟨hgroup, hcamel⟩
  · intro h
    exact hnames.imp_of_mem fun {m n} hm hn hne hsame => hne (h m hm n hn hsame.1 hsame.2)

/-- Where no duplicate is reported, the paths of the files are different exactly when in each group
names that are different stay so in camel case. Then what has been delivered can be read again, file
by file. Of two names that are the same in camel case one is in capitals, unless they begin with
different characters. All this is about what is generated from sources, whose files are those for
their models. -/
theorem files_apart_iff (dates : Bool) (output : Path)
    (hunique : (Catalogue.ofModels models).duplicates = [])
    (hnamed : ∀ m ∈ models, IsNamed m.group m.name) (he : '/' ∉ layout.extension) :
    (((filesOf dates layout models).Pairwise fun f g => ¬f.path.Same g.path) ↔
      ∀ m ∈ models, ∀ n ∈ models, m.group = n.group →
        camel m.name = camel n.name → m.name = n.name) ∧
    (((filesOf dates layout models).Pairwise fun f g => ¬f.path.Same g.path) →
      (∀ m ∈ models, FileName.isHidden m.name = false) → ∀ s paths t,
      exec (GeneratedFile.deliverAll (m := StateM Memory) output (filesOf dates layout models)) s =
        (.ok paths, t) →
      paths = (filesOf dates layout models).map (output.join ·.path) ∧
      ∀ f ∈ filesOf dates layout models, t.read? (output.join f.path) = some f.contents) ∧
    (∀ m ∈ models, ∀ n ∈ models, camel m.name = camel n.name → m.name ≠ n.name →
      isAllCapitals m.name = true ∨ isAllCapitals n.name = true ∨
        m.name.head? ≠ n.name.head?) ∧
    ∀ sources : List Source, sources.map (·.model) = models →
      (ofSources dates layout sources).files = filesOf dates layout models := by
  have hiff := pairwise_path_iff dates hnamed he
  refine ⟨hiff.trans (camelApart_iff hunique), fun hpaths hshown s paths t h => ?_,
    fun m _ n _ hcamel hne => ?_, fun sources hmodels => ?_⟩
  · obtain ⟨hreturned, hfile⟩ := GeneratedFile.file?_of_deliverAll h
    refine ⟨hreturned, fun f hf => ?_⟩
    have hplaced : ∀ m ∈ models, IsPlaced m.group m.name := fun m hm =>
      ⟨(hnamed m hm).group, (hnamed m hm).ne_nil, (hnamed m hm).noSlash, hshown m hm⟩
    have hlast := GeneratedFile.lastAt?_of_pairwise
      (pairwise_placeIn dates output hplaced he (hiff.mp hpaths)) hf
    have hread : t.read? (output.join f.path) = t.tree.file? (f.placeIn output) := rfl
    rw [hread, hfile, hlast, Option.some_or]
  · by_contra hmixed
    push Not at hmixed
    obtain ⟨hm, hn, hhead⟩ := hmixed
    exact hne (eq_of_camel_eq hcamel hhead (by simpa using hm) (by simpa using hn))
  · rw [files_ofSources, hmodels]

/-- A name in capitals is not lost as long as no other one is the same in camel case. -/
theorem tag_files_apart :
    let models : List Model :=
      [.named "ID".toList [], .named "Tag".toList "meta".toList, .named "TAGS".toList "meta".toList]
    let output : Path := ⟨"web".toList⟩
    (Catalogue.ofModels models).duplicates = [] ∧ (∀ m ∈ models, IsNamed m.group m.name) ∧
    '/' ∉ ({} : Layout).extension ∧
    ((filesOf true {} models).Pairwise fun f g => ¬f.path.Same g.path) ∧
    ∃ paths t, exec (GeneratedFile.deliverAll (m := StateM Memory) output
        (filesOf true {} models)) {} = (.ok paths, t) ∧
      ∀ f ∈ filesOf true {} models, t.read? (output.join f.path) = some f.contents := by
  intro models output
  have hunique : (Catalogue.ofModels models).duplicates = [] := by decide +kernel
  have hroot : IsNamed [] "ID".toList := ⟨Or.inl rfl, by decide, by decide⟩
  have hmeta : Path.IsVisible "meta".toList := ⟨by decide, by decide, by decide⟩
  have hnamed : ∀ m ∈ models, IsNamed m.group m.name := by
    simp only [models, List.forall_mem_cons]
    exact ⟨hroot, ⟨Or.inr hmeta, by decide, by decide⟩, ⟨Or.inr hmeta, by decide, by decide⟩,
      fun m hm => absurd hm List.not_mem_nil⟩
  have he : '/' ∉ ({} : Layout).extension := by decide
  have hshown : ∀ m ∈ models, FileName.isHidden m.name = false := by decide +kernel
  have hcamel : ∀ m ∈ models, ∀ n ∈ models, m.group = n.group →
      camel m.name = camel n.name → m.name = n.name := by decide +kernel
  obtain ⟨paths, h⟩ := exists_eq_ok (show (exec (GeneratedFile.deliverAll (m := StateM Memory)
    output (filesOf true {} models)) {}).1.isOk = true by decide +kernel)
  obtain ⟨hiff, hkept, -⟩ := files_apart_iff true output hunique hnamed he
  have hapart := hiff.mpr hcamel
  exact ⟨hunique, hnamed, he, hapart, paths, _, h, (hkept hapart hshown _ _ _ h).2⟩

/-- Of `ID` and `Id` the first is lost: no duplicate is reported, both files have one path, and what
can be read there afterwards is not what has been generated for it. -/
theorem id_files_collide :
    let models : List Model := [.named "ID".toList [], .named "Id".toList []]
    let output : Path := ⟨"web".toList⟩
    (∀ m ∈ models, IsNamed m.group m.name ∧ pascal m.name = m.name) ∧
    (Catalogue.ofModels models).duplicates = [] ∧
    (filesOf true {} models).map (·.path) = [⟨"id.ts".toList⟩, ⟨"id.ts".toList⟩] ∧
    ∃ paths t, exec (GeneratedFile.deliverAll (m := StateM Memory) output
        (filesOf true {} models)) {} = (.ok paths, t) ∧
      ∃ f ∈ filesOf true {} models, t.read? (output.join f.path) ≠ some f.contents := by
  intro models output
  have hnamed : ∀ m ∈ models, IsNamed m.group m.name ∧ pascal m.name = m.name := by
    simp only [models, List.forall_mem_cons]
    exact ⟨⟨⟨Or.inl rfl, by decide, by decide⟩, by decide +kernel⟩,
      ⟨⟨Or.inl rfl, by decide, by decide⟩, by decide +kernel⟩,
      fun m hm => absurd hm List.not_mem_nil⟩
  obtain ⟨paths, h⟩ := exists_eq_ok (show (exec (GeneratedFile.deliverAll (m := StateM Memory)
    output (filesOf true {} models)) {}).1.isOk = true by decide +kernel)
  exact ⟨hnamed, by decide +kernel, by decide +kernel, paths, _, h, by decide +kernel⟩

end InterfaceGen.Generation
