import InterfaceGen.Generation
import InterfaceGen.Proofs.Model.Catalogue

/-! What linking does to the names of a model. The references of an interface are the mentioned
names that the catalogue knows, in the order of mention; a name leads to one place wherever in the
model it stands. -/

namespace InterfaceGen

/-- What an interface refers to is what its header and the lines of its properties print. -/
theorem Interface.mem_references {i : Interface} {r : Reference} : r ∈ i.references ↔
    i.parent? = some r ∨ ∃ p ∈ i.properties, p.type = .model r := by
  have htype : ∀ p : Property, p.type.reference? = some r ↔ p.type = .model r := by
    intro p
    cases p.type <;> simp [PropertyType.reference?]
  simp [references, htype]

namespace Catalogue

variable {c : Catalogue} {dates : Bool} {m : Model}

theorem name_of_reference? {name : Text} {r : Reference} (h : c.reference? m name = some r) :
    r.name = name := by
  obtain ⟨t, ht, rfl⟩ := Option.map_eq_some_iff.mp h
  exact name_of_find? ht

/-- A name leads to a reference exactly when it is the name of a model. -/
theorem isSome_reference?_ofModels {models : List Model} {name : Text} :
    ((ofModels models).reference? m name).isSome = true ↔ name ∈ models.map (·.name) := by
  simp [reference?, find?_ofModels]

@[simp] theorem reference?_propertyType (name : Text) :
    (c.propertyType dates m name).reference? = c.reference? m name := by
  unfold propertyType
  split <;> simp_all [PropertyType.reference?]

/-- An interface refers to the known ones among the names that its model mentions. -/
theorem references_link :
    (c.link dates m).references = m.mentions.filterMap (c.reference? m) := by
  have hp : (m.parent?.bind (c.reference? m)).toList =
      m.parent?.toList.filterMap (c.reference? m) := by
    cases m.parent? with
    | none => rfl
    | some name => cases h : c.reference? m name <;> simp [h]
  have ht : (fun p : Property => p.type.reference?) ∘ c.property dates m =
      c.reference? m ∘ (·.typeName) := by
    funext member
    exact reference?_propertyType member.typeName
  simp only [Interface.references, link, Model.mentions, List.filterMap_append, List.filterMap_map,
    hp, ht]

theorem mem_references_link {r : Reference} (h : r ∈ (c.link dates m).references) :
    r.name ∈ m.mentions ∧ c.reference? m r.name = some r := by
  rw [references_link] at h
  obtain ⟨name, hn, hr⟩ := List.mem_filterMap.mp h
  rw [name_of_reference? hr]
  exact ⟨hn, hr⟩

/-- Within one interface the name of a reference determines the reference. -/
theorem eq_of_mem_references_link {r r' : Reference} (hr : r ∈ (c.link dates m).references)
    (hr' : r' ∈ (c.link dates m).references) (h : r.name = r'.name) : r = r' := by
  have h₁ := (mem_references_link hr).2
  have h₂ := (mem_references_link hr').2
  rw [h, h₂] at h₁
  exact (Option.some.inj h₁).symm

end Catalogue

namespace Generation

/-- Every interface of a run is a linked source. -/
theorem mem_interfaces_catalogue {dates : Bool} {sources : List Source} {i : Interface} :
    i ∈ (catalogue sources).interfaces dates ↔
      ∃ s ∈ sources, i = (catalogue sources).link dates s.model := by
  simp [Catalogue.interfaces, catalogue, eq_comm]

/-- Class files of a small site: a post has a parent, mentions itself and one type twice, and there
are tags in two groups. -/
def site : List Source :=
  [⟨"Entity".toList, [], ⟨"Entity.cs".toList⟩, ["public int Id;".toList]⟩,
    ⟨"Post".toList, "blog".toList, ⟨"blog/Post.cs".toList⟩,
      ["public class Post : Entity".toList, "public Tag[] Tags;".toList, "public Post Next;".toList,
        "public Tag First;".toList, "public Entity Owner;".toList]⟩,
    ⟨"Tag".toList, "meta".toList, ⟨"meta/Tag.cs".toList⟩, []⟩,
    ⟨"Tag".toList, "blog".toList, ⟨"blog/Tag.cs".toList⟩, ["public Post Post;".toList]⟩]

/-- The interface of the post. -/
def post : Interface :=
  let entity : Reference := ⟨"Entity".toList, "../entity".toList⟩
  let tag : Reference := ⟨"Tag".toList, "../meta/tag".toList⟩
  ⟨"Post".toList, "blog".toList, some entity,
    [⟨"Tags".toList, "Tag[]".toList, true, .model tag⟩,
      ⟨"Next".toList, "Post".toList, false, .model ⟨"Post".toList, "./post".toList⟩⟩,
      ⟨"First".toList, "Tag".toList, false, .model tag⟩,
      ⟨"Owner".toList, "Entity".toList, false, .model entity⟩]⟩

theorem post_mem_interfaces : post ∈ (catalogue site).interfaces true := by decide +kernel

end Generation

end InterfaceGen
