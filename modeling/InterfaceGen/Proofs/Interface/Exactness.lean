import InterfaceGen.Proofs.Interface.Linking

/-! Linking is complete and exact. Every model becomes one interface, every member one property, and
what a type name stands for is decided by the list of the models alone: the first model of the name
if there is one, else a built-in type. A parent that is no model is the only thing that is lost, and
it is reported. -/

namespace InterfaceGen

namespace Catalogue

/-- The reference leads from the group of `m` to the first model of the name. -/
def LeadsTo (ms : List Model) (m : Model) (name : Text) (r : Reference) : Prop :=
  ∃ target : Model, target.IsFirst ms name ∧ r = ⟨name, importPath m.group target.group name⟩

/-- What the type name of a member of `m` stands for. -/
structure StandsFor (ms : List Model) (dates : Bool) (m : Model) (name : Text)
    (type : PropertyType) : Prop where
  isModel : type.reference?.isSome = true ↔ ∃ n ∈ ms, n.name = name
  model : ∀ r, type = .model r ↔ LeadsTo ms m name r
  builtin : ∀ b, type = .builtin b ↔ (∀ n ∈ ms, n.name ≠ name) ∧ b = .ofName dates name

structure IsPropertyOf (ms : List Model) (dates : Bool) (m : Model) (member : Member)
    (p : Property) : Prop where
  name : p.name = member.name
  declaredType : p.declaredType = member.declaredType
  isArray : p.isArray = member.isArray
  type : StandsFor ms dates m member.typeName p.type

/-- The interface that a model becomes. -/
structure IsInterfaceOf (ms : List Model) (dates : Bool) (m : Model) (i : Interface) : Prop where
  name : i.name = m.name
  group : i.group = m.group
  properties : List.Forall₂ (IsPropertyOf ms dates m) m.members i.properties
  hasParent : i.parent?.isSome = true ↔ ∃ name ∈ m.parent?, ∃ n ∈ ms, n.name = name
  parent : ∀ r, i.parent? = some r ↔ ∃ name ∈ m.parent?, LeadsTo ms m name r

/-- The model names a parent that is no model. -/
def LosesParent (ms : List Model) (m : Model) : Prop :=
  ∃ name ∈ m.parent?, ∀ n ∈ ms, n.name ≠ name

instance (ms : List Model) : DecidablePred (LosesParent ms) := fun m =>
  inferInstanceAs (Decidable (∃ name ∈ m.parent?, ∀ n ∈ ms, n.name ≠ name))

/-- The finding notes, at the path of the model, the parent that it loses. -/
def NotesLoss (m : Model) (f : Finding) : Prop :=
  ∃ name ∈ m.parent?, f = unresolvedParent m name ∧ f.severity = .info ∧
    f.location = .file m.path ∧ name <:+: f.message

theorem quote_unresolvedParent (m : Model) (name : Text) :
    name <:+: (unresolvedParent m name).message := by
  refine ⟨"base type `".toList, "` is not a known model; no `extends` emitted".toList, ?_⟩
  simp [unresolvedParent]

variable {ms : List Model} {dates : Bool} {m : Model} {name : Text} {r : Reference}

theorem reference?_ofModels_eq_some_iff :
    (ofModels ms).reference? m name = some r ↔ LeadsTo ms m name r := by
  rw [reference?, Option.map_eq_some_iff, LeadsTo]
  refine exists_congr fun target => ?_
  rw [find?_ofModels_eq_some_iff]
  refine and_congr_right fun htarget => ?_
  obtain ⟨-, -, -, hname, -⟩ := htarget
  rw [hname, eq_comm]

theorem reference?_ofModels_eq_none_iff :
    (ofModels ms).reference? m name = none ↔ ∀ n ∈ ms, n.name ≠ name := by
  rw [reference?, Option.map_eq_none_iff, find?_ofModels_eq_none_iff]

theorem standsFor_propertyType :
    StandsFor ms dates m name ((ofModels ms).propertyType dates m name) where
  isModel := by
    rw [reference?_propertyType, isSome_reference?_ofModels, List.mem_map]
  model r := by
    rw [← reference?_ofModels_eq_some_iff, propertyType]
    split <;> simp [*]
  builtin b := by
    rw [← reference?_ofModels_eq_none_iff (m := m), propertyType]
    split <;> simp [*, eq_comm]

theorem isInterfaceOf_link (ms : List Model) (dates : Bool) (m : Model) :
    IsInterfaceOf ms dates m ((ofModels ms).link dates m) where
  name := rfl
  group := rfl
  properties := by
    rw [link, List.forall₂_map_right_iff, List.forall₂_same]
    exact fun member _ => ⟨rfl, rfl, rfl, standsFor_propertyType⟩
  hasParent := by
    rw [link, Option.isSome_bind, Option.any_eq_true]
    simp only [isSome_reference?_ofModels, List.mem_map, Option.mem_def]
  parent r := by
    rw [link, Option.bind_eq_some_iff]
    simp only [reference?_ofModels_eq_some_iff, Option.mem_def]

/-- A model has a finding for the parent that it loses, and for nothing else. -/
theorem parentFinding?_ofModels (ms : List Model) (m : Model) :
    (LosesParent ms m ∧ ∃ f, (ofModels ms).parentFinding? m = some f ∧ NotesLoss m f) ∨
      (¬ LosesParent ms m ∧ (ofModels ms).parentFinding? m = none) := by
  unfold LosesParent NotesLoss parentFinding?
  cases m.parent? with
  | none => exact .inr ⟨by simp, rfl⟩
  | some name =>
    cases h : (ofModels ms).reference? m name with
    | none =>
      have hlost := reference?_ofModels_eq_none_iff.mp h
      refine .inl ⟨⟨name, rfl, hlost⟩, unresolvedParent m name, by simp [h], name, rfl, rfl, rfl,
        rfl, quote_unresolvedParent m name⟩
    | some r =>
      refine .inr ⟨?_, by simp [h]⟩
      rintro ⟨_, ⟨⟩, hlost⟩
      rw [reference?_ofModels_eq_none_iff.mpr hlost] at h
      exact nomatch h

/-- The dropped parents are reported after the hidden models, each once and in the order of the
models. -/
theorem findings_ofModels (ms : List Model) :
    ∃ dropped, (ofModels ms).findings = (ofModels ms).duplicates ++ dropped ∧
      List.Forall₂ NotesLoss (ms.filter (LosesParent ms)) dropped := by
  refine ⟨ms.filterMap (ofModels ms).parentFinding?, by rw [findings, models_ofModels], ?_⟩
  -- the catalogue stays that of all models while the list of those asked grows
  suffices h : ∀ asked : List Model, List.Forall₂ NotesLoss (asked.filter (LosesParent ms))
      (asked.filterMap (ofModels ms).parentFinding?) from h ms
  intro asked
  induction asked with
  | nil => exact .nil
  | cons m asked ih =>
    rcases parentFinding?_ofModels ms m with ⟨hlost, f, hf, hnotes⟩ | ⟨hkept, hf⟩
    · rw [List.filterMap_cons_some hf, List.filter_cons_of_pos (by simpa using hlost)]
      exact .cons hnotes ih
    · rw [List.filterMap_cons_none hf, List.filter_cons_of_neg (by simpa using hkept)]
      exact ih

/-- Linking loses nothing silently and invents nothing. There is one interface for each model, in
their order, with a property for each member, and all references lead to the first model of the name
that is declared; a declared parent that is no model is left out, and exactly these are reported,
behind the hidden models. -/
theorem interfaces_exact (ms : List Model) (dates : Bool) :
    List.Forall₂ (IsInterfaceOf ms dates) ms ((ofModels ms).interfaces dates) ∧
      ∃ dropped, (ofModels ms).findings = (ofModels ms).duplicates ++ dropped ∧
        List.Forall₂ NotesLoss (ms.filter (LosesParent ms)) dropped := by
  refine ⟨?_, findings_ofModels ms⟩
  rw [interfaces, models_ofModels, List.forall₂_map_right_iff, List.forall₂_same]
  exact fun m _ => isInterfaceOf_link ms dates m

-- a model that is called like a built-in type takes its place, also within itself
example : let m := Model.named "int".toList "blog".toList
    (ofModels [m]).propertyType true m "int".toList =
      .model ⟨"int".toList, "./int".toList⟩ := by
  decide +kernel

end Catalogue

end InterfaceGen
