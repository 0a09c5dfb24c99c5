import InterfaceGen.Model.Catalogue
import InterfaceGen.Model.Extraction
import Mathlib.Tactic

/-! A catalogue is grown one model at a time and asked by name. Here the growing is taken out of the
picture: the catalogue of a list holds that list, and asking it for a name is searching the list for
the first model of that name. -/

namespace InterfaceGen

/-- The model is the first one in the list with the name. -/
def Model.IsFirst (ms : List Model) (name : Text) (m : Model) : Prop :=
  ∃ before after, ms = before ++ m :: after ∧ m.name = name ∧ ∀ n ∈ before, n.name ≠ name

namespace Catalogue

@[simp] theorem models_add (c : Catalogue) (m : Model) : (c.add m).models = c.models ++ [m] := by
  unfold add
  split <;> rfl

/-- A model that joins the catalogue is found under its name unless an earlier one is. -/
theorem find?_add (c : Catalogue) (m : Model) (name : Text) :
    (c.add m).find? name = (c.find? name).or ([m].find? (·.name == name)) := by
  unfold add
  split
  next h => simp only [find?, List.find?_append]
  next first h =>
    change c.find? name = _
    by_cases hn : m.name = name
    · subst hn
      rw [h, Option.some_or]
    · simp [hn]

theorem models_foldl_add (ms : List Model) (c : Catalogue) :
    (ms.foldl add c).models = c.models ++ ms := by
  induction ms generalizing c with
  | nil => simp
  | cons m ms ih => simp [ih]

theorem find?_foldl_add (ms : List Model) (c : Catalogue) (name : Text) :
    (ms.foldl add c).find? name = (c.find? name).or (ms.find? (·.name == name)) := by
  induction ms generalizing c with
  | nil => simp
  | cons m ms ih =>
    rw [List.foldl_cons, ih, find?_add, Option.or_assoc, ← List.find?_append]
    rfl

@[simp] theorem models_ofModels (ms : List Model) : (ofModels ms).models = ms := by
  simp [ofModels, models_foldl_add]

/-- The index of first occurrences answers like a search through the whole list. -/
theorem find?_ofModels (ms : List Model) (name : Text) :
    (ofModels ms).find? name = ms.find? (·.name == name) := by
  rw [ofModels, find?_foldl_add]
  rfl

/-- The index finds the first model of a name. -/
theorem find?_ofModels_eq_some_iff {ms : List Model} {name : Text} {m : Model} :
    (ofModels ms).find? name = some m ↔ m.IsFirst ms name := by
  rw [find?_ofModels, List.find?_eq_some_iff_append, Model.IsFirst, beq_iff_eq]
  constructor
  · rintro ⟨hname, before, after, hms, hbefore⟩
    exact ⟨before, after, hms, hname, by simpa using hbefore⟩
  · rintro ⟨before, after, hms, hname, hbefore⟩
    exact ⟨hname, before, after, hms, by simpa using hbefore⟩

theorem find?_ofModels_eq_none_iff {ms : List Model} {name : Text} :
    (ofModels ms).find? name = none ↔ ∀ m ∈ ms, m.name ≠ name := by
  simp [find?_ofModels]

theorem ofModels_concat (ms : List Model) (m : Model) :
    ofModels (ms ++ [m]) = (ofModels ms).add m :=
  List.foldl_concat add {} m ms

theorem duplicates_ofModels_concat (ms : List Model) (m : Model) :
    (ofModels (ms ++ [m])).duplicates =
      (ofModels ms).duplicates ++ (((ofModels ms).find? m.name).map (duplicate · m)).toList := by
  rw [ofModels_concat, add]
  split <;> simp [*]

/-- All models but the first of each name are reported. -/
theorem length_duplicates_ofModels (ms : List Model) :
    (ofModels ms).duplicates.length + (ms.map (·.name)).toFinset.card = ms.length := by
  induction ms using List.reverseRecOn with
  | nil => rfl
  | append_singleton ms m ih =>
    have hnames : ((ms ++ [m]).map (·.name)).toFinset =
        insert m.name (ms.map (·.name)).toFinset := by
      ext name
      simp
    rw [duplicates_ofModels_concat, hnames, List.length_append, List.length_append, ← ih]
    cases hfind : (ofModels ms).find? m.name with
    | none =>
      have hnew : m.name ∉ (ms.map (·.name)).toFinset := by
        simpa using find?_ofModels_eq_none_iff.mp hfind
      rw [Finset.card_insert_of_notMem hnew]
      rfl
    | some first =>
      obtain ⟨before, after, hms, hname, -⟩ := find?_ofModels_eq_some_iff.mp hfind
      have hold : m.name ∈ (ms.map (·.name)).toFinset := by
        simp [hms, hname]
      rw [Finset.insert_eq_of_mem hold]
      exact Nat.add_right_comm _ 1 _

/-- Nothing is reported as a duplicate exactly when no two models have one name. -/
theorem duplicates_ofModels_eq_nil_iff (ms : List Model) :
    (ofModels ms).duplicates = [] ↔ (ms.map (·.name)).Nodup := by
  have hlength := length_duplicates_ofModels ms
  have hnames : (ms.map (·.name)).length = ms.length := List.length_map _
  rw [List.card_toFinset] at hlength
  rw [← List.length_eq_zero_iff, ← List.dedup_eq_self]
  refine ⟨fun h => (List.dedup_sublist _).eq_of_length (by omega), fun h => ?_⟩
  rw [h] at hlength
  omega

theorem name_of_find? {c : Catalogue} {name : Text} {m : Model} (h : c.find? name = some m) :
    m.name = name := by
  simpa using List.find?_some h

end Catalogue

/-- The type names that a model mentions: its parent, then the types of its members. -/
def Model.mentions (m : Model) : List Text := m.parent?.toList ++ m.members.map (·.typeName)

@[simp] theorem Source.model_name (s : Source) : s.model.name = s.name := rfl

@[simp] theorem Source.model_group (s : Source) : s.model.group = s.group := rfl

end InterfaceGen
