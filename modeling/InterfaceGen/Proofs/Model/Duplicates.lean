import InterfaceGen.Proofs.Model.Catalogue

/-! Which models a catalogue reports. A model is hidden when an earlier one has its name. Every hidden
model is reported once, in the order of the models, and the finding names the file to which all
references lead, that of the first model of the name and not of the last one before it. -/

namespace InterfaceGen

/-- The model at the position has the name of an earlier one. -/
def Model.IsHidden (ms : List Model) (i : Nat) : Prop :=
  ∃ m ∈ ms[i]?, ∃ n ∈ ms.take i, n.name = m.name

instance (ms : List Model) : DecidablePred (Model.IsHidden ms) := fun i =>
  inferInstanceAs (Decidable (∃ m ∈ ms[i]?, ∃ n ∈ ms.take i, n.name = m.name))

namespace Catalogue

/-- The positions of the hidden models. -/
def hidden (ms : List Model) : List Nat := (List.range ms.length).filter (Model.IsHidden ms)

/-- The finding is a warning at the path of the model at the position, and it quotes the path of the
first model of the name. -/
def WarnsOf (ms : List Model) (i : Nat) (f : Finding) : Prop :=
  ∃ m first, ms[i]? = some m ∧ first.IsFirst ms m.name ∧ f = duplicate first m ∧
    f.isWarning = true ∧ f.location = .file m.path ∧ first.path.text <:+: f.message

theorem quote_duplicate (first m : Model) : first.path.text <:+: (duplicate first m).message := by
  refine ⟨["model `".toList, m.name, "` is also defined in ".toList].flatten,
    "; references resolve to that one".toList, ?_⟩
  simp [duplicate]

variable {ms : List Model} {m : Model} {i : Nat}

theorem isHidden_concat (h : i < ms.length) :
    Model.IsHidden (ms ++ [m]) i ↔ Model.IsHidden ms i := by
  rw [Model.IsHidden, List.getElem?_append_left h, List.take_append_of_le_length (by omega)]
  rfl

theorem isHidden_length_concat :
    Model.IsHidden (ms ++ [m]) ms.length ↔ ((ofModels ms).find? m.name).isSome = true := by
  have hlast : (ms ++ [m])[ms.length]? = some m := List.getElem?_concat_length
  rw [Model.IsHidden, hlast, List.take_left]
  simp [find?_ofModels, List.find?_isSome]

theorem hidden_concat (ms : List Model) (m : Model) : hidden (ms ++ [m]) =
    hidden ms ++ if ((ofModels ms).find? m.name).isSome = true then [ms.length] else [] := by
  have hbefore : (List.range ms.length).filter (Model.IsHidden (ms ++ [m])) = hidden ms := by
    apply List.filter_congr
    intro i hi
    simp only [isHidden_concat (List.mem_range.mp hi)]
  rw [hidden, List.length_append, List.length_singleton, List.range_succ, List.filter_append,
    hbefore, List.filter_singleton]
  simp only [isHidden_length_concat, Bool.cond_decide]

theorem WarnsOf.concat {f : Finding} (h : WarnsOf ms i f) (m : Model) :
    WarnsOf (ms ++ [m]) i f := by
  obtain ⟨n, first, hn, ⟨before, after, hms, hfirst⟩, hf⟩ := h
  have hi : i < ms.length := (List.getElem?_eq_some_iff.mp hn).1
  refine ⟨n, first, ?_, ⟨before, after ++ [m], ?_, hfirst⟩, hf⟩
  · rw [List.getElem?_append_left hi, hn]
  · rw [hms, List.append_assoc, List.cons_append]

theorem warnsOf_duplicate {first : Model} (h : first.IsFirst ms m.name) :
    WarnsOf (ms ++ [m]) ms.length (duplicate first m) := by
  obtain ⟨before, after, hms, hfirst⟩ := h
  refine ⟨m, first, List.getElem?_concat_length, ⟨before, after ++ [m], ?_, hfirst⟩, rfl, rfl, rfl,
    quote_duplicate first m⟩
  rw [hms, List.append_assoc, List.cons_append]

/-- The hidden models are those that are reported. -/
theorem duplicates_ofModels (ms : List Model) :
    List.Forall₂ (WarnsOf ms) (hidden ms) (ofModels ms).duplicates := by
  induction ms using List.reverseRecOn with
  | nil => exact .nil
  | append_singleton ms m ih =>
    rw [hidden_concat, duplicates_ofModels_concat]
    refine List.rel_append (ih.imp fun i f h => h.concat m) ?_
    cases hfind : (ofModels ms).find? m.name with
    | none => exact .nil
    | some first =>
      exact .cons (warnsOf_duplicate (find?_ofModels_eq_some_iff.mp hfind)) .nil

/-- A catalogue holds the models as they are given and finds under every name the first model that has
it, whatever follows. It reports the hidden models, each once and in their order, which are as many as
there are models beyond one for each name. -/
theorem ofModels_exact (ms : List Model) :
    (ofModels ms).models = ms ∧
    (∀ name m, (ofModels ms).find? name = some m ↔ m.IsFirst ms name) ∧
    (∀ name, (ofModels ms).find? name = none ↔ ∀ m ∈ ms, m.name ≠ name) ∧
    List.Forall₂ (WarnsOf ms) (hidden ms) (ofModels ms).duplicates ∧
    (ofModels ms).duplicates.length + (ms.map (·.name)).toFinset.card = ms.length :=
  ⟨models_ofModels ms, fun _ _ => find?_ofModels_eq_some_iff, fun _ => find?_ofModels_eq_none_iff,
    duplicates_ofModels ms, length_duplicates_ofModels ms⟩

-- the third model of a name is hidden by the first one, as the second is
example : let tag (group : String) := Model.named "Tag".toList group.toList
    (ofModels [tag "x", tag "y", tag "z"]).duplicates =
      [duplicate (tag "x") (tag "y"), duplicate (tag "x") (tag "z")] := by
  decide

end Catalogue

end InterfaceGen
