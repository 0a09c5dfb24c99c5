import InterfaceGen.Proofs.Interface.Imports

/-! What a type name means in the file of an interface. A property prints the name of its type only,
whether that is a built-in type or a model. Names of models are in pascal case, and of the built-in
types only dates are printed so, hence a model that is called `Date` alone can be mistaken. -/

namespace InterfaceGen

namespace Builtin

variable {b b' : Builtin} {name : Text}

theorem text_injective : Function.Injective Builtin.text := by
  intro b b' h
  cases b <;> cases b' <;> first | rfl | exact absurd h (by decide)

/-- No name in pascal case is the text of a built-in type, dates aside. -/
theorem eq_date_of_text_eq (hname : Identifier.pascal name = name) (h : b.text = name) :
    b = .date := by
  subst h
  cases b with
  | date => rfl
  | number => exact absurd hname (by decide +kernel)
  | boolean => exact absurd hname (by decide +kernel)
  | string => exact absurd hname (by decide +kernel)
  | any => exact absurd hname (by decide +kernel)

theorem ofName_eq_date_iff {dates : Bool} :
    ofName dates name = .date ↔ dates = true ∧ name = "DateTime".toList := by
  unfold ofName
  constructor
  · intro h
    split_ifs at h with _ _ _ hdate
    rwa [Bool.and_eq_true, decide_eq_true_eq] at hdate
  · rintro ⟨rfl, rfl⟩
    decide

end Builtin

namespace Interface

/-- Every type name that the file of the interface prints stands for one type, and a built-in type
is neither printed like the interface itself nor like an import. -/
structure OneMeaning (i : Interface) : Prop where
  types : ∀ p ∈ i.properties, ∀ q ∈ i.properties, p.type.name = q.type.name → p.type = q.type
  builtins : ∀ p ∈ i.properties, ∀ b, p.type = .builtin b →
    b.text ≠ i.name ∧ b.text ∉ i.imports.map (·.name)

/-- It is enough that no built-in type is printed like the interface or like a reference, and that
the references are told apart by their names. -/
theorem oneMeaning_of_text_ne {i : Interface}
    (hname : ∀ r ∈ i.references, ∀ r' ∈ i.references, r.name = r'.name → r = r')
    (hself : ∀ p ∈ i.properties, ∀ b, p.type = .builtin b → b.text ≠ i.name)
    (hreference : ∀ p ∈ i.properties, ∀ b, p.type = .builtin b →
      ∀ r ∈ i.references, b.text ≠ r.name) : i.OneMeaning where
  types p hp q hq h := by
    have hrefers : ∀ p ∈ i.properties, ∀ r, p.type = .model r → r ∈ i.references :=
      fun p hp r htype => mem_references.mpr (Or.inr ⟨p, hp, htype⟩)
    cases htp : p.type with
    | builtin b =>
      cases htq : q.type with
      | builtin b' =>
        rw [htp, htq] at h
        exact congrArg _ (Builtin.text_injective h)
      | model r =>
        rw [htp, htq] at h
        exact absurd h (hreference p hp b htp r (hrefers q hq r htq))
    | model r =>
      cases htq : q.type with
      | builtin b =>
        rw [htp, htq] at h
        exact absurd h.symm (hreference q hq b htq r (hrefers p hp r htp))
      | model r' =>
        rw [htp, htq] at h
        exact congrArg _ (hname r (hrefers p hp r htp) r' (hrefers q hq r' htq) h)
  builtins p hp b hb := by
    refine ⟨hself p hp b hb, fun hmem => ?_⟩
    obtain ⟨r, hr, hname⟩ := List.mem_map.mp hmem
    exact hreference p hp b hb r (mem_imports.mp hr).1 hname.symm

end Interface

namespace Catalogue

variable {models : List Model} {dates : Bool} {m : Model}

/-- Dates are what a property is of that has been declared so, when dates are told apart and no
model bears the name. -/
theorem propertyType_eq_date_iff {name : Text} :
    (ofModels models).propertyType dates m name = .builtin .date ↔
      dates = true ∧ name = "DateTime".toList ∧ "DateTime".toList ∉ models.map (·.name) := by
  unfold propertyType
  cases h : (ofModels models).reference? m name with
  | some r =>
    have hmem : name ∈ models.map (·.name) := isSome_reference?_ofModels.mp (by rw [h]; rfl)
    refine iff_of_false nofun ?_
    rintro ⟨-, rfl, hnot⟩
    exact hnot hmem
  | none =>
    have hnot : name ∉ models.map (·.name) := by
      rw [← isSome_reference?_ofModels (m := m), h]
      exact Bool.false_ne_true
    rw [PropertyType.builtin.injEq, Builtin.ofName_eq_date_iff]
    refine and_congr_right fun _ => ⟨?_, And.left⟩
    rintro rfl
    exact ⟨rfl, hnot⟩

/-- A model whose file prints dates and also the name `Date` of a model, be it of its own, of its
parent or of a member. -/
structure ConfusesDates (models : List Model) (dates : Bool) (m : Model) : Prop where
  told : dates = true
  declared : ∃ member ∈ m.members, member.typeName = "DateTime".toList
  builtin : "DateTime".toList ∉ models.map (·.name)
  date : "Date".toList ∈ models.map (·.name)
  printed : m.name = "Date".toList ∨ "Date".toList ∈ m.mentions

/-- A property of an interface that is linked has its type from a member. -/
theorem mem_properties_link {c : Catalogue} {p : Property} (hp : p ∈ (c.link dates m).properties) :
    ∃ member ∈ m.members, p.type = c.propertyType dates m member.typeName := by
  obtain ⟨member, hmember, rfl⟩ := List.mem_map.mp hp
  exact ⟨member, hmember, rfl⟩

/-- The reference for a mentioned model is among those of the interface. -/
theorem exists_mem_references_link {name : Text} (hmention : name ∈ m.mentions)
    (hname : name ∈ models.map (·.name)) :
    ∃ r ∈ ((ofModels models).link dates m).references, r.name = name := by
  obtain ⟨r, hr⟩ := Option.isSome_iff_exists.mp (isSome_reference?_ofModels.mpr hname)
  refine ⟨r, ?_, name_of_reference? hr⟩
  rw [references_link]
  exact List.mem_filterMap.mpr ⟨name, hmention, hr⟩

/-- A built-in type that is printed like a model confuses dates. -/
theorem confusesDates_of_text_eq {b : Builtin} {p : Property} {name : Text}
    (hpascal : ∀ m ∈ models, Identifier.pascal m.name = m.name)
    (hp : p ∈ ((ofModels models).link dates m).properties) (hb : p.type = .builtin b)
    (hname : name ∈ models.map (·.name)) (htext : b.text = name)
    (hprinted : m.name = name ∨ name ∈ m.mentions) : ConfusesDates models dates m := by
  obtain ⟨m', hm', rfl⟩ := List.mem_map.mp hname
  obtain rfl := Builtin.eq_date_of_text_eq (hpascal m' hm') htext
  obtain ⟨member, hmember, htype⟩ := mem_properties_link hp
  obtain ⟨hdates, hdeclared, hbuiltin⟩ := propertyType_eq_date_iff.mp (htype.symm.trans hb)
  rw [← htext] at hname hprinted
  exact ⟨hdates, ⟨member, hmember, hdeclared⟩, hbuiltin, hname, hprinted⟩

theorem not_oneMeaning_of_confusesDates (h : ConfusesDates models dates m) :
    ¬((ofModels models).link dates m).OneMeaning := by
  intro hone
  obtain ⟨hdates, ⟨member, hmember, hdeclared⟩, hbuiltin, hdate, hprinted⟩ := h
  have htype : ((ofModels models).property dates m member).type = .builtin .date :=
    propertyType_eq_date_iff.mpr ⟨hdates, hdeclared, hbuiltin⟩
  obtain ⟨hself, himport⟩ := hone.builtins _ (List.mem_map_of_mem hmember) .date htype
  rcases hprinted with hname | hmention
  · exact hself hname.symm
  · obtain ⟨r, hr, hname⟩ := exists_mem_references_link hmention hdate
    refine himport (List.mem_map.mpr ⟨r, Interface.mem_imports.mpr ⟨hr, ?_⟩, hname⟩)
    rw [hname]
    exact hself

/-- In the file of a model a type name has one meaning, except where dates are told apart, a member
is a date and the file also prints the name of a model that is called `Date`. -/
theorem oneMeaning_link_iff (hpascal : ∀ m ∈ models, Identifier.pascal m.name = m.name)
    (hm : m ∈ models) :
    ((ofModels models).link dates m).OneMeaning ↔ ¬ConfusesDates models dates m := by
  refine ⟨fun hone hconfuses => not_oneMeaning_of_confusesDates hconfuses hone, fun hclear => ?_⟩
  apply Interface.oneMeaning_of_text_ne
  · exact fun r hr r' hr' => eq_of_mem_references_link hr hr'
  · intro p hp b hb htext
    exact hclear (confusesDates_of_text_eq hpascal hp hb (List.mem_map_of_mem hm) htext
      (Or.inl rfl))
  · intro p hp b hb r hr htext
    obtain ⟨hmention, hr⟩ := mem_references_link hr
    refine hclear (confusesDates_of_text_eq hpascal hp hb ?_ htext (Or.inr hmention))
    exact isSome_reference?_ofModels.mp (by rw [hr]; rfl)

/-- A model with a member that is a date and another whose type is the model `Date`. -/
def log : Model := { Model.named "Log".toList [] with
  members := [⟨"At".toList, "DateTime".toList, "DateTime".toList, false⟩,
    ⟨"Day".toList, "Date".toList, "Date".toList, false⟩] }

def calendar : List Model := [Model.named "Date".toList [], log]

theorem pascal_name_of_mem_calendar : ∀ m ∈ calendar, Identifier.pascal m.name = m.name := by
  decide +kernel

/-- Where dates are not told apart, the model `Date` is the only thing that is called so. -/
theorem log_oneMeaning : ((ofModels calendar).link false log).OneMeaning :=
  (oneMeaning_link_iff pascal_name_of_mem_calendar (by decide)).mpr (nomatch ·.told)

/-- Where they are, the log prints `Date` for two types, one of them an import. -/
theorem log_not_oneMeaning :
    (∀ m ∈ calendar, Identifier.pascal m.name = m.name) ∧ log ∈ calendar ∧
    ((ofModels calendar).link true log).properties.map (·.type) =
      [.builtin .date, .model ⟨"Date".toList, "./date".toList⟩] ∧
    ¬((ofModels calendar).link true log).OneMeaning :=
  ⟨pascal_name_of_mem_calendar, by decide, by decide +kernel, not_oneMeaning_of_confusesDates
    ⟨rfl, by decide, by decide +kernel, by decide +kernel, Or.inr (by decide)⟩⟩

end Catalogue

end InterfaceGen
