import InterfaceGen.Proofs.Interface.Lines
import InterfaceGen.Proofs.Interface.Linking

/-! Which names the file of an interface imports. The printer drops a reference only when the very
same one is listed, name and path; that no name is imported twice rests on linking, where a name has
one path within one interface. -/

namespace InterfaceGen

/-- Where `f` tells the elements apart, erasing repetitions may wait until after `f`. -/
theorem map_eraseDups {α β : Type*} [BEq α] [LawfulBEq α] [BEq β] [LawfulBEq β] {f : α → β}
    {l : List α} (hf : ∀ a ∈ l, ∀ b ∈ l, f a = f b → a = b) :
    l.eraseDups.map f = (l.map f).eraseDups := by
  match l with
  | [] => rfl
  | a :: l =>
    have hfilter : l.filter ((!· == f a) ∘ f) = l.filter (!· == a) := by
      apply List.filter_congr
      intro b hb
      have hab : f b = f a ↔ b = a :=
        ⟨hf b (List.mem_cons_of_mem a hb) a List.mem_cons_self, congrArg f⟩
      by_cases h : b = a <;> simp [h, hab.not.mpr]
    rw [List.eraseDups_cons, List.map_cons, List.map_cons, List.eraseDups_cons, List.filter_map,
      hfilter, map_eraseDups]
    intro b hb b' hb'
    exact hf b (List.mem_cons_of_mem a (List.mem_of_mem_filter hb)) b'
      (List.mem_cons_of_mem a (List.mem_of_mem_filter hb'))
termination_by l.length
decreasing_by exact Nat.lt_succ_of_le (List.length_filter_le _ _)

namespace Interface

/-- Adding references one by one appends those that are new and foreign, each once. -/
theorem foldl_addImport (i : Interface) (rs listed : List Reference) :
    rs.foldl i.addImport listed =
      listed ++ (rs.filter fun r => r.name ≠ i.name ∧ r ∉ listed).eraseDups := by
  induction rs generalizing listed with
  | nil => simp
  | cons r rs ih =>
    rw [List.foldl_cons, ih, addImport]
    by_cases h : r.name = i.name ∨ r ∈ listed
    · have hr : ¬(r.name ≠ i.name ∧ r ∉ listed) := by tauto
      simp [h, hr]
    · have hr : r.name ≠ i.name ∧ r ∉ listed := by tauto
      have hrest : rs.filter (fun x => x.name ≠ i.name ∧ x ∉ listed ++ [r]) =
          (rs.filter fun x => x.name ≠ i.name ∧ x ∉ listed).filter (!· == r) := by
        rw [List.filter_filter]
        apply List.filter_congr
        intro x _
        by_cases hx : x = r <;> simp [hx]
      rw [if_neg h, hrest, List.filter_cons_of_pos (by simpa using hr), List.eraseDups_cons,
        List.append_assoc, List.singleton_append]

/-- The imports are the foreign references, each at its first occurrence. -/
theorem imports_eq_eraseDups (i : Interface) :
    i.imports = (i.references.filter (·.name ≠ i.name)).eraseDups := by
  simp [imports, foldl_addImport]

theorem mem_imports {i : Interface} {r : Reference} :
    r ∈ i.imports ↔ r ∈ i.references ∧ r.name ≠ i.name := by
  simp [imports_eq_eraseDups]

/-- Where a name determines the reference, the imported names are the foreign names that the
interface refers to, each at its first occurrence. -/
theorem map_name_imports {i : Interface}
    (h : ∀ r ∈ i.references, ∀ r' ∈ i.references, r.name = r'.name → r = r') :
    i.imports.map (·.name) = ((i.references.map (·.name)).filter (· ≠ i.name)).eraseDups := by
  rw [imports_eq_eraseDups, map_eraseDups, List.filter_map]
  · rfl
  · intro r hr r' hr'
    exact h r (List.mem_of_mem_filter hr) r' (List.mem_of_mem_filter hr')

theorem nodup_addImport {i : Interface} {listed : List Reference} (r : Reference)
    (h : listed.Nodup) : (i.addImport listed r).Nodup := by
  unfold addImport
  split_ifs with hr
  · exact h
  · rw [← List.concat_eq_append]
    exact h.concat fun hmem => hr (Or.inr hmem)

theorem nodup_foldl_addImport {i : Interface} (rs : List Reference) {listed : List Reference}
    (h : listed.Nodup) : (rs.foldl i.addImport listed).Nodup := by
  induction rs generalizing listed with
  | nil => exact h
  | cons r rs ih => exact ih (nodup_addImport r h)

theorem nodup_imports (i : Interface) : i.imports.Nodup :=
  nodup_foldl_addImport _ List.nodup_nil

/-- The file of an interface is closed in its symbols: it imports no name twice and not its own,
every name that its header or a property prints is declared here or imported once, no import goes
unused, and the imports stand in the order in which the parent and the properties first mention
them, one on each line. What is printed is said twice, by the references of the interface and by its
parent and the types of its properties. -/
theorem imports_close_file {dates : Bool} {sources : List Source} {i : Interface}
    (hi : i ∈ (Generation.catalogue sources).interfaces dates) :
    (i.imports.map (·.name)).Nodup ∧
    i.name ∉ i.imports.map (·.name) ∧
    (∀ name, name ∈ i.imports.map (·.name) ↔
      name ∈ i.references.map (·.name) ∧ name ≠ i.name) ∧
    (∀ r ∈ i.references, r.name = i.name ∨ (i.imports.map (·.name)).count r.name = 1) ∧
    (∀ r ∈ i.imports, r ∈ i.references) ∧
    i.imports.map (·.name) = ((i.references.map (·.name)).filter (· ≠ i.name)).eraseDups ∧
    (∀ layout, i.contents layout = Text.ofLines (i.lines layout)) ∧
    (∀ r, i.parent? = some r ∨ (∃ p ∈ i.properties, p.type = .model r) →
      r.name = i.name ∨ (i.imports.map (·.name)).count r.name = 1) ∧
    ∀ r ∈ i.imports, i.parent? = some r ∨ ∃ p ∈ i.properties, p.type = .model r := by
  obtain ⟨s, -, rfl⟩ := Generation.mem_interfaces_catalogue.mp hi
  set i := (Generation.catalogue sources).link dates s.model
  have hname : ∀ r ∈ i.references, ∀ r' ∈ i.references, r.name = r'.name → r = r' :=
    fun r hr r' hr' => Catalogue.eq_of_mem_references_link hr hr'
  have hnodup : (i.imports.map (·.name)).Nodup :=
    (nodup_imports i).map_on fun r hr r' hr' =>
      hname r (mem_imports.mp hr).1 r' (mem_imports.mp hr').1
  have hmem : ∀ name, name ∈ i.imports.map (·.name) ↔
      name ∈ i.references.map (·.name) ∧ name ≠ i.name := by
    intro name
    rw [map_name_imports hname]
    simp
  have honce : ∀ r ∈ i.references,
      r.name = i.name ∨ (i.imports.map (·.name)).count r.name = 1 := by
    intro r hr
    by_cases h : r.name = i.name
    · exact Or.inl h
    · exact Or.inr (List.count_eq_one_of_mem hnodup
        ((hmem _).mpr ⟨List.mem_map_of_mem hr, h⟩))
  exact ⟨hnodup, fun h => ((hmem _).mp h).2 rfl, hmem, honce, fun r hr => (mem_imports.mp hr).1,
    map_name_imports hname, fun layout => contents_eq_ofLines layout i,
    fun r hr => honce r (mem_references.mpr hr),
    fun r hr => mem_references.mp (mem_imports.mp hr).1⟩

/-- The post imports its parent and the tag, once each, and not itself. -/
theorem post_imports_close_file :
    Generation.post ∈ (Generation.catalogue Generation.site).interfaces true ∧
    (Generation.post.imports.map (·.name)).Nodup ∧
    Generation.post.imports.map (·.name) = ["Entity".toList, "Tag".toList] ∧
    ∀ r ∈ Generation.post.imports, Generation.post.parent? = some r ∨
      ∃ p ∈ Generation.post.properties, p.type = .model r := by
  have hpost := Generation.post_mem_interfaces
  obtain ⟨hnodup, -, -, -, -, horder, -, -, hprinted⟩ := imports_close_file hpost
  exact ⟨hpost, hnodup, horder.trans (by decide +kernel), hprinted⟩

end Interface

end InterfaceGen
