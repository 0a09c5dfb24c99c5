import InterfaceGen.Proofs.Interface.ImportPath
import InterfaceGen.Proofs.Interface.Imports
import InterfaceGen.Proofs.Interface.Lines
import InterfaceGen.Proofs.Model.Extraction
import InterfaceGen.Proofs.Text.Search

/-! The file of an interface read back. Names of members are parts of tokens, so that no blank gets
into them; other names and groups are as they are given. Therefore each of the lines that the
printer puts together stays one line, and a property falls apart at its first colon with a space. -/

namespace InterfaceGen

open Text

theorem Text.splitOn_ofLines {lines : List Text} (h : ∀ line ∈ lines, '\n' ∉ line) :
    (Text.ofLines lines).splitOn '\n' = lines ++ [[]] := by
  induction lines with
  | nil => simp
  | cons line lines ih =>
    obtain ⟨hline, hlines⟩ := List.forall_mem_cons.mp h
    rw [Text.ofLines_cons, List.splitOn_append_cons_self_of_not_mem hline, ih hlines,
      List.cons_append]

namespace Property

/-- Reads a line of a property: without the indentation and the semicolon, its name is what comes
before the first colon with a space, and its type what comes after it. -/
def parts? (indent line : Text) : Option (Text × Text) := do
  let t ← withoutTail? [';'] (← withoutLead? indent line)
  let name := before ": ".toList t
  let type ← withoutLead? (name ++ ": ".toList) t
  return (name, type)

variable {p : Property}

/-- A name without spaces ends at the first colon with a space. -/
theorem before_name {n : Text} (hn : ' ' ∉ n) (t : Text) :
    before ": ".toList (n ++ (": ".toList ++ t)) = n := by
  have hcolon : ": ".toList = [':', ' '] := rfl
  rw [before_append, before_of_isPrefix (List.prefix_append _ _), List.append_nil]
  intro v hne hv h
  rw [hcolon] at h
  match v, hne, h with
  | [d], _, h => simp [List.cons_prefix_cons] at h
  | d :: e :: v, _, h =>
    simp only [List.cons_append, List.cons_prefix_cons] at h
    obtain ⟨-, rfl, -⟩ := h
    exact hn (hv.subset (by simp))

theorem parts?_line (hname : ' ' ∉ p.name) (indent : Text) :
    parts? indent (indent ++ p.line) = some (Identifier.camel p.name, p.typeText) := by
  have hcamel : ' ' ∉ Identifier.camel p.name := fun h =>
    hname (Identifier.mem_of_mem_camel h (by decide))
  have hline : p.line = Identifier.camel p.name ++ (": ".toList ++ p.typeText) ++ [';'] := by
    simp [line]
  rw [parts?, withoutLead?_append, hline]
  simp only [Option.bind_eq_bind, Option.bind_some]
  rw [withoutTail?_append]
  simp only [Option.bind_some]
  rw [before_name hcamel, ← List.append_assoc, withoutLead?_append]
  rfl

end Property

section Lines

variable {name : Text}

theorem newline_notMem_flatten {parts : List Text} (h : ∀ t ∈ parts, '\n' ∉ t) :
    '\n' ∉ parts.flatten := by
  simpa using h

theorem newline_notMem_camel (h : '\n' ∉ name) : '\n' ∉ Identifier.camel name := fun hmem =>
  h (Identifier.mem_of_mem_camel hmem (by decide))

theorem newline_notMem_importPath {source target : Text} (ht : '\n' ∉ target) (hn : '\n' ∉ name) :
    '\n' ∉ importPath source target name := by
  have hfile := newline_notMem_camel hn
  unfold importPath
  split_ifs <;> simp [ht, hfile]

theorem Reference.newline_notMem_importLine {r : Reference} (hn : '\n' ∉ r.name)
    (hp : '\n' ∉ r.importPath) : '\n' ∉ r.importLine := by
  apply newline_notMem_flatten
  simp only [List.forall_mem_cons]
  exact ⟨by decide, hn, by decide, hp, by decide, by simp⟩

theorem Property.newline_notMem_line {p : Property} (hn : '\n' ∉ p.name)
    (ht : ∀ r, p.type = .model r → '\n' ∉ r.name) : '\n' ∉ p.line := by
  have htype : '\n' ∉ p.type.name := by
    cases h : p.type with
    | builtin b => cases b <;> decide
    | model r => exact ht r h
  have harray : '\n' ∉ if p.isArray = true then "[]".toList else [] := by
    split_ifs <;> decide
  apply newline_notMem_flatten
  simp only [List.forall_mem_cons, typeText, List.mem_append, not_or]
  exact ⟨newline_notMem_camel hn, by decide, ⟨htype, harray⟩, by decide, by simp⟩

theorem Interface.newline_notMem_header {i : Interface} (hn : '\n' ∉ i.name)
    (hp : ∀ r ∈ i.parent?, '\n' ∉ r.name) : '\n' ∉ i.header := by
  unfold header
  split
  next r h =>
    apply newline_notMem_flatten
    simp only [List.forall_mem_cons]
    exact ⟨by decide, hn, by decide, hp r h, by decide, by simp⟩
  next =>
    apply newline_notMem_flatten
    simp only [List.forall_mem_cons]
    exact ⟨by decide, hn, by decide, by simp⟩

end Lines

namespace Interface

variable {dates : Bool} {sources : List Source} {i : Interface}

/-- Properties bear the names of members. -/
theorem newline_notMem_property_name (hi : i ∈ (Generation.catalogue sources).interfaces dates)
    {p : Property} (hp : p ∈ i.properties) : '\n' ∉ p.name := by
  obtain ⟨s, -, rfl⟩ := Generation.mem_interfaces_catalogue.mp hi
  obtain ⟨m, hm, rfl⟩ := List.mem_map.mp hp
  exact Source.notMem_member_name hm (by decide)

/-- References bring in no line feed that is not in a name or in a group. -/
theorem newline_notMem_reference (hs : ∀ s ∈ sources, '\n' ∉ s.name ∧ '\n' ∉ s.group)
    (hi : i ∈ (Generation.catalogue sources).interfaces dates) {r : Reference}
    (hr : r ∈ i.references) : '\n' ∉ r.name ∧ '\n' ∉ r.importPath := by
  obtain ⟨t, ht, hfind, hpath⟩ := Generation.exists_target hi hr
  have hname : t.name = r.name := by simpa using List.find?_some hfind
  obtain ⟨s, hmem, rfl⟩ := Generation.mem_interfaces_catalogue.mp ht
  rw [← hname, hpath]
  exact ⟨(hs s hmem).1, newline_notMem_importPath (hs s hmem).2 (hs s hmem).1⟩

/-- Each line of a file is a line. -/
theorem newline_notMem_lines {layout : Layout}
    (hs : ∀ s ∈ sources, '\n' ∉ s.name ∧ '\n' ∉ s.group) (hindent : '\n' ∉ layout.indent)
    (hi : i ∈ (Generation.catalogue sources).interfaces dates) :
    ∀ line ∈ i.lines layout, '\n' ∉ line := by
  have hreference := fun r hr => newline_notMem_reference hs hi (r := r) hr
  have hname : '\n' ∉ i.name := by
    obtain ⟨s, hmem, rfl⟩ := Generation.mem_interfaces_catalogue.mp hi
    exact (hs s hmem).1
  have himports : ∀ r ∈ i.imports, '\n' ∉ r.importLine := fun r hr =>
    have ⟨hrname, hrpath⟩ := hreference r (mem_imports.mp hr).1
    Reference.newline_notMem_importLine hrname hrpath
  have hheader := newline_notMem_header hname fun r hr =>
    (hreference r (mem_references.mpr (Or.inl hr))).1
  have hproperties : ∀ p ∈ i.properties, '\n' ∉ layout.indent ++ p.line := by
    intro p hp
    have hline := Property.newline_notMem_line (newline_notMem_property_name hi hp) fun r hr =>
      (hreference r (mem_references.mpr (Or.inr ⟨p, hp, hr⟩))).1
    simp [hindent, hline]
  have hbanner : ∀ line ∈ (if layout.banner = true then [bannerLine, []] else []), '\n' ∉ line := by
    split_ifs <;> decide
  have hblank : ∀ line ∈ (if i.imports.isEmpty = true then [] else [[]] : List Text),
      '\n' ∉ line := by
    split_ifs <;> simp
  simp only [lines, List.forall_mem_append, List.forall_mem_cons, List.forall_mem_map]
  exact ⟨⟨⟨⟨hbanner, himports⟩, hblank⟩, hheader, hproperties⟩, by decide, by simp⟩

/-- The file of a source reads back line by line. Split at its line feeds, it is the banner and an
empty line if wanted, a line for each import and an empty line if there are any, the header, a line
for each member in the order of the declaration, the closing brace and nothing more; and the line of
a member, without its indentation and its semicolon, falls apart at the first colon with a space
into the name and the type. -/
theorem contents_read_back (dates : Bool) {layout : Layout} {sources : List Source}
    (hs : ∀ s ∈ sources, '\n' ∉ s.name ∧ '\n' ∉ s.group) (hindent : '\n' ∉ layout.indent)
    {s : Source} (hmem : s ∈ sources) :
    let c := Generation.catalogue sources
    let i := c.link dates s.model
    (i.contents layout).splitOn '\n' =
        (if layout.banner then [bannerLine, []] else []) ++ i.imports.map (·.importLine) ++
          (if i.imports.isEmpty then [] else [[]]) ++ [i.header] ++
          s.model.members.map (fun m => layout.indent ++ (c.property dates s.model m).line) ++
          [footer, []] ∧
      ∀ m ∈ s.model.members,
        let p := c.property dates s.model m
        Property.parts? layout.indent (layout.indent ++ p.line) =
          some (Identifier.camel m.name, p.type.name ++ if m.isArray then "[]".toList else []) := by
  intro c i
  have hi : i ∈ (Generation.catalogue sources).interfaces dates :=
    Generation.mem_interfaces_catalogue.mpr ⟨s, hmem, rfl⟩
  constructor
  · rw [contents_eq_ofLines, Text.splitOn_ofLines (newline_notMem_lines hs hindent hi)]
    simp [lines, i, c, Catalogue.link, Function.comp_def]
  · intro m hm
    have hspace : ' ' ∉ m.name := Source.notMem_member_name hm (by decide)
    exact Property.parts?_line (p := c.property dates s.model m) hspace layout.indent

/-- The file of the post has a banner, two imports and four properties. -/
theorem post_contents_read_back :
    (∀ s ∈ Generation.site, '\n' ∉ s.name ∧ '\n' ∉ s.group) ∧
    '\n' ∉ ({} : Layout).indent ∧
    Generation.site[1] ∈ Generation.site ∧
    (Generation.post.contents {}).splitOn '\n' =
      ["/* Auto Generated */".toList, [], "import \x7b Entity \x7d from \"../entity\"".toList,
        "import \x7b Tag \x7d from \"../meta/tag\"".toList, [],
        "export interface Post extends Entity \x7b".toList, "\ttags: Tag[];".toList,
        "\tnext: Post;".toList, "\tfirst: Tag;".toList, "\towner: Entity;".toList,
        "\x7d".toList, []] := by
  have hs : ∀ s ∈ Generation.site, '\n' ∉ s.name ∧ '\n' ∉ s.group := by decide +kernel
  have hindent : '\n' ∉ ({} : Layout).indent := by decide
  have hmem : Generation.site[1] ∈ Generation.site := List.getElem_mem _
  have hpost : (Generation.catalogue Generation.site).link true Generation.site[1].model =
      Generation.post := by decide +kernel
  have hlines := (contents_read_back true hs hindent hmem).1
  rw [hpost] at hlines
  exact ⟨hs, hindent, hmem, hlines.trans (by decide +kernel)⟩

end Interface

end InterfaceGen
