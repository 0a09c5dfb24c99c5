import InterfaceGen.Proofs.Declaration.ElementType
import InterfaceGen.Proofs.Declaration.Grammar
import InterfaceGen.Proofs.Model.Composition

/-! What follows the name of a member. An initializer or an accessor block is cut off when the
member is read, but a line is classified as a whole before that. So what follows the name takes no
part in the member, and it hides the member altogether if it makes the line look like a method or a
type declaration: by both parentheses, or by a word that opens a type declaration. -/

namespace InterfaceGen

open Text

namespace ElementType

/-- A type that is an element or a collection of elements, named by an identifier. -/
inductive IsDeclaration : Text → Prop
  | element (e : Element) (h : IsIdentifier e.name) : IsDeclaration e.text
  | collection {marker : Text} (hmarker : marker ∈ collections) (e : Element)
      (h : IsIdentifier e.name) : IsDeclaration (e.inCollection marker)

namespace IsDeclaration

variable {t : Text} {c : Char}

/-- A declared type is written with word characters and a few marks. -/
theorem isWordChar_or_mem (h : IsDeclaration t) (hc : c ∈ t) :
    isWordChar c = true ∨ c ∈ "@?[]<>".toList := by
  have hmarks : ∀ c ∈ ['?', '[', ']'], c ∈ "@?[]<>".toList := by decide
  have helement : ∀ e : Element, IsIdentifier e.name → c ∈ e.text →
      isWordChar c = true ∨ c ∈ "@?[]<>".toList := by
    intro e hname hc
    rcases e.mem_text hc with hc | hc
    · exact (hname.wordChars c hc).imp_right (by rintro rfl; decide)
    · exact Or.inr (hmarks c hc)
  cases h with
  | element e hname => exact helement e hname hc
  | collection hmarker e hname =>
    have hknown : ∀ marker ∈ collections, ∀ c ∈ marker, isWordChar c = true := by decide +kernel
    simp only [Element.inCollection, List.mem_append, List.mem_cons, List.not_mem_nil,
      or_false] at hc
    rcases hc with hc | rfl | hc | rfl
    · exact Or.inl (hknown _ hmarker c hc)
    · exact Or.inr (by decide)
    · exact helement e hname hc
    · exact Or.inr (by decide)

theorem notMem (h : IsDeclaration t) (hc : isWordChar c = false) (hmark : c ∉ "@?[]<>".toList) :
    c ∉ t := by
  intro hmem
  rcases h.isWordChar_or_mem hmem with hw | hw
  · rw [hc] at hw
    cases hw
  · exact hmark hw

theorem isBlank_of_mem (h : IsDeclaration t) : ∀ c ∈ t, isBlank c = false := by
  intro c hc
  by_contra hblank
  rw [Bool.not_eq_false] at hblank
  refine h.notMem (isWordChar_of_isBlank hblank) (fun hmark => ?_) hc
  have hmarks : ∀ c ∈ "@?[]<>".toList, isBlank c = false := by decide
  rw [hmarks c hmark] at hblank
  cases hblank

/-- Angle brackets come in pairs, of which there is one at most. -/
theorem count_eq (h : IsDeclaration t) : t.count '<' = t.count '>' := by
  have hopen (e : Element) := List.count_eq_zero.mpr (e.notMem_text (Or.inl rfl))
  have hclose (e : Element) := List.count_eq_zero.mpr (e.notMem_text (Or.inr rfl))
  cases h with
  | element e hname => rw [hopen, hclose]
  | collection hmarker e hname =>
    have hknown : ∀ marker ∈ collections, marker.count '<' = marker.count '>' := by decide
    simp [Element.inCollection, List.count_append, hopen, hclose, hknown _ hmarker]

theorem name_ne_nil (h : IsDeclaration t) : (ofDeclared t).name ≠ [] := by
  cases h with
  | element e hname =>
    obtain ⟨rest, hrest⟩ := e.ofDeclared_text
    rw [hrest, Element.unwrapped_text]
    split_ifs
    · decide
    · exact e.name_ne_nil
  | collection hmarker e hname =>
    have hfound := congrArg ElementType.name (e.ofDeclared_inCollection hmarker false 0)
    rw [if_neg (by decide), List.replicate_zero, List.append_nil, List.append_nil] at hfound
    rw [hfound]
    exact e.name_ne_nil

end IsDeclaration

end ElementType

/-- The beginning of a line that declares a public member, up to and with its name. -/
structure MemberStart where
  type : Text
  name : Text
  type_declared : ElementType.IsDeclaration type
  name_isIdentifier : IsIdentifier name := by decide +kernel
  noModifier : type ∉ Member.modifiers ∧ name ∉ Member.modifiers := by decide
  noMarker : ∀ k ∈ Line.typeMarkers, Line.hasWord type k = false ∧ Line.hasWord name k = false := by
    decide +kernel

/-- The tail makes a line look like a method or a type declaration. -/
def Line.Hides (tail : Text) : Prop :=
  ('(' ∈ code tail ∧ ')' ∈ code tail) ∨ typeMarkers.any (hasWord (code tail)) = true

instance (tail : Text) : Decidable (Line.Hides tail) := inferInstanceAs (Decidable (_ ∨ _))

namespace MemberStart

/-- The line that goes on with the tail. -/
def line (m : MemberStart) (tail : Text) : Text := Line.declaring m.type m.name tail

/-- The member that is declared. -/
def member (m : MemberStart) : Member :=
  ⟨m.name, m.type, (ElementType.ofDeclared m.type).name, (ElementType.ofDeclared m.type).isArray⟩

variable (m : MemberStart) {c : Char} {tail : Text}

theorem notMem_name (hc : isWordChar c = false) (hsign : c ≠ '@') : c ∉ m.name :=
  notMem_of_wordChars m.name_isIdentifier.wordChars hc hsign

theorem code_line (tail : Text) : Line.code (m.line tail) = m.line (Line.code tail) := by
  have hstart : '/' ∉ "public ".toList := by decide
  have htype : '/' ∉ m.type := m.type_declared.notMem (by decide +kernel) (by decide)
  have hgap : '/' ∉ [' '] := by decide
  have hname : '/' ∉ m.name := m.notMem_name (by decide +kernel) (by decide)
  have hsplit (t : Text) :
      m.line t = "public ".toList ++ (m.type ++ ([' '] ++ (m.name ++ t))) := rfl
  rw [hsplit, hsplit, Line.code_append hstart, Line.code_append htype, Line.code_append hgap,
    Line.code_append hname]

theorem isWordChar_of_stops (h : Stops Member.endsName tail) :
    ∀ c ∈ tail.head?, isWordChar c = false := by
  intro c hc
  rcases h c hc with hblank | hmark
  · exact isWordChar_of_isBlank hblank
  · exact Member.isWordChar_of_endsName hmark

/-- Only the tail can bring a word that opens a type declaration into the line. -/
theorem any_hasWord_line (h : Stops Member.endsName tail) :
    Line.typeMarkers.any (Line.hasWord (Line.code (m.line tail))) =
      Line.typeMarkers.any (Line.hasWord (Line.code tail)) := by
  have hpublic : ∀ k ∈ Line.typeMarkers, Line.hasWord Line.publicMarker k = false := by
    decide +kernel
  rw [m.code_line, Bool.eq_iff_iff, List.any_eq_true, List.any_eq_true]
  refine exists_congr fun k => and_congr_right fun hk => ?_
  rw [line, Line.hasWord_declaring (isWordChar_of_stops h.code), hpublic k hk, (m.noMarker k hk).1,
    (m.noMarker k hk).2, Bool.false_or, Bool.false_or, Bool.false_or]

/-- Only the tail can bring a parenthesis into the line. -/
theorem mem_code_line (hc : c = '(' ∨ c = ')') (tail : Text) :
    c ∈ Line.code (m.line tail) ↔ c ∈ Line.code tail := by
  have htype : c ∉ m.type := by
    rcases hc with rfl | rfl <;> exact m.type_declared.notMem (by decide +kernel) (by decide)
  have hname : c ∉ m.name := by
    rcases hc with rfl | rfl <;> exact m.notMem_name (by decide +kernel) (by decide)
  rw [m.code_line, line, Line.declaring_eq]
  rcases hc with rfl | rfl <;> simp [htype, hname]

theorem isField_eq_false (h : Stops Member.endsName tail) (hhides : Line.Hides tail) :
    Line.isField (m.line tail) = false := by
  rw [← Bool.not_eq_true, Line.isField_iff]
  rintro ⟨-, -, htype, hparameters⟩
  rcases hhides with ⟨hopen, hclose⟩ | hword
  · exact hparameters ⟨(m.mem_code_line (Or.inl rfl) tail).mpr hopen,
      (m.mem_code_line (Or.inr rfl) tail).mpr hclose⟩
  · rw [m.any_hasWord_line h, hword] at htype
    cases htype

/-- Unless the tail hides it, the line is one of the grammar. -/
theorem exists_memberLine (h : Stops Member.endsName tail) (hshown : ¬Line.Hides tail) :
    ∃ l : MemberLine, l.text = m.line tail ∧ l.member = m.member := by
  obtain ⟨hparens, hmarker⟩ := not_or.mp hshown
  have hslash : '/' ∉ m.type := m.type_declared.notMem (by decide +kernel) (by decide)
  refine ⟨{ type := m.type
            name := m.name
            tail := tail
            noType := ?_
            noParameters := ?_
            type_token := m.type_declared.isBlank_of_mem
            type_noComment := fun hmark => hslash (hmark.subset (by decide))
            type_balanced := m.type_declared.count_eq
            type_named := m.type_declared.name_ne_nil
            type_noModifier := m.noModifier.1
            name_isIdentifier := m.name_isIdentifier
            tail_stops := h
            name_noModifier := fun hname => absurd hname m.noModifier.2 }, rfl, rfl⟩
  · exact (m.any_hasWord_line h).trans (Bool.eq_false_of_not_eq_true hmarker)
  · rintro ⟨hopen, hclose⟩
    exact hparens ⟨(m.mem_code_line (Or.inl rfl) tail).mp hopen,
      (m.mem_code_line (Or.inr rfl) tail).mp hclose⟩

/-- A member that is not hidden is found, whatever the tail. -/
theorem ofLine_line (h : Stops Member.endsName tail) (hshown : ¬Line.Hides tail) (path : Path)
    (n : Nat) : Extract.ofLine path n (m.line tail) = ⟨none, [m.member], []⟩ := by
  obtain ⟨l, hline, hmember⟩ := m.exists_memberLine h hshown
  rw [← hline, ← hmember]
  exact Extract.ofLine_of_ok l.isField_text l.ofLine_text

theorem ofLine_line_of_hides (h : Stops Member.endsName tail) (hhides : Line.Hides tail)
    (path : Path) (n : Nat) : (Extract.ofLine path n (m.line tail)).members = [] ∧
      (Extract.ofLine path n (m.line tail)).findings = [] := by
  have hlength := Extract.length_ofLine path n (m.line tail)
  rw [m.isField_eq_false h hhides, if_neg (by decide), Nat.add_eq_zero_iff] at hlength
  exact ⟨List.length_eq_zero_iff.mp hlength.1, List.length_eq_zero_iff.mp hlength.2⟩

end MemberStart

namespace Source

/-- A line that goes on with a semicolon declares its member. With any other tail that begins with a
blank or a mark it declares the same and nothing else is found, exactly if the tail does not hide
it. A tail that does costs the member, and this is not reported. -/
theorem extract_tail (s : Source) (m : MemberStart) {tail : Text}
    (h : Stops Member.endsName tail) :
    (s.withLines [m.line [';']]).extract = ⟨none, [m.member], []⟩ ∧
    ((s.withLines [m.line tail]).extract = ⟨none, [m.member], []⟩ ↔ ¬Line.Hides tail) ∧
    (Line.Hides tail → (s.withLines [m.line tail]).extract.members = [] ∧
      (s.withLines [m.line tail]).extract.findings = []) := by
  have hend : ¬Line.Hides [';'] := by decide +kernel
  rw [extract_withLines_singleton, extract_withLines_singleton]
  refine ⟨m.ofLine_line (by decide) hend _ _, ⟨fun hfound hhides => ?_,
    fun hshown => m.ofLine_line h hshown _ _⟩, fun hhides => m.ofLine_line_of_hides h hhides _ _⟩
  have hnone := (m.ofLine_line_of_hides h hhides s.path 1).1
  rw [hfound] at hnone
  cases hnone

/-- A number called `Total`. -/
def totalStart : MemberStart where
  type := "int".toList
  name := "Total".toList
  type_declared := .element { name := "int".toList } (by decide +kernel)

/-- An accessor block, an initializer and a comment with both parentheses leave the member alone. -/
theorem total_extract_tail :
    let s : Source := ⟨"Cart".toList, [], ⟨"Cart.cs".toList⟩, []⟩
    let tail := " \x7b get; private set; \x7d = \"subclass(\".Length; // (the class)".toList
    Stops Member.endsName tail ∧ ¬Line.Hides tail ∧
    (s.withLines [totalStart.line tail]).extract =
      ⟨none, [⟨"Total".toList, "int".toList, "int".toList, false⟩], []⟩ := by
  intro s tail
  have hstops : Stops Member.endsName tail := by decide
  have hshown : ¬Line.Hides tail := by decide +kernel
  exact ⟨hstops, hshown, ((extract_tail s totalStart hstops).2.1).mpr hshown⟩

/-- A sum in parentheses hides the member that it initializes, and so does the text `class`. -/
theorem total_extract_hidden :
    let s : Source := ⟨"Cart".toList, [], ⟨"Cart.cs".toList⟩, []⟩
    totalStart.line " = (1 + 2);".toList = "public int Total = (1 + 2);".toList ∧
    (s.withLines [totalStart.line [';']]).extract =
      ⟨none, [⟨"Total".toList, "int".toList, "int".toList, false⟩], []⟩ ∧
    (s.withLines [totalStart.line " = (1 + 2);".toList]).extract = {} ∧
    (s.withLines [totalStart.line " = \"class\".Length;".toList]).extract = {} := by
  decide +kernel

end Source

end InterfaceGen
