import InterfaceGen.Model.Extraction
import InterfaceGen.Proofs.Declaration.Parent

/-! A grammar of class files, and that extraction accepts it. Most lines are silent: nothing is
taken from them. The others declare a member, or a type with a parent. They are given here by their
parts, so that what they declare can be read off, and extraction finds just that and reports
nothing. -/

namespace InterfaceGen

open Text

/-- Lines from which nothing is taken. -/
inductive Line.Silent (line : Text) : Prop
  /-- It makes nothing public and declares no type. -/
  | plain (hpublic : hasWord (code line) publicMarker = false)
      (htype : typeMarkers.any (hasWord (code line)) = false)
  | comment (h : isComment line = true)
  /-- It has a parameter list and declares no type. -/
  | callable (hopen : '(' ∈ code line) (hclose : ')' ∈ code line)
      (htype : typeMarkers.any (hasWord (code line)) = false)
  /-- It declares a type that names no parent. -/
  | parentless (htype : isTypeDeclaration line = true) (hparent : ':' ∉ code line)

/-- The parts of a line that declares a type with a parent. -/
structure HeadingParts where
  head : Text
  gap : Text := [' ']
  parent : Text
  tail : Text := []

def HeadingParts.text (p : HeadingParts) : Text := p.head ++ ':' :: (p.gap ++ (p.parent ++ p.tail))

/-- A line that declares a type with a parent: the first colon comes before any comment, it is not
that of a constraint, and the parent ends where the line does, at a blank or at a mark. -/
structure Heading extends HeadingParts where
  isType : Line.isTypeDeclaration toHeadingParts.text = true := by decide +kernel
  head_noColon : ':' ∉ head := by decide +kernel
  head_noComment : ¬"//".toList <:+: head := by decide +kernel
  head_noConstraint : Parent.constraintWord ∉ tokens head := by decide +kernel
  gap_blank : ∀ c ∈ gap, isBlank c = true := by decide +kernel
  parent_ne_nil : parent ≠ [] := by decide +kernel
  parent_dotted : ∀ c ∈ parent, isWordChar c = true ∨ c = '.' := by decide +kernel
  tail_stops : Stops Parent.endsName tail := by decide +kernel

/-- The parts of a line that declares a member. Each modifier comes with the blanks after it. -/
structure MemberParts where
  indent : Text := []
  modifiers : List (Text × Text) := [("public".toList, [' '])]
  type : Text
  gap : Text := [' ']
  name : Text
  tail : Text := [';']

def MemberParts.text (p : MemberParts) : Text :=
  p.indent ++ (p.modifiers.flatMap (fun m => m.1 ++ m.2) ++
    (p.type ++ (p.gap ++ (p.name ++ p.tail))))

/-- A line that declares a member: modifiers, the type, the name, and what follows the name at a
blank or at a mark. A line like this that declares a type or has a parameter list is one of the
others. -/
structure MemberLine extends MemberParts where
  noType : Line.typeMarkers.any (Line.hasWord (Line.code toMemberParts.text)) = false := by
    decide +kernel
  noParameters : ¬('(' ∈ Line.code toMemberParts.text ∧ ')' ∈ Line.code toMemberParts.text) := by
    decide +kernel
  indent_blank : ∀ c ∈ indent, isBlank c = true := by decide +kernel
  modifiers_known : ∀ m ∈ modifiers, m.1 ∈ Member.modifiers ∧ IsGap m.2 := by decide +kernel
  isPublic : Line.publicMarker ∈ modifiers.map (·.1) := by decide +kernel
  type_token : ∀ c ∈ type, isBlank c = false := by decide +kernel
  type_noComment : ¬"//".toList <:+: type := by decide +kernel
  type_balanced : type.count '<' = type.count '>' := by decide +kernel
  type_named : (ElementType.ofDeclared type).name ≠ [] := by decide +kernel
  type_noModifier : type ∉ Member.modifiers := by decide +kernel
  gap_isGap : IsGap gap := by decide +kernel
  name_isIdentifier : IsIdentifier name := by decide +kernel
  tail_stops : Stops Member.endsName tail := by decide +kernel
  /-- A modifier can be a name, but not when it stands alone. -/
  name_noModifier : name ∈ Member.modifiers → ∃ c ∈ tail.head?, Member.endsName c = true := by
    decide +kernel

/-- A line of a class file. -/
inductive Clause
  | silent (line : Text) (h : Line.Silent line)
  | heading (h : Heading)
  | member (m : MemberLine)

namespace Line

variable {line : Text}

/-- A silent line is taken neither for a heading with a parent nor for a member. -/
theorem Silent.isNone (h : Silent line) : isInheritance line = false ∧ isField line = false := by
  cases h with
  | plain hpublic htype =>
    simp [isInheritance, isField, isTypeDeclaration_of_any htype, hpublic]
  | comment h => simp [isInheritance, isField, isTypeDeclaration, h]
  | callable hopen hclose htype =>
    simp [isInheritance, isField, isTypeDeclaration_of_any htype, isMethod_iff.mpr ⟨hopen, hclose⟩]
  | parentless htype hparent => simp [isInheritance, isField, htype, hparent]

end Line

namespace Heading

variable (h : Heading)

theorem isHeader : Parent.IsHeader h.head h.gap h.parent :=
  ⟨h.head_noColon, h.head_noConstraint, h.gap_blank, h.parent_ne_nil, h.parent_dotted⟩

theorem code_text :
    Line.code h.text = h.head ++ ':' :: (h.gap ++ (h.parent ++ Line.code h.tail)) := by
  have hgap := Line.notMem_of_isBlank h.gap_blank (c := '/') (by decide)
  have hparent : '/' ∉ h.parent :=
    notMem_of_wordChars h.parent_dotted (by decide +kernel) (by decide)
  rw [HeadingParts.text, Line.code_append_cons h.head_noComment (by decide), Line.code_append hgap,
    Line.code_append hparent]

theorem isInheritance_text : Line.isInheritance h.text = true := by
  rw [Line.isInheritance, h.isType, h.code_text]
  simp

/-- The parent is found in its line. -/
theorem ofLine?_text : Parent.ofLine? (Line.code h.text) = some h.parent := by
  rw [h.code_text]
  exact (h.isHeader.ofLine?_eq_some_iff _).mpr h.tail_stops.code

end Heading

namespace Member

theorem slash_notMem_modifiers : ∀ k ∈ modifiers, '/' ∉ k := by decide

theorem isBlank_modifiers : ∀ k ∈ modifiers, k ≠ [] ∧ ∀ c ∈ k, isBlank c = false := by decide

theorem endsName_modifiers : ∀ k ∈ modifiers, ∀ c ∈ k, endsName c = false := by decide

theorem visible_of_endsName {c : Char} (h : endsName c = true) : isBlank c = false ∧ c ≠ '/' := by
  simp only [endsName, Bool.or_eq_true, beq_iff_eq] at h
  rcases h with (rfl | rfl) | rfl <;> decide

theorem isWordChar_of_endsName {c : Char} (h : endsName c = true) : isWordChar c = false := by
  simp only [endsName, Bool.or_eq_true, beq_iff_eq] at h
  rcases h with (rfl | rfl) | rfl <;> decide +kernel

theorem endsName_of_isIdentifier {n : Text} (h : IsIdentifier n) :
    ∀ c ∈ n, endsName c = false := by
  refine forall_of_wordChars h.wordChars fun c hc => ⟨isWordChar_of_endsName hc, ?_⟩
  rintro rfl
  cases hc

theorem isComment_modifiers : ∀ k ∈ modifiers,
    ("/*".toList.isPrefixOf k || "*".toList.isPrefixOf k) = false := by
  decide

section Modifiers

variable {ks : List (Text × Text)} (hks : ∀ k ∈ ks, k.1 ∈ modifiers ∧ IsGap k.2)

include hks

theorem slash_notMem_flatMap : '/' ∉ ks.flatMap fun k => k.1 ++ k.2 := by
  intro h
  obtain ⟨k, hk, h⟩ := List.mem_flatMap.mp h
  obtain ⟨hknown, hgap⟩ := hks k hk
  rcases List.mem_append.mp h with h | h
  · exact slash_notMem_modifiers _ hknown h
  · exact Line.notMem_of_isBlank hgap.2 (by decide) h

/-- Modifiers with their blanks are one token each. -/
theorem tokens_flatMap (t : Text) :
    tokens (ks.flatMap (fun k => k.1 ++ k.2) ++ t) = ks.map (·.1) ++ tokens t := by
  induction ks with
  | nil => rfl
  | cons k ks ih =>
    obtain ⟨⟨hknown, hgap⟩, hks⟩ := List.forall_mem_cons.mp hks
    obtain ⟨hne, hblank⟩ := isBlank_modifiers _ hknown
    rw [List.flatMap_cons, List.append_assoc, List.append_assoc, tokens_gap hne hblank hgap,
      ih hks]
    rfl

end Modifiers

end Member

namespace MemberLine

variable (m : MemberLine)

theorem isBlank_name : ∀ c ∈ m.name, isBlank c = false :=
  isBlank_of_wordChars m.name_isIdentifier.wordChars (by decide)

theorem type_ne_nil : m.type ≠ [] := by
  intro h
  refine m.type_named ?_
  rw [h]
  decide

/-- The token that the name begins. -/
def nameToken : Text := m.name ++ (Line.code m.tail).takeWhile (!isBlank ·)

theorem takeWhile_nameToken : m.nameToken.takeWhile (!Member.endsName ·) = m.name :=
  takeWhile_name (Member.endsName_of_isIdentifier m.name_isIdentifier) m.tail_stops.code

/-- If the name is a modifier, the token goes on with a mark. -/
theorem nameToken_notMem_modifiers : m.nameToken ∉ Member.modifiers := by
  intro hmem
  have hname : m.nameToken = m.name := by
    rw [← m.takeWhile_nameToken, eq_comm, List.takeWhile_eq_self_iff]
    simpa using Member.endsName_modifiers _ hmem
  obtain ⟨c, hc, hends⟩ := m.name_noModifier (hname ▸ hmem)
  obtain ⟨t, ht⟩ : ∃ t, m.tail = [c] ++ t := List.head?_eq_some_iff.mp hc
  obtain ⟨hblank, hslash⟩ := Member.visible_of_endsName hends
  have hmark : c ∈ m.nameToken := by
    rw [nameToken, ht, Line.code_append (by simpa using hslash.symm), List.singleton_append,
      List.takeWhile_cons_of_pos (by simpa using hblank)]
    simp
  rw [Member.endsName_modifiers _ hmem c hmark] at hends
  cases hends

theorem code_text : Line.code m.text = m.indent ++ (m.modifiers.flatMap (fun k => k.1 ++ k.2) ++
    (m.type ++ (m.gap ++ (m.name ++ Line.code m.tail)))) := by
  have hblank : ∀ {t : Text}, (∀ c ∈ t, isBlank c = true) → '/' ∉ t :=
    fun h => Line.notMem_of_isBlank h (by decide)
  have hmodifiers := Member.slash_notMem_flatMap m.modifiers_known
  have hname : '/' ∉ m.name :=
    notMem_of_wordChars m.name_isIdentifier.wordChars (by decide +kernel) (by decide)
  obtain ⟨b, gap, hgap⟩ := List.exists_cons_of_ne_nil m.gap_isGap.1
  obtain ⟨hb, hrest⟩ := List.forall_mem_cons.mp (hgap ▸ m.gap_isGap.2)
  have hslash : b ≠ '/' := by
    rintro rfl
    revert hb
    decide
  rw [MemberParts.text, Line.code_append (hblank m.indent_blank), Line.code_append hmodifiers, hgap,
    List.cons_append, Line.code_append_cons m.type_noComment hslash,
    Line.code_append (hblank hrest), Line.code_append hname, List.cons_append]

/-- The modifiers, the type, the name with what follows it at once, and the rest. -/
theorem tokens_code_text : tokens (Line.code m.text) = m.modifiers.map (·.1) ++
    m.type :: m.nameToken :: tokens ((Line.code m.tail).dropWhile (!isBlank ·)) := by
  rw [m.code_text, tokens_eq_pieces, pieces_append_of_forall m.indent_blank, ← tokens_eq_pieces,
    Member.tokens_flatMap m.modifiers_known, tokens_gap m.type_ne_nil m.type_token m.gap_isGap,
    tokens_name m.name_isIdentifier.ne_nil m.isBlank_name]
  rfl

/-- The member that the line declares. -/
def member : Member :=
  ⟨m.name, m.type, (ElementType.ofDeclared m.type).name, (ElementType.ofDeclared m.type).isArray⟩

theorem ofLine_text : Member.ofLine m.text = .ok m.member := by
  have hmodifiers : ∀ k ∈ m.modifiers.map (·.1), ¬(!Member.modifiers.contains k) = true := by
    intro k hk
    obtain ⟨m', hm', rfl⟩ := List.mem_map.mp hk
    simpa using (m.modifiers_known m' hm').1
  have htokens := congrArg (List.filter (!Member.modifiers.contains ·)) m.tokens_code_text
  rw [List.filter_append, List.filter_eq_nil_iff.mpr hmodifiers, List.nil_append,
    List.filter_cons_of_pos (by simpa using m.type_noModifier),
    List.filter_cons_of_pos (by simpa using m.nameToken_notMem_modifiers)] at htokens
  rw [Member.ofLine, htokens]
  simp only [Member.ofTokens, m.takeWhile_nameToken]
  rw [if_neg (not_not.mpr m.type_balanced), if_neg (by simpa using m.name_isIdentifier.ne_nil),
    if_neg (by simpa using m.type_named)]
  rfl

theorem isInheritance_text : Line.isInheritance m.text = false := by
  rw [Line.isInheritance, Line.isTypeDeclaration_of_any m.noType, Bool.false_and]

theorem isField_text : Line.isField m.text = true := by
  have hpublic : Line.hasWord (Line.code m.text) Line.publicMarker = true := by
    refine Line.hasWord_iff_exists.mpr ⟨Line.publicMarker, ?_, by decide +kernel⟩
    rw [m.tokens_code_text]
    exact List.mem_append_left _ m.isPublic
  have hcomment : Line.isComment m.text = false := by
    have htokens := m.tokens_code_text
    obtain ⟨k, ks, hk⟩ := List.exists_cons_of_ne_nil (List.ne_nil_of_mem m.isPublic)
    have hmem : k ∈ m.modifiers.map (·.1) := hk ▸ List.mem_cons_self
    obtain ⟨m', hm', rfl⟩ := List.mem_map.mp hmem
    rw [hk, List.cons_append] at htokens
    rw [Line.isComment_of_tokens htokens,
      Member.isComment_modifiers _ (m.modifiers_known m' hm').1]
  exact Line.isField_iff.mpr ⟨hpublic, hcomment, m.noType, m.noParameters⟩

end MemberLine

namespace Clause

def text : Clause → Text
  | .silent line _ => line
  | .heading h => h.text
  | .member m => m.text

def parent? : Clause → Option Text
  | .heading h => some h.parent
  | _ => none

def member? : Clause → Option Member
  | .member m => some m.member
  | _ => none

/-- A line of the grammar contributes what it declares. -/
theorem ofLine_text (path : Path) (n : Nat) (c : Clause) :
    Extract.ofLine path n c.text = ⟨c.parent?, c.member?.toList, []⟩ := by
  cases c with
  | silent line h =>
    obtain ⟨hinheritance, hfield⟩ := h.isNone
    change Extract.ofLine path n line = _
    rw [Extract.ofLine, hinheritance, hfield]
    rfl
  | heading h =>
    change Extract.ofLine path n h.text = _
    rw [Extract.ofLine, if_pos h.isInheritance_text, h.ofLine?_text]
    rfl
  | member m =>
    change Extract.ofLine path n m.text = _
    rw [Extract.ofLine, if_neg (by simp [m.isInheritance_text]), if_pos m.isField_text,
      m.ofLine_text]
    rfl

/-- What the lines contribute is joined in their order. -/
theorem ofLines_text (path : Path) (n : Nat) (clauses : List Clause) :
    Extract.ofLines path n (clauses.map text) =
      ⟨(clauses.filterMap parent?).head?, clauses.filterMap member?, []⟩ := by
  induction clauses generalizing n with
  | nil => rfl
  | cons c clauses ih =>
    rw [List.map_cons, Extract.ofLines, ofLine_text, ih]
    cases c <;> rfl

end Clause

/-- From a source of silent lines, headings and member lines, in any number and order, comes the
model with the first parent that a heading names and with the members as they are declared, each
once and in order. Nothing is reported. -/
theorem Source.extract_clauses {s : Source} {clauses : List Clause}
    (h : s.lines = clauses.map Clause.text) :
    s.model = ⟨s.name, s.group, s.path, (clauses.filterMap Clause.parent?).head?,
      clauses.filterMap Clause.member?⟩ ∧ s.findings = [] := by
  have hextract : s.extract =
      ⟨(clauses.filterMap Clause.parent?).head?, clauses.filterMap Clause.member?, []⟩ := by
    rw [extract, h, Clause.ofLines_text]
  rw [model, findings, hextract]
  exact ⟨rfl, rfl⟩

/-- The lines of a class file with something of everything. -/
def childClauses : List Clause :=
  [.silent "using System; // no class".toList (.plain (by decide +kernel) (by decide +kernel)),
    .silent "  /// public class Ghost : Base".toList (.comment (by decide +kernel)),
    .heading
      { head := "  public class Child".toList, gap := [], parent := "App.Base".toList,
        tail := "<int>, IThing // see: Base".toList },
    .silent "  \x7b public Child() \x7b \x7d".toList
      (.callable (by decide +kernel) (by decide +kernel) (by decide +kernel)),
    .silent "  public enum Kind \x7b A, B \x7d".toList
      (.parentless (by decide +kernel) (by decide +kernel)),
    .member
      { indent := ['\t'], modifiers := [("public".toList, "  ".toList), ("virtual".toList, ['\t'])],
        type := "ICollection<Tag>".toList, name := "Tags".toList,
        tail := "\x7b get; set; \x7d // (all)".toList },
    .member { type := "int?".toList, name := "@new".toList, tail := "=1;".toList }]

/-- A parent and two members are found among them. -/
theorem child_extract_clauses :
    let s : Source := ⟨"Child".toList, [], ⟨"Child.cs".toList⟩,
      ["using System; // no class".toList, "  /// public class Ghost : Base".toList,
        "  public class Child:App.Base<int>, IThing // see: Base".toList,
        "  \x7b public Child() \x7b \x7d".toList, "  public enum Kind \x7b A, B \x7d".toList,
        "\tpublic  virtual\tICollection<Tag> Tags\x7b get; set; \x7d // (all)".toList,
        "public int? @new=1;".toList]⟩
    s.lines = childClauses.map Clause.text ∧ s.model.parent? = some "App.Base".toList ∧
    s.model.members = [⟨"Tags".toList, "ICollection<Tag>".toList, "Tag".toList, true⟩,
      ⟨"@new".toList, "int?".toList, "int".toList, false⟩] ∧ s.findings = [] := by
  intro s
  have hlines : s.lines = childClauses.map Clause.text := by decide +kernel
  obtain ⟨hmodel, hfindings⟩ := Source.extract_clauses hlines
  rw [hmodel]
  exact ⟨hlines, by decide +kernel, by decide +kernel, hfindings⟩

end InterfaceGen
