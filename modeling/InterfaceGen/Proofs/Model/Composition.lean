import InterfaceGen.Generation
import InterfaceGen.Proofs.Model.Catalogue

/-! Extraction line by line. What a line contributes does not depend on the lines around it; only a
finding knows the number of its line. So what comes from the lines of a source comes from any two
parts of them, and a line with a defect costs nothing but the member that it fails to declare. -/

namespace InterfaceGen

/-- The location `k` lines further down. A whole file stays where it is. -/
def Location.moveDown (k : Nat) (l : Location) : Location := ⟨l.path, l.line?.map (· + k)⟩

def Finding.moveDown (k : Nat) (f : Finding) : Finding :=
  { f with location := f.location.moveDown k }

namespace Line

/-- The line looks like a member and has the defect. -/
def HasDefect (line : Text) (defect : Member.Defect) : Prop :=
  isField line = true ∧ Member.ofLine line = .error defect

instance (line : Text) (defect : Member.Defect) : Decidable (HasDefect line defect) :=
  inferInstanceAs (Decidable (_ ∧ _))

/-- No line is both a heading with a parent and a field. -/
theorem isField_of_isInheritance {line : Text} (h : isInheritance line = true) :
    isField line = false := by
  have htype : isTypeDeclaration line = true := (Bool.and_eq_true_iff.mp h).1
  simp [isField, htype]

end Line

namespace Extract

variable {path : Path} {n : Nat} {line : Text} {lines : List Text} {m : Member}
  {f : Finding}

/-- What the same lines contribute `k` lines further down. -/
def moveDown (k : Nat) (e : Extract) : Extract :=
  { e with findings := e.findings.map (Finding.moveDown k) }

@[simp] theorem parent?_append (a b : Extract) : (a ++ b).parent? = (a.parent? <|> b.parent?) := rfl

@[simp] theorem members_append (a b : Extract) : (a ++ b).members = a.members ++ b.members := rfl

@[simp] theorem findings_append (a b : Extract) : (a ++ b).findings = a.findings ++ b.findings :=
  rfl

theorem append_assoc (a b c : Extract) : a ++ b ++ c = a ++ (b ++ c) := by
  change Extract.mk _ _ _ = Extract.mk _ _ _
  simp [Option.or_assoc]

theorem append_empty (a : Extract) : a ++ ({} : Extract) = a := by
  obtain ⟨parent?, members, findings⟩ := a
  change Extract.mk _ _ _ = Extract.mk _ _ _
  simp

theorem moveDown_append (k : Nat) (a b : Extract) :
    (a ++ b).moveDown k = a.moveDown k ++ b.moveDown k := by
  change Extract.mk _ _ _ = Extract.mk _ _ _
  simp [moveDown]

/-- A line contributes at most a parent, or it is a field with a member or with a defect. -/
theorem ofLine_cases (path : Path) (n : Nat) (line : Text) :
    (Line.isField line = false ∧ ∃ parent?, ofLine path n line = ⟨parent?, [], []⟩) ∨
    (Line.isField line = true ∧ ∃ member, Member.ofLine line = .ok member ∧
      ofLine path n line = ⟨none, [member], []⟩) ∨
    ∃ defect, Line.HasDefect line defect ∧
      ofLine path n line = ⟨none, [], [malformed path n line defect]⟩ := by
  unfold ofLine
  split_ifs with hinheritance hfield
  · exact Or.inl ⟨Line.isField_of_isInheritance hinheritance, _, rfl⟩
  · cases hm : Member.ofLine line with
    | ok member => exact Or.inr (Or.inl ⟨hfield, member, rfl, rfl⟩)
    | error defect => exact Or.inr (Or.inr ⟨defect, ⟨hfield, hm⟩, rfl⟩)
  · exact Or.inl ⟨by simpa using hfield, _, rfl⟩

theorem ofLine_of_hasDefect {defect : Member.Defect} (h : Line.HasDefect line defect) :
    ofLine path n line = ⟨none, [], [malformed path n line defect]⟩ := by
  rcases ofLine_cases path n line with ⟨hfield, -⟩ | ⟨-, member, hm, -⟩ | ⟨defect', ⟨-, hm⟩, heq⟩
  · rw [h.1] at hfield
    cases hfield
  · rw [h.2] at hm
    cases hm
  · rw [h.2] at hm
    rwa [Except.error.inj hm]

theorem ofLine_of_ok {member : Member} (hfield : Line.isField line = true)
    (h : Member.ofLine line = .ok member) : ofLine path n line = ⟨none, [member], []⟩ := by
  rcases ofLine_cases path n line with ⟨hno, -⟩ | ⟨-, member', hm, heq⟩ | ⟨defect, ⟨-, hm⟩, -⟩
  · rw [hfield] at hno
    cases hno
  · rw [h] at hm
    rwa [Except.ok.inj hm]
  · rw [h] at hm
    cases hm

/-- The number of a line matters for the place of its finding alone. -/
theorem ofLine_add (path : Path) (n k : Nat) (line : Text) :
    ofLine path (n + k) line = (ofLine path n line).moveDown k := by
  unfold ofLine
  split_ifs
  · rfl
  · cases Member.ofLine line <;> rfl
  · rfl

theorem ofLines_add (path : Path) (n k : Nat) (lines : List Text) :
    ofLines path (n + k) lines = (ofLines path n lines).moveDown k := by
  induction lines generalizing n with
  | nil => rfl
  | cons line lines ih =>
    rw [ofLines, ofLines, moveDown_append, ← ofLine_add, ← ih, Nat.add_right_comm]

theorem ofLines_append (path : Path) (n : Nat) (first second : List Text) :
    ofLines path n (first ++ second) =
      ofLines path n first ++ ofLines path (n + first.length) second := by
  induction first generalizing n with
  | nil => rfl
  | cons line first ih =>
    rw [List.cons_append, ofLines, ofLines, ih, append_assoc, List.length_cons, Nat.add_right_comm,
      Nat.add_assoc]

theorem length_ofLine (path : Path) (n : Nat) (line : Text) :
    (ofLine path n line).members.length + (ofLine path n line).findings.length =
      if Line.isField line then 1 else 0 := by
  rcases ofLine_cases path n line with ⟨hfield, _, h⟩ | ⟨hfield, _, -, h⟩ | ⟨_, ⟨hfield, -⟩, h⟩ <;>
    simp [h, hfield]

/-- Every field leads to a member or to a finding. -/
theorem length_ofLines (path : Path) (n : Nat) (lines : List Text) :
    (ofLines path n lines).members.length + (ofLines path n lines).findings.length =
      lines.countP Line.isField := by
  induction lines generalizing n with
  | nil => rfl
  | cons line lines ih =>
    rw [ofLines, members_append, findings_append, List.length_append, List.length_append,
      List.countP_cons, ← ih (n + 1), ← length_ofLine path n line]
    omega

theorem mem_members_ofLine : m ∈ (ofLine path n line).members ↔
    Line.isField line = true ∧ Member.ofLine line = .ok m := by
  rcases ofLine_cases path n line with ⟨hfield, _, h⟩ | ⟨hfield, _, hm, h⟩ | ⟨_, ⟨-, hm⟩, h⟩
  · simp [h, hfield]
  · simp [h, hfield, hm, eq_comm]
  · simp [h, hm]

/-- Every member has been declared by one of the lines. -/
theorem mem_members_ofLines : m ∈ (ofLines path n lines).members ↔
    ∃ line ∈ lines, Line.isField line = true ∧ Member.ofLine line = .ok m := by
  induction lines generalizing n with
  | nil => simp [ofLines]
  | cons line lines ih =>
    rw [ofLines, members_append, List.mem_append, mem_members_ofLine, ih, List.exists_mem_cons_iff]

theorem mem_findings_ofLine : f ∈ (ofLine path n line).findings ↔
    ∃ defect, Line.HasDefect line defect ∧ f = malformed path n line defect := by
  constructor
  · intro h
    rcases ofLine_cases path n line with ⟨-, _, heq⟩ | ⟨-, _, -, heq⟩ | ⟨defect, hdefect, heq⟩
    · rw [heq] at h
      cases h
    · rw [heq] at h
      cases h
    · rw [heq] at h
      exact ⟨defect, hdefect, List.mem_singleton.mp h⟩
  · rintro ⟨defect, hdefect, rfl⟩
    rw [ofLine_of_hasDefect hdefect]
    exact List.mem_singleton_self _

/-- What is reported are the lines with a defect. -/
theorem mem_findings_ofLines : f ∈ (ofLines path n lines).findings ↔
    ∃ i line defect, lines[i]? = some line ∧ Line.HasDefect line defect ∧
      f = malformed path (n + i) line defect := by
  induction lines generalizing n with
  | nil => simp [ofLines]
  | cons line lines ih =>
    rw [ofLines, findings_append, List.mem_append, mem_findings_ofLine, ih]
    constructor
    · rintro (⟨defect, hdefect, rfl⟩ | ⟨i, line', defect, hi, hdefect, rfl⟩)
      · exact ⟨0, line, defect, rfl, hdefect, rfl⟩
      · exact ⟨i + 1, line', defect, hi, hdefect, by rw [Nat.add_right_comm, Nat.add_assoc]⟩
    · rintro ⟨_ | i, line', defect, hi, hdefect, rfl⟩
      · obtain rfl := Option.some.inj hi
        exact Or.inl ⟨defect, hdefect, rfl⟩
      · exact Or.inr ⟨i, line', defect, hi, hdefect, by rw [Nat.add_right_comm, Nat.add_assoc]⟩

/-- Findings are in the order of their lines, and no line has two. -/
theorem pairwise_findings_ofLines (path : Path) (n : Nat) (lines : List Text) :
    (ofLines path n lines).findings.Pairwise fun f g => f.location.line? < g.location.line? := by
  induction lines generalizing n with
  | nil => exact .nil
  | cons line lines ih =>
    rw [ofLines, findings_append, List.pairwise_append]
    refine ⟨?_, ih (n + 1), fun f hf g hg => ?_⟩
    · rcases ofLine_cases path n line with ⟨-, _, h⟩ | ⟨-, _, -, h⟩ | ⟨_, -, h⟩ <;> simp [h]
    · obtain ⟨defect, -, rfl⟩ := mem_findings_ofLine.mp hf
      obtain ⟨i, line', defect', -, -, rfl⟩ := mem_findings_ofLines.mp hg
      exact Option.some_lt_some.mpr (by omega)

end Extract

namespace Source

/-- The source with other lines. -/
def withLines (s : Source) (lines : List Text) : Source := { s with lines }

theorem extract_withLines_append (s : Source) (first second : List Text) :
    (s.withLines (first ++ second)).extract =
      (s.withLines first).extract ++ (s.withLines second).extract.moveDown first.length := by
  change Extract.ofLines s.path 1 (first ++ second) = _
  rw [Extract.ofLines_append, Extract.ofLines_add]
  rfl

theorem extract_withLines_singleton (s : Source) (line : Text) :
    (s.withLines [line]).extract = Extract.ofLine s.path 1 line :=
  Extract.append_empty _

/-- A line with a defect adds its finding to what comes from the lines before and after it. -/
theorem extract_withLines_of_hasDefect (s : Source) (first second : List Text) {line : Text}
    {defect : Member.Defect} (h : Line.HasDefect line defect) :
    (s.withLines (first ++ line :: second)).extract = (s.withLines first).extract ++
      (⟨none, [], [Extract.malformed s.path (first.length + 1) line defect]⟩ ++
        (s.withLines second).extract.moveDown (first.length + 1)) := by
  change Extract.ofLines s.path 1 (first ++ line :: second) = _
  rw [Extract.ofLines_append, Extract.ofLines, Extract.ofLine_of_hasDefect h, Nat.add_assoc,
    Extract.ofLines_add, Nat.add_comm 1]
  rfl

/-- Extraction is local. From two parts of a source it finds what it finds in each, where the first
parent counts and the findings of the second part move down. So every field leads to one member or
one finding; the findings are those of the lines with a defect, in their order; and such a line
changes nothing that comes from the others. Over several sources models and findings line up. -/
theorem extract_local (s : Source) :
    (∀ first second, (s.withLines (first ++ second)).extract =
      let a := (s.withLines first).extract
      let b := (s.withLines second).extract
      ⟨a.parent? <|> b.parent?, a.members ++ b.members,
        a.findings ++ b.findings.map (Finding.moveDown first.length)⟩) ∧
    s.model.members.length + s.findings.length = s.lines.countP Line.isField ∧
    s.findings.Pairwise (fun f g => f.location.line? < g.location.line?) ∧
    (∀ f, f ∈ s.findings ↔ ∃ i line defect, s.lines[i]? = some line ∧
      Line.HasDefect line defect ∧ f = Extract.malformed s.path (i + 1) line defect) ∧
    (∀ first line second defect, Line.HasDefect line defect →
      (s.withLines (first ++ line :: second)).model = (s.withLines (first ++ second)).model ∧
      (s.withLines (first ++ line :: second)).findings = (s.withLines first).findings ++
        Extract.malformed s.path (first.length + 1) line defect ::
          (s.withLines second).findings.map (Finding.moveDown (first.length + 1))) ∧
    ∀ (dates : Bool) (layout : Layout) (sources : List Source),
      (Generation.catalogue sources).models = sources.map (·.model) ∧
      (Generation.ofSources dates layout sources).findings =
        sources.flatMap (·.findings) ++ (Generation.catalogue sources).findings := by
  refine ⟨extract_withLines_append s, Extract.length_ofLines s.path 1 s.lines,
    Extract.pairwise_findings_ofLines s.path 1 s.lines, fun f => ?_,
    fun first line second defect h => ?_, fun _ _ _ => ⟨Catalogue.models_ofModels _, rfl⟩⟩
  · rw [findings, extract, Extract.mem_findings_ofLines]
    simp only [Nat.add_comm 1]
  · have hline := s.extract_withLines_of_hasDefect first second h
    have hwithout := s.extract_withLines_append first second
    constructor
    · unfold model
      rw [hline, hwithout]
      simp [Extract.moveDown, withLines]
    · unfold findings
      rw [hline]
      rfl

/-- A member without a name and one with an open type are reported, each at its line, and the
members around them are found. -/
theorem draft_extract_local :
    let first := ["public class Post : Entity".toList, "public Tag Tag;".toList]
    let unnamed := "public int = 1;".toList
    let second := ["// public Tag Old;".toList, "public Map<int Map;".toList,
      "public Post Next;".toList]
    let s : Source := ⟨"Post".toList, [], ⟨"Post.cs".toList⟩, first ++ unnamed :: second⟩
    Line.HasDefect unnamed .unnamed ∧
    (s.withLines (first ++ unnamed :: second)).model = (s.withLines (first ++ second)).model ∧
    s.findings.map (·.location.line?) = [some 3, some 5] ∧
    s.model.members.map (·.name) = ["Tag".toList, "Next".toList] ∧
    s.lines.countP Line.isField = 4 := by
  intro first unnamed second s
  have hdefect : Line.HasDefect unnamed .unnamed := by decide +kernel
  obtain ⟨-, hlength, -, -, hspared, -⟩ := extract_local s
  have hfindings : s.findings.map (·.location.line?) = [some 3, some 5] := by decide +kernel
  have hmembers : s.model.members.map (·.name) = ["Tag".toList, "Next".toList] := by
    decide +kernel
  refine ⟨hdefect, (hspared first unnamed second _ hdefect).1, hfindings, hmembers, ?_⟩
  have hm := congrArg List.length hmembers
  have hf := congrArg List.length hfindings
  rw [List.length_map] at hm hf
  rw [← hlength, hm, hf]
  rfl

end Source

end InterfaceGen
