import InterfaceGen.Proofs.Declaration.Grammar
import InterfaceGen.Proofs.Model.Composition
import InterfaceGen.Proofs.Model.Extraction

/-! What can become the name of a member. The name is a piece of a line that has been taken for a
field, so whatever would have made the line something else does not stand in it. Nothing more is
asked of it: every text without these is the name of some member, identifier or not. So names are
identifiers as long as the lines say so. -/

namespace InterfaceGen

open Text

/-- Of the tokens besides the modifiers the second one begins with an identifier, and it goes on, if
at all, with a mark. -/
def Line.DeclaresIdentifier (line : Text) : Prop :=
  ∃ declared name tail rest,
    (tokens (code line)).filter (!Member.modifiers.contains ·) =
      declared :: (name ++ tail) :: rest ∧
    IsIdentifier name ∧ ∀ c ∈ tail.head?, Member.endsName c = true

namespace Member

/-- The text passes for the name of a member: it is not cut by a blank, a mark or a comment, and it
has neither a parameter list nor a word that opens a type declaration. -/
structure PassesAsName (n : Text) : Prop where
  ne_nil : n ≠ []
  uncut : ∀ c ∈ n, isBlank c = false ∧ endsName c = false
  noComment : ¬"//".toList <:+: n
  noParameters : ¬('(' ∈ n ∧ ')' ∈ n)
  noType : Line.typeMarkers.any (Line.hasWord n) = false

variable {line n : Text} {m : Member}

/-- The words of the name are words of the line, since a mark follows it in its token or nothing. -/
theorem hasWord_of_hasWord_name (h : ofLine line = .ok m) {word : Text}
    (hword : Line.hasWord m.name word = true) : Line.hasWord (Line.code line) word = true := by
  obtain ⟨tail, htoken, htail⟩ := exists_token_of_ofLine h
  have hmark : ∀ c ∈ tail.head?, isWordChar c = false :=
    fun c hc => isWordChar_of_endsName (htail c hc)
  refine Line.hasWord_iff_exists.mpr ⟨_, htoken, ?_⟩
  rw [Line.hasWord_append hmark, hword, Bool.true_or]

/-- What a field is called passes for a name. -/
theorem passesAsName_of_isField (hfield : Line.isField line = true) (h : ofLine line = .ok m) :
    PassesAsName m.name := by
  obtain ⟨hne, hends, -⟩ := name_of_ofLine h
  obtain ⟨tail, htoken, -⟩ := exists_token_of_ofLine h
  have hpart : m.name <:+: Line.code line :=
    (List.prefix_append m.name tail).isInfix.trans (isInfix_of_mem_pieces htoken)
  obtain ⟨-, -, htype, hparameters⟩ := Line.isField_iff.mp hfield
  refine ⟨hne, fun c hc => ⟨?_, hends c hc⟩, ?_, ?_, ?_⟩
  · by_contra hblank
    exact notMem_name h (by simpa using hblank) hc
  · exact fun hmark => Line.not_isInfix_code line (hmark.trans hpart)
  · exact fun hparens => hparameters ⟨hpart.subset hparens.1, hpart.subset hparens.2⟩
  · rw [List.any_eq_false] at htype ⊢
    exact fun k hk hword => htype k hk (hasWord_of_hasWord_name h hword)

theorem takeWhile_append_mark {tail : Text} (hn : ∀ c ∈ n, endsName c = false)
    (htail : ∀ c ∈ tail.head?, endsName c = true) : (n ++ tail).takeWhile (!endsName ·) = n := by
  rw [List.takeWhile_append_of_pos (by simpa using hn)]
  cases tail with
  | nil => simp
  | cons c tail => simp [htail c rfl]

/-- The name is an identifier exactly if the line declares one. -/
theorem isIdentifier_name_iff (h : ofLine line = .ok m) :
    IsIdentifier m.name ↔ Line.DeclaresIdentifier line := by
  obtain ⟨-, hends, declared, tail, rest, htokens, htail⟩ := name_of_ofLine h
  refine ⟨fun hname => ⟨declared, m.name, tail, rest, htokens, hname, htail⟩, ?_⟩
  rintro ⟨declared', name, tail', rest', htokens', hname, htail'⟩
  rw [htokens] at htokens'
  obtain ⟨-, htoken, -⟩ :
      declared = declared' ∧ m.name ++ tail = name ++ tail' ∧ rest = rest' := by
    simpa using htokens'
  -- both names go up to the first mark of the same token
  have hsame := congrArg (List.takeWhile (!endsName ·)) htoken
  rw [takeWhile_append_mark hends htail,
    takeWhile_append_mark (endsName_of_isIdentifier hname) htail'] at hsame
  rwa [hsame]

/-- A line that declares a number of the given name. -/
def numberLine (n : Text) : Text := Line.declaring "int".toList n [';']

theorem hasWord_numberLine (n word : Text) : Line.hasWord (numberLine n) word =
    (Line.hasWord Line.publicMarker word || (Line.hasWord "int".toList word ||
      Line.hasWord n word)) := by
  have hend : Line.hasWord [';'] word = false := by
    have hnone : words [';'] = [] := by decide +kernel
    simp [Line.hasWord, hnone]
  have hmark : ∀ c ∈ [';'].head?, isWordChar c = false := by decide +kernel
  rw [numberLine, Line.hasWord_declaring hmark, hend, Bool.or_false]

namespace PassesAsName

variable (h : PassesAsName n)

include h

theorem code_numberLine : Line.code (numberLine n) = numberLine n := by
  have hstart : '/' ∉ "public int ".toList := by decide
  have hsplit : numberLine n = "public int ".toList ++ (n ++ [';']) := rfl
  rw [hsplit, Line.code_append hstart, Line.code_append_cons h.noComment (by decide)]
  rfl

theorem tokens_numberLine :
    tokens (numberLine n) = ["public".toList, "int".toList, n ++ [';']] := by
  have hgap : IsGap [' '] := by decide
  have hlast : ∀ c ∈ n ++ [';'], isBlank c = false :=
    List.forall_mem_append.mpr ⟨fun c hc => (h.uncut c hc).1, by decide⟩
  have htoken : tokens (n ++ [';']) = [n ++ [';']] := by
    rw [tokens_eq_pieces, pieces_of_forall_not hlast, if_neg (by simp)]
  change tokens ("public".toList ++ ([' '] ++ ("int".toList ++ ([' '] ++ (n ++ [';']))))) = _
  rw [tokens_gap (by decide) (by decide) hgap, tokens_gap (by decide) (by decide) hgap, htoken]

theorem ofLine_numberLine :
    ofLine (numberLine n) = .ok ⟨n, "int".toList, "int".toList, false⟩ := by
  have hname : (n ++ [';']).takeWhile (!endsName ·) = n :=
    takeWhile_append_mark (fun c hc => (h.uncut c hc).2) (by decide)
  have hmodifier : n ++ [';'] ∉ modifiers := by
    intro hmem
    have := endsName_modifiers _ hmem ';' (by simp)
    revert this
    decide
  have hfilter : ["public".toList, "int".toList, n ++ [';']].filter (!modifiers.contains ·) =
      ["int".toList, n ++ [';']] := by
    rw [List.filter_cons_of_neg (by decide), List.filter_cons_of_pos (by decide),
      List.filter_cons_of_pos (by simpa using hmodifier), List.filter_nil]
  rw [ofLine, h.code_numberLine, h.tokens_numberLine, hfilter]
  simp only [ofTokens, hname]
  rw [if_neg (by decide), if_neg (by simpa using h.ne_nil), if_neg (by decide)]
  rfl

theorem isField_numberLine : Line.isField (numberLine n) = true := by
  rw [Line.isField_iff, h.code_numberLine]
  refine ⟨?_, ?_, ?_, fun ⟨hopen, hclose⟩ => h.noParameters ⟨?_, ?_⟩⟩
  · have hself : Line.hasWord Line.publicMarker Line.publicMarker = true := by decide +kernel
    rw [hasWord_numberLine, hself, Bool.true_or]
  · rw [Line.isComment_of_tokens (by rw [h.code_numberLine, h.tokens_numberLine])]
    decide
  · have hstart : ∀ k ∈ Line.typeMarkers, Line.hasWord Line.publicMarker k = false ∧
        Line.hasWord "int".toList k = false := by
      decide +kernel
    have hn := h.noType
    rw [List.any_eq_false] at hn ⊢
    intro k hk
    rw [hasWord_numberLine, (hstart k hk).1, (hstart k hk).2, Bool.false_or, Bool.false_or]
    exact hn k hk
  · simpa [numberLine, Line.declaring_eq] using hopen
  · simpa [numberLine, Line.declaring_eq] using hclose

end PassesAsName

end Member

namespace Source

open Member

/-- The members of a source have identifiers for names exactly if each line that is a field without
a defect declares one. In any case their names pass for names, and every text that does is the name
of the member that some line declares without a finding. -/
theorem member_names (s : Source) :
    ((∀ m ∈ s.model.members, IsIdentifier m.name) ↔
      ∀ line ∈ s.lines, Line.isField line = true → (∀ defect, ¬Line.HasDefect line defect) →
        Line.DeclaresIdentifier line) ∧
    (∀ m ∈ s.model.members, PassesAsName m.name) ∧
    ∀ n : Text, PassesAsName n →
      (s.withLines [numberLine n]).extract =
        ⟨none, [⟨n, "int".toList, "int".toList, false⟩], []⟩ := by
  refine ⟨⟨fun hnames line hline hfield hsound => ?_, fun hlines m hm => ?_⟩, fun m hm => ?_,
    fun n hn => ?_⟩
  · cases hm : ofLine line with
    | ok m =>
      refine (isIdentifier_name_iff hm).mp (hnames m ?_)
      exact Extract.mem_members_ofLines.mpr ⟨line, hline, hfield, hm⟩
    | error defect => exact absurd ⟨hfield, hm⟩ (hsound defect)
  · obtain ⟨line, hline, hfield, hm⟩ := Extract.mem_members_ofLines.mp hm
    refine (isIdentifier_name_iff hm).mpr (hlines line hline hfield fun defect hdefect => ?_)
    rw [hdefect.2] at hm
    cases hm
  · obtain ⟨line, -, hfield, hm⟩ := Extract.mem_members_ofLines.mp hm
    exact passesAsName_of_isField hfield hm
  · rw [extract_withLines_singleton,
      Extract.ofLine_of_ok hn.isField_numberLine hn.ofLine_numberLine]

/-- Of two declarators the first one becomes a name with a comma. -/
theorem box_member_names :
    let s : Source := ⟨"Box".toList, [], ⟨"Box.cs".toList⟩, ["public int Width, Height;".toList]⟩
    s.model.members.map (·.name) = ["Width,".toList] ∧ s.findings = [] ∧
    ¬IsIdentifier "Width,".toList := by
  decide +kernel

end Source

end InterfaceGen
