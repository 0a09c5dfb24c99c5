import InterfaceGen.Proofs.Declaration.Grammar
import Mathlib.Logic.Relation

/-! Modifiers do not count. One that is put between the tokens of a field is one token more, and
where the tokens of a member are looked at it is passed over. It brings neither a word nor a mark
into the line that would make the line something else than a field. -/

namespace InterfaceGen

open Text

namespace Line

/-- The second line is the first one with a modifier put in. The modifier stands in front of the
comment, between tokens of the line or at an end of its code, and is a token of its own. -/
inductive GainsModifier : Text → Text → Prop
  | intro (start lead modifier trail rest : Text)
      (hcode : start <+: code (start ++ rest))
      (hboundary : (∀ c ∈ start.getLast?, isBlank c = true) ∨
        ∀ c ∈ (code rest).head?, isBlank c = true)
      (hmodifier : modifier ∈ Member.modifiers)
      (hlead : ∀ c ∈ lead, isBlank c = true)
      (htrail : ∀ c ∈ trail, isBlank c = true)
      (hstart : ∀ c ∈ (start ++ lead).getLast?, isBlank c = true)
      (hend : ∀ c ∈ (code (trail ++ rest)).head?, isBlank c = true) :
      GainsModifier (start ++ rest) (start ++ (lead ++ (modifier ++ (trail ++ rest))))

variable {l k : Text} {c : Char}

/-- A modifier and what stops it are two pieces of a line. -/
theorem tokens_modifier_append {m t : Text} (hm : m ∈ Member.modifiers)
    (ht : ∀ c ∈ t.head?, isBlank c = true) : tokens (m ++ t) = m :: tokens t := by
  obtain ⟨hne, hblank⟩ := Member.isBlank_modifiers m hm
  have hcut : tokens (m ++ t) = tokens m ++ tokens t := pieces_append (Or.inr ht)
  have hself : tokens m = [m] := by
    rw [tokens_eq_pieces, pieces_of_forall_not hblank, if_neg hne]
  rw [hcut, hself, List.singleton_append]

/-- Among the tokens of the code there is the modifier more. -/
theorem GainsModifier.tokens_code (h : GainsModifier l k) :
    ∃ ws vs, ∃ modifier ∈ Member.modifiers, tokens (code l) = ws ++ vs ∧
      tokens (code k) = ws ++ modifier :: vs := by
  obtain ⟨start, lead, modifier, trail, rest, hcode, hboundary, hmodifier, hlead, htrail, hstart,
    hend⟩ := h
  refine ⟨tokens start, tokens (code rest), modifier, hmodifier, ?_, ?_⟩
  · rw [code_of_isPrefix hcode]
    exact pieces_append hboundary
  · have hslash : ∀ {t : Text}, (∀ c ∈ t, isBlank c = true) → '/' ∉ t :=
      fun h => notMem_of_isBlank h (by decide)
    have hfree : ¬"//".toList <:+: start :=
      fun hmark => not_isInfix_code _ (hmark.trans hcode.isInfix)
    have hne : lead ++ modifier ≠ [] := by simp [(Member.isBlank_modifiers _ hmodifier).1]
    have hput : '/' ∉ lead ++ modifier := by
      simp [hslash hlead, Member.slash_notMem_modifiers _ hmodifier]
    have hline : code (start ++ (lead ++ (modifier ++ (trail ++ rest)))) =
        start ++ lead ++ (modifier ++ code (trail ++ rest)) := by
      simpa using code_append_append hfree hne hput (trail ++ rest)
    have hcut : tokens (start ++ lead ++ (modifier ++ code (trail ++ rest))) =
        tokens (start ++ lead) ++ tokens (modifier ++ code (trail ++ rest)) :=
      pieces_append (Or.inl hstart)
    have hbefore : tokens (start ++ lead) = tokens start :=
      pieces_append_of_forall_right hlead start
    have hbehind : tokens (trail ++ code rest) = tokens (code rest) :=
      pieces_append_of_forall htrail (code rest)
    rw [hline, hcut, hbefore, tokens_modifier_append hmodifier hend, code_append (hslash htrail),
      hbehind]

/-- No modifier opens a type declaration or has a parenthesis. -/
theorem plain_modifiers : ∀ m ∈ Member.modifiers,
    (∀ k ∈ typeMarkers, hasWord m k = false) ∧ '(' ∉ m ∧ ')' ∉ m := by
  decide +kernel

section Tokens

variable {ws vs : List Text} {m : Text} (hm : m ∈ Member.modifiers)
  (hl : tokens (code l) = ws ++ vs) (hk : tokens (code k) = ws ++ m :: vs)

include hl hk

/-- What is not found in the modifier is found in the one line exactly if it is in the other. -/
theorem exists_token_iff {p : Text → Prop} (hp : ¬p m) :
    (∃ w ∈ tokens (code k), p w) ↔ ∃ w ∈ tokens (code l), p w := by
  simp only [hl, hk, List.mem_append, List.mem_cons, or_and_right, exists_or, exists_eq_left, hp,
    false_or]

theorem mem_code_iff (hc : isBlank c = false) (hmark : c ∉ m) : c ∈ code k ↔ c ∈ code l := by
  rw [← List.contains_iff_mem, ← List.contains_iff_mem, contains_iff_exists hc,
    contains_iff_exists hc]
  exact exists_token_iff hl hk hmark

include hm

theorem isComment_of_gained (h : isComment l = false) : isComment k = false := by
  cases ws with
  | nil => rw [isComment_of_tokens hk, Member.isComment_modifiers m hm]
  | cons w ws =>
    rw [List.cons_append] at hl hk
    rw [isComment_of_tokens hl] at h
    rw [isComment_of_tokens hk, h]

theorem isField_of_gained (h : isField l = true) : isField k = true := by
  obtain ⟨hpublic, hcomment, htype, hparameters⟩ := isField_iff.mp h
  obtain ⟨hmarkers, hopen, hclose⟩ := plain_modifiers m hm
  obtain ⟨w, hw, hword⟩ := hasWord_iff_exists.mp hpublic
  refine isField_iff.mpr ⟨hasWord_iff_exists.mpr ⟨w, ?_, hword⟩,
    isComment_of_gained hm hl hk hcomment, ?_, ?_⟩
  · rw [hl] at hw
    rw [hk]
    exact ((List.sublist_cons_self m vs).append_left ws).subset hw
  · rw [List.any_eq_false] at htype ⊢
    intro marker hmarker hword
    refine htype marker hmarker (hasWord_iff_exists.mpr ?_)
    exact (exists_token_iff hl hk (by simp [hmarkers marker hmarker])).mp
      (hasWord_iff_exists.mp hword)
  · rw [mem_code_iff hl hk (by decide) hopen, mem_code_iff hl hk (by decide) hclose]
    exact hparameters

theorem ofLine_of_gained : Member.ofLine k = Member.ofLine l := by
  have hfilter : (ws ++ m :: vs).filter (!Member.modifiers.contains ·) =
      (ws ++ vs).filter (!Member.modifiers.contains ·) := by
    rw [List.filter_append, List.filter_append, List.filter_cons_of_neg (by simpa using hm)]
  rw [Member.ofLine, Member.ofLine, hl, hk, hfilter]

end Tokens

theorem GainsModifier.spec (h : GainsModifier l k) (hfield : isField l = true) :
    isField k = true ∧ Member.ofLine k = Member.ofLine l := by
  obtain ⟨ws, vs, m, hm, hl, hk⟩ := h.tokens_code
  exact ⟨isField_of_gained hm hl hk hfield, ofLine_of_gained hm hl hk⟩

end Line

namespace Member

/-- Modifiers that are put into a field, any number of them one after the other, leave it a field
that declares the same member or has the same defect. -/
theorem ofLine_ignores_modifiers {l k : Text} (h : Relation.ReflTransGen Line.GainsModifier l k)
    (hfield : Line.isField l = true) : Line.isField k = true ∧ ofLine k = ofLine l := by
  induction h with
  | refl => exact ⟨hfield, rfl⟩
  | tail _ hstep ih =>
    obtain ⟨hfield', hsame⟩ := ih
    obtain ⟨hfield'', hsame'⟩ := hstep.spec hfield'
    exact ⟨hfield'', hsame'.trans hsame⟩

/-- One in front of the line, one between the type and the name, and one right in front of the
comment. -/
theorem age_ofLine_ignores_modifiers :
    let line := "public int Age;// years".toList
    let more := "new public int  static\tAge; public// years".toList
    Relation.ReflTransGen Line.GainsModifier line more ∧ Line.isField line = true ∧
    Line.isField more = true ∧ ofLine more = ofLine line ∧
    ofLine line = .ok ⟨"Age".toList, "int".toList, "int".toList, false⟩ := by
  intro line more
  have hfront : Line.GainsModifier line ("new ".toList ++ line) :=
    .intro [] [] "new".toList [' '] line (by decide) (by decide) (by decide) (by decide)
      (by decide) (by decide) (by decide)
  have hmiddle : Line.GainsModifier ("new ".toList ++ line)
      "new public int  static\tAge;// years".toList :=
    .intro "new public int ".toList [' '] "static".toList ['\t'] "Age;// years".toList (by decide)
      (by decide) (by decide) (by decide) (by decide) (by decide) (by decide)
  have hback : Line.GainsModifier "new public int  static\tAge;// years".toList more :=
    .intro "new public int  static\tAge;".toList [' '] "public".toList [] "// years".toList
      (by decide) (by decide) (by decide) (by decide) (by decide) (by decide) (by decide)
  have hsteps : Relation.ReflTransGen Line.GainsModifier line more :=
    .tail (.tail (.single hfront) hmiddle) hback
  have hfield : Line.isField line = true := by decide +kernel
  obtain ⟨hmore, hsame⟩ := ofLine_ignores_modifiers hsteps hfield
  exact ⟨hsteps, hfield, hmore, hsame, by decide +kernel⟩

end Member

end InterfaceGen
