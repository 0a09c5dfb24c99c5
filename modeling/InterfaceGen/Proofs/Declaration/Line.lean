import InterfaceGen.Declaration.Line
import InterfaceGen.Proofs.Text.Pieces
import InterfaceGen.Proofs.Text.Search

/-! The code of a line, and what can be told from its tokens. A comment begins at two slashes, so up
to the first of them the code of a line is the line itself. -/

namespace InterfaceGen.Line

open Text

variable {c : Char} {s t w line word : Text} {ws : List Text}

/-- What opens a trailing comment. -/
theorem commentMark_eq : "//".toList = ['/', '/'] := rfl

theorem notMem_of_isBlank (hs : ∀ c ∈ s, isBlank c = true) (hc : isBlank c = false) : c ∉ s := by
  intro hmem
  rw [hs c hmem] at hc
  cases hc

/-- What has no slash stays in front of the code. -/
theorem code_append (hs : '/' ∉ s) (t : Text) : code (s ++ t) = s ++ code t := by
  refine before_append fun v hne hv h => hs (hv.subset ?_)
  obtain ⟨d, v, rfl⟩ := List.exists_cons_of_ne_nil hne
  rw [commentMark_eq, List.cons_append] at h
  rw [(List.cons_prefix_cons.mp h).1]
  exact List.mem_cons_self

/-- So does what has single slashes only, if no slash follows. -/
theorem code_append_cons (hs : ¬"//".toList <:+: s) (hc : c ≠ '/') (t : Text) :
    code (s ++ c :: t) = s ++ c :: code t := by
  rw [commentMark_eq] at hs
  have hpass : code (s ++ c :: t) = s ++ code (c :: t) := by
    refine before_append fun v hne hv h => ?_
    rw [commentMark_eq] at h
    match v, hne, h with
    | [d], _, h => exact hc (List.cons_prefix_cons.mp (List.cons_prefix_cons.mp h).2).1.symm
    | d :: e :: v, _, h =>
      simp only [List.cons_append, List.cons_prefix_cons] at h
      obtain ⟨rfl, rfl, -⟩ := h
      exact hs (List.IsInfix.trans ⟨[], v, rfl⟩ hv.isInfix)
  have hnot : ¬"//".toList <+: c :: t := fun h => hc (List.cons_prefix_cons.mp h).1.symm
  rw [hpass, code, before_cons hnot]
  rfl

theorem code_append_append {u : Text} (hs : ¬"//".toList <:+: s) (hne : u ≠ []) (hu : '/' ∉ u)
    (t : Text) : code (s ++ (u ++ t)) = s ++ (u ++ code t) := by
  obtain ⟨c, u, rfl⟩ := List.exists_cons_of_ne_nil hne
  rw [List.mem_cons, not_or] at hu
  rw [List.cons_append, code_append_cons hs (Ne.symm hu.1), code_append hu.2, List.cons_append]

/-- A line that is cut in front of its comment is cut in its code. -/
theorem code_of_isPrefix (h : s <+: code (s ++ t)) : code (s ++ t) = s ++ code t := by
  induction s with
  | nil => rfl
  | cons c s ih =>
    rw [List.cons_append, code] at h ⊢
    by_cases hmark : "//".toList <+: c :: (s ++ t)
    · rw [before_of_isPrefix hmark] at h
      cases List.prefix_nil.mp h
    · rw [before_cons hmark] at h ⊢
      rw [List.cons_append]
      exact congrArg (c :: ·) (ih (List.cons_prefix_cons.mp h).2)

/-- What a text does not begin with, its code does not begin with either. -/
theorem mem_head?_of_mem_head?_code (h : c ∈ (code t).head?) : c ∈ t.head? := by
  obtain ⟨comment, hcomment⟩ : code t <+: t := before_isPrefix _ t
  rw [← hcomment]
  exact List.mem_head?_append_of_mem_head? h

theorem not_isInfix_code (line : Text) : ¬"//".toList <:+: code line :=
  not_isInfix_before (by decide) line

theorem hasWord_iff : hasWord t word = true ↔ word ∈ words t := by
  simp [hasWord]

/-- A line with the words of its tokens has a word if one of the tokens has it. -/
theorem hasWord_iff_exists : hasWord t word = true ↔ ∃ w ∈ tokens t, hasWord w word = true := by
  simp only [hasWord_iff]
  rw [words_eq_flatMap_tokens, List.mem_flatMap]

/-- The words of two texts are those of each where no word runs on from the one to the other. -/
theorem hasWord_append (ht : ∀ c ∈ t.head?, isWordChar c = false) (s word : Text) :
    hasWord (s ++ t) word = (hasWord s word || hasWord t word) := by
  have hwords : words (s ++ t) = words s ++ words t := pieces_append (Or.inr (by simpa using ht))
  rw [Bool.eq_iff_iff, Bool.or_eq_true, hasWord_iff, hasWord_iff, hasWord_iff, hwords,
    List.mem_append]

theorem hasWord_append_cons (hc : isWordChar c = false) (s t word : Text) :
    hasWord (s ++ c :: t) word = (hasWord s word || hasWord t word) := by
  have hmark : words (c :: t) = words t := pieces_cons (by simp [hc]) t
  rw [hasWord_append (by simpa using hc), hasWord, hasWord, hasWord, hmark]

/-- The line that declares a public member and goes on with the tail. -/
def declaring (type name tail : Text) : Text :=
  "public".toList ++ ' ' :: (type ++ ' ' :: (name ++ tail))

theorem declaring_eq (type name tail : Text) : declaring type name tail =
    "public".toList ++ ' ' :: (type ++ ' ' :: (name ++ tail)) :=
  rfl

theorem hasWord_declaring (ht : ∀ c ∈ t.head?, isWordChar c = false) (type name word : Text) :
    hasWord (declaring type name t) word = (hasWord publicMarker word || (hasWord type word ||
      (hasWord name word || hasWord t word))) := by
  have hblank : isWordChar ' ' = false := isWordChar_of_isBlank (by decide)
  rw [declaring_eq, hasWord_append_cons hblank, hasWord_append_cons hblank, hasWord_append ht]
  rfl

theorem hasWord_of_tokens_eq_nil (h : tokens t = []) : hasWord t word = false := by
  by_contra hw
  obtain ⟨w, hmem, -⟩ := hasWord_iff_exists.mp (by simpa using hw)
  simp [h] at hmem

theorem isTypeDeclaration_of_any (h : typeMarkers.any (hasWord (code line)) = false) :
    isTypeDeclaration line = false := by
  rw [isTypeDeclaration, h, Bool.and_false]

theorem isMethod_iff : isMethod line = true ↔ '(' ∈ code line ∧ ')' ∈ code line := by
  simp [isMethod]

/-- A field is public, no comment, and has neither a word that opens a type declaration nor a
parameter list. -/
theorem isField_iff : isField line = true ↔ hasWord (code line) publicMarker = true ∧
    isComment line = false ∧ typeMarkers.any (hasWord (code line)) = false ∧
    ¬('(' ∈ code line ∧ ')' ∈ code line) := by
  rw [← isMethod_iff, Bool.not_eq_true, isField, isTypeDeclaration]
  cases isComment line <;> simp [and_assoc]

/-- A mark that is no blank stands in the code if it stands in one of the tokens. -/
theorem contains_iff_exists (hc : isBlank c = false) :
    t.contains c = true ↔ ∃ w ∈ tokens t, c ∈ w := by
  rw [List.contains_iff_mem]
  exact exists_mem_pieces hc

/-- A line is the blanks in front of it and what is left when they are trimmed. -/
theorem exists_trimStart (line : Text) : ∃ s, (∀ c ∈ s, isBlank c = true) ∧
    line = s ++ trimStart isBlank line ∧
    ∀ c t, trimStart isBlank line = c :: t → isBlank c = false := by
  refine ⟨line.takeWhile isBlank, fun c hc => List.mem_takeWhile_imp hc,
    List.takeWhile_append_dropWhile.symm, fun c t h => ?_⟩
  have := List.head?_dropWhile_not isBlank line
  rw [trimStart] at h
  simpa [h] using this

/-- A star at the start of a line is neither blank nor part of a trailing comment. -/
theorem star_isPrefixOf_takeWhile_code (t : Text) :
    ['*'].isPrefixOf ((code t).takeWhile (!isBlank ·)) = ['*'].isPrefixOf t := by
  rw [Bool.eq_iff_iff, List.isPrefixOf_iff_prefix, List.isPrefixOf_iff_prefix]
  refine ⟨fun h => (h.trans (List.takeWhile_prefix _)).trans (before_isPrefix _ t), ?_⟩
  rintro ⟨t, rfl⟩
  have hstar : code (['*'] ++ t) = '*' :: code t := code_append (by decide) t
  rw [hstar, List.takeWhile_cons_of_pos (by decide)]
  exact ⟨_, rfl⟩

/-- Whether a line with tokens is a comment can be told from the first of them. -/
theorem isComment_of_tokens (h : tokens (code line) = w :: ws) :
    isComment line = ("/*".toList.isPrefixOf w || "*".toList.isPrefixOf w) := by
  obtain ⟨s, hs, hline, hfirst⟩ := exists_trimStart line
  have hcomment : isComment line = ("//".toList.isPrefixOf (trimStart isBlank line) ||
    "/*".toList.isPrefixOf (trimStart isBlank line) ||
    "*".toList.isPrefixOf (trimStart isBlank line)) := rfl
  generalize trimStart isBlank line = t at hline hfirst hcomment
  rw [hline, code_append (notMem_of_isBlank hs (by decide)), tokens_eq_pieces,
    pieces_append_of_forall hs] at h
  rcases t with _ | ⟨c, t⟩
  · simp [code, before] at h
  by_cases hmark : "//".toList <+: c :: t
  · rw [code, before_of_isPrefix hmark, pieces_nil] at h
    cases h
  rw [code, before_cons hmark] at h
  change pieces isBlank ([c] ++ code t) = w :: ws at h
  rw [pieces_append_of_forall_not (by simp) (by simpa using hfirst c t rfl)] at h
  obtain ⟨rfl, -⟩ := List.cons.inj h
  have hno : "//".toList.isPrefixOf (c :: t) = false := by
    simpa only [← Bool.not_eq_true, List.isPrefixOf_iff_prefix] using hmark
  rw [hcomment, hno, Bool.false_or]
  change ('/' == c && ['*'].isPrefixOf t || _) =
    ('/' == c && ['*'].isPrefixOf ((code t).takeWhile (!isBlank ·)) || _)
  rw [star_isPrefixOf_takeWhile_code]
  rfl

end InterfaceGen.Line
