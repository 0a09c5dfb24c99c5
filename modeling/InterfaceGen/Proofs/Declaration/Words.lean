import InterfaceGen.Proofs.Declaration.Line

/-! Where a line has a word. The words of a line are found by cutting it at everything that cannot be
part of one, and that finds a word just where it stands alone: nothing that could make it longer
touches it on either side. In the code of a line a word is found if it stands alone in the line and
no comment begins in front of it. -/

namespace InterfaceGen.Line

open Text

variable {line word : Text}

/-- Letters, digits and underscores, at least one of them. -/
structure IsWord (w : Text) : Prop where
  ne_nil : w ≠ []
  wordChars : ∀ c ∈ w, isWordChar c = true

theorem isWord_typeMarkers : ∀ k ∈ typeMarkers, IsWord k := by
  have h : ∀ k ∈ typeMarkers, k ≠ [] ∧ ∀ c ∈ k, isWordChar c = true := by decide +kernel
  exact fun k hk => ⟨(h k hk).1, (h k hk).2⟩

theorem isWord_publicMarker : IsWord publicMarker := ⟨by decide, by decide +kernel⟩

theorem isWordChar_slash : isWordChar '/' = false := by decide +kernel

theorem IsWord.noSlash (h : IsWord word) : '/' ∉ word := fun hmem =>
  Bool.noConfusion (isWordChar_slash.symm.trans (h.wordChars '/' hmem))

/-- The word stands in the line between `s` and `t`, and neither makes it part of a longer one. -/
structure StandsBetween (line word s t : Text) : Prop where
  eq : line = s ++ (word ++ t)
  left : ∀ c ∈ s.getLast?, isWordChar c = false
  right : ∀ c ∈ t.head?, isWordChar c = false

/-- The word stands alone somewhere in the line. -/
def StandsAlone (line word : Text) : Prop := ∃ s t, StandsBetween line word s t

/-- The word stands alone in the line and in front of the first comment mark. Since there is no
slash in a word, such a mark begins in front of it or behind it. -/
def StandsInCode (line word : Text) : Prop :=
  ∃ s t, StandsBetween line word s t ∧ ¬"//".toList <:+: s

theorem hasWord_iff_standsAlone (h : IsWord word) :
    hasWord line word = true ↔ StandsAlone line word := by
  have hword : ∀ c ∈ word, (!isWordChar c) = false := fun c hc => by simp [h.wordChars c hc]
  rw [hasWord_iff, words_eq_pieces, mem_pieces_iff h.ne_nil hword]
  simp only [Bool.not_eq_true', StandsAlone]
  exact exists_congr fun s => exists_congr fun t =>
    ⟨fun ⟨heq, hleft, hright⟩ => ⟨heq, hleft, hright⟩, fun h => ⟨h.eq, h.left, h.right⟩⟩

/-- A word in the code stands alone in the line, since no comment mark is part of a word. -/
theorem StandsAlone.standsInCode (h : StandsAlone (code line) word) : StandsInCode line word := by
  obtain ⟨s, t, heq, hleft, hright⟩ := h
  obtain ⟨rest, hline, hrest⟩ := exists_before_append "//".toList line
  refine ⟨s, t ++ rest, ⟨?_, hleft, ?_⟩, fun hmark => ?_⟩
  · rw [hline]
    change code line ++ rest = _
    rw [heq]
    simp
  · cases t with
    | cons c t => exact hright
    | nil =>
      rcases hrest with rfl | ⟨t, rfl⟩
      · exact hright
      · simpa [commentMark_eq] using isWordChar_slash
  · apply not_isInfix_code line
    rw [heq]
    exact hmark.trans (List.prefix_append s _).isInfix

theorem StandsInCode.standsAlone (hw : IsWord word) (h : StandsInCode line word) :
    StandsAlone (code line) word := by
  obtain ⟨s, t, ⟨rfl, hleft, hright⟩, hmark⟩ := h
  exact ⟨s, code t, code_append_append hmark hw.ne_nil hw.noSlash t, hleft,
    fun c hc => hright c (mem_head?_of_mem_head?_code hc)⟩

theorem hasWord_code_iff (h : IsWord word) :
    hasWord (code line) word = true ↔ StandsInCode line word := by
  rw [hasWord_iff_standsAlone h]
  exact ⟨StandsAlone.standsInCode, StandsInCode.standsAlone h⟩

/-- A line has a word where the word stands alone. So a line declares a type exactly if it is no
comment and one of the words for that stands alone in front of the first comment mark, and it is
looked at as public exactly if the word for that stands there. -/
theorem word_search_exact (line : Text) :
    (∀ word, IsWord word → (hasWord line word = true ↔ StandsAlone line word)) ∧
    (isTypeDeclaration line = true ↔
      isComment line = false ∧ ∃ k ∈ typeMarkers, StandsInCode line k) ∧
    (hasWord (code line) publicMarker = true ↔ StandsInCode line publicMarker) ∧
    (isField line = true ↔ StandsInCode line publicMarker ∧ isComment line = false ∧
      isTypeDeclaration line = false ∧ isMethod line = false) := by
  have hpublic : hasWord (code line) publicMarker = true ↔ StandsInCode line publicMarker :=
    hasWord_code_iff isWord_publicMarker
  refine ⟨fun word hw => hasWord_iff_standsAlone hw, ?_, hpublic, ?_⟩
  · rw [isTypeDeclaration, Bool.and_eq_true, Bool.not_eq_true', List.any_eq_true]
    refine and_congr_right fun _ => exists_congr fun k => and_congr_right fun hk => ?_
    exact hasWord_code_iff (isWord_typeMarkers k hk)
  · rw [← hpublic]
    simp [isField, and_assoc]

/-- Two longer words do not count, whatever the script of the letter in front of one of them is, and
neither does what stands in the comment. -/
theorem longer_word_search_exact :
    let line := "publics äpublic /public// class".toList
    IsWord "public".toList ∧ StandsAlone line "public".toList ∧
    IsWord "publi".toList ∧ ¬StandsAlone line "publi".toList ∧
    StandsInCode line "public".toList ∧ StandsAlone line "class".toList ∧
    ¬∃ k ∈ typeMarkers, StandsInCode line k := by
  intro line
  have hpubli : IsWord "publi".toList := ⟨by decide, by decide +kernel⟩
  obtain ⟨hsearch, htype, hpublic, -⟩ := word_search_exact line
  refine ⟨isWord_publicMarker, (hsearch _ isWord_publicMarker).mp (by decide +kernel), hpubli,
    (hsearch _ hpubli).not.mp (by decide +kernel), hpublic.mp (by decide +kernel),
    (hsearch _ (isWord_typeMarkers _ List.mem_cons_self)).mp (by decide +kernel), fun h => ?_⟩
  have hdeclares := htype.mpr ⟨by decide +kernel, h⟩
  exact absurd hdeclares (by decide +kernel)

end InterfaceGen.Line
