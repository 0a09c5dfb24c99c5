import InterfaceGen.Proofs.Declaration.Line

/-! Names in lines. A name is cut out of a token: it begins where the token does and ends where the
token does or at a mark. Letters, digits and underscores are neither blanks nor marks. -/

namespace InterfaceGen

open Text

/-- A name as it may be written: letters, digits and underscores, at most with an at sign in
front. -/
def IsIdentifier (n : Text) : Prop :=
  let stem := (withoutLead? ['@'] n).getD n
  stem ≠ [] ∧ ∀ c ∈ stem, isWordChar c = true

instance (n : Text) : Decidable (IsIdentifier n) := inferInstanceAs (Decidable (_ ∧ _))

/-- At least one blank. -/
def IsGap (t : Text) : Prop := t ≠ [] ∧ ∀ c ∈ t, isBlank c = true

instance (t : Text) : Decidable (IsGap t) := inferInstanceAs (Decidable (_ ∧ _))

/-- Nothing, or what begins with a blank or with a mark of the class `p`. -/
def Stops (p : Char → Bool) (tail : Text) : Prop := ∀ c ∈ tail.head?, isBlank c = true ∨ p c = true

instance (p : Char → Bool) (tail : Text) : Decidable (Stops p tail) :=
  inferInstanceAs (Decidable (∀ _ ∈ tail.head?, _))

variable {p : Char → Bool} {name tail : Text}

theorem Stops.code (h : Stops p tail) : Stops p (Line.code tail) :=
  fun c hc => h c (Line.mem_head?_of_mem_head?_code hc)

/-- A name is cut off from what follows it in the same token. -/
theorem takeWhile_name (hname : ∀ c ∈ name, p c = false) (htail : Stops p tail) :
    (name ++ tail.takeWhile (!isBlank ·)).takeWhile (!p ·) = name := by
  rw [List.takeWhile_append_of_pos (by simpa using hname)]
  cases tail with
  | nil => simp
  | cons c tail =>
    rcases htail c rfl with hc | hc
    · simp [hc]
    · rw [List.takeWhile_cons]
      split_ifs <;> simp [hc]

/-- A name in front of what stops it is one token with it. -/
theorem tokens_name (hne : name ≠ []) (hname : ∀ c ∈ name, isBlank c = false) (tail : Text) :
    tokens (name ++ tail) =
      (name ++ tail.takeWhile (!isBlank ·)) :: tokens (tail.dropWhile (!isBlank ·)) :=
  pieces_append_of_forall_not hne hname tail

theorem tokens_gap {w gap : Text} (hne : w ≠ []) (hw : ∀ c ∈ w, isBlank c = false)
    (hgap : IsGap gap) (t : Text) : tokens (w ++ (gap ++ t)) = w :: tokens t := by
  obtain ⟨b, gap, rfl⟩ := List.exists_cons_of_ne_nil hgap.1
  obtain ⟨hb, hgap⟩ := List.forall_mem_cons.mp hgap.2
  rw [tokens_eq_pieces, List.cons_append, pieces_append_cons hb, pieces_append_of_forall hgap,
    pieces_of_forall_not hw, if_neg hne, List.singleton_append]

/-- Letters, digits and underscores with a sign among them are neither blanks nor other marks. -/
theorem notMem_of_wordChars {sign c : Char} (h : ∀ d ∈ name, isWordChar d = true ∨ d = sign)
    (hc : isWordChar c = false) (hsign : c ≠ sign) : c ∉ name := by
  intro hmem
  rcases h c hmem with hw | rfl
  · rw [hc] at hw
    cases hw
  · exact hsign rfl

theorem forall_of_wordChars {sign : Char} (h : ∀ d ∈ name, isWordChar d = true ∨ d = sign)
    (hp : ∀ c, p c = true → isWordChar c = false ∧ c ≠ sign) : ∀ c ∈ name, p c = false := by
  intro c hc
  by_contra hpc
  obtain ⟨hw, hne⟩ := hp c (by simpa using hpc)
  exact notMem_of_wordChars h hw hne hc

theorem isBlank_of_wordChars {sign : Char} (h : ∀ d ∈ name, isWordChar d = true ∨ d = sign)
    (hsign : isBlank sign = false) : ∀ c ∈ name, isBlank c = false := by
  refine forall_of_wordChars h fun c hc => ⟨isWordChar_of_isBlank hc, ?_⟩
  rintro rfl
  rw [hc] at hsign
  cases hsign

theorem IsIdentifier.wordChars (h : IsIdentifier name) :
    ∀ d ∈ name, isWordChar d = true ∨ d = '@' := by
  obtain ⟨-, h⟩ := h
  cases name with
  | nil => simp
  | cons c n =>
    by_cases hc : c = '@'
    · subst hc
      exact List.forall_mem_cons.mpr ⟨Or.inr rfl, fun d hd => Or.inl (h d hd)⟩
    · simp only [withoutLead?, if_neg (Ne.symm hc), Option.getD_none] at h
      exact fun d hd => Or.inl (h d hd)

theorem IsIdentifier.ne_nil (h : IsIdentifier name) : name ≠ [] := by
  rintro rfl
  exact h.1 rfl

end InterfaceGen
