import InterfaceGen.Proofs.Sorting

/-! Texts in bytes. The code of a character in UTF-8 grows with the character and no code is the
beginning of another, so that texts are in the order of their bytes. -/

namespace InterfaceGen.Text

/-- The bytes of a text in UTF-8. -/
def bytes (t : Text) : List UInt8 := t.flatMap String.utf8EncodeChar

/-- One list of bytes comes before another. -/
abbrev BytesLt : List UInt8 → List UInt8 → Prop := List.Lex (· < ·)

@[simp] theorem bytes_nil : bytes [] = [] := rfl

@[simp] theorem bytes_cons (c : Char) (t : Text) :
    bytes (c :: t) = String.utf8EncodeChar c ++ bytes t :=
  List.flatMap_cons

theorem bytesLt_cons {m n : Nat} (hm : m < 256) (hn : n < 256) {x y : List UInt8} :
    BytesLt (UInt8.ofNat m :: x) (UInt8.ofNat n :: y) ↔ m < n ∨ m = n ∧ BytesLt x y := by
  rw [BytesLt, List.cons_lex_cons_iff, UInt8.lt_iff_toNat_lt, ← UInt8.toNat_inj,
    UInt8.toNat_ofNat_of_lt' hm, UInt8.toNat_ofNat_of_lt' hn]

/-- Numbers compare like their digits to base 64. -/
theorem digits_lt {m n : Nat} (h : m < n) :
    m / 64 < n / 64 ∨ m / 64 = n / 64 ∧ m % 64 < n % 64 := by
  omega

theorem four_digits_lt {m n : Nat} (hn : n < 2097152) (h : m < n) :
    m / 262144 % 8 < n / 262144 % 8 ∨ m / 262144 % 8 = n / 262144 % 8 ∧
      (m / 4096 % 64 < n / 4096 % 64 ∨ m / 4096 % 64 = n / 4096 % 64 ∧
        (m / 64 % 64 < n / 64 % 64 ∨ m / 64 % 64 = n / 64 % 64 ∧ m % 64 < n % 64)) := by
  have hm₂ : m / 64 / 64 = m / 4096 := Nat.div_div_eq_div_mul m 64 64
  have hn₂ : n / 64 / 64 = n / 4096 := Nat.div_div_eq_div_mul n 64 64
  rcases digits_lt h with h₁ | ⟨h₁, h⟩
  · rcases digits_lt h₁ with h₂ | ⟨h₂, h⟩
    · rw [hm₂, hn₂] at h₂
      rcases digits_lt h₂ with h₃ | ⟨h₃, h⟩
      · exact Or.inl (by omega)
      · exact Or.inr ⟨by omega, Or.inl h⟩
    · exact Or.inr ⟨by omega, Or.inr ⟨by omega, Or.inl h⟩⟩
  · exact Or.inr ⟨by omega, Or.inr ⟨by omega, Or.inr ⟨by omega, h⟩⟩⟩

/-- A smaller character has a smaller code, whatever follows. -/
theorem bytesLt_utf8EncodeChar {c d : Char} (h : c.toNat < d.toNat) (x y : List UInt8) :
    BytesLt (String.utf8EncodeChar c ++ x) (String.utf8EncodeChar d ++ y) := by
  have hd : d.toNat < 1114112 := by
    have hvalid : d.toNat < 0xd800 ∨ 0xdfff < d.toNat ∧ d.toNat < 0x110000 := d.valid
    omega
  unfold String.utf8EncodeChar
  simp only [Char.toNat_val]
  generalize c.toNat = m at *
  generalize d.toNat = n at *
  by_cases hm : m ≤ 65535
  · split_ifs <;> simp (disch := omega) only [List.cons_append, List.nil_append, bytesLt_cons] <;>
      omega
  · -- where both codes have four bytes, the digits are too many to be compared in one go
    rw [if_neg (by omega), if_neg (by omega), if_neg hm, if_neg (by omega), if_neg (by omega),
      if_neg (by omega)]
    simp (disch := omega) only [List.cons_append, List.nil_append, bytesLt_cons]
    have hdigits := four_digits_lt (by omega) h
    omega

theorem utf8EncodeChar_ne_nil (c : Char) : String.utf8EncodeChar c ≠ [] := by
  unfold String.utf8EncodeChar
  dsimp only
  split_ifs <;> simp

theorem bytesLt_of_lt {s t : Text} (h : Lt s t) : BytesLt (bytes s) (bytes t) := by
  obtain ⟨hle, hne⟩ := h
  unfold le at hle
  induction s generalizing t with
  | nil =>
    cases t with
    | nil => exact absurd rfl hne
    | cons d t =>
      rw [bytes_nil, bytes_cons]
      obtain ⟨b, code, hcode⟩ := List.exists_cons_of_ne_nil (utf8EncodeChar_ne_nil d)
      rw [hcode]
      exact .nil
  | cons c s ih =>
    cases t with
    | nil => simp [Sorting.lexicographic] at hle
    | cons d t =>
      rw [bytes_cons, bytes_cons]
      by_cases hcd : c = d
      · subst hcd
        rw [Sorting.lexicographic, if_pos rfl] at hle
        exact List.Lex.append_left _ (ih hle fun h => hne (by rw [h])) _
      · rw [Sorting.lexicographic, if_neg hcd, decide_eq_true_eq] at hle
        refine bytesLt_utf8EncodeChar (lt_of_le_of_ne hle fun h => hcd ?_) _ _
        exact Char.toNat_inj.mp h

/-- Texts are in the order of their bytes. -/
theorem lt_iff_bytesLt {s t : Text} : Lt s t ↔ BytesLt (bytes s) (bytes t) := by
  refine ⟨bytesLt_of_lt, fun h => ?_⟩
  have hno : ¬BytesLt (bytes t) (bytes s) := List.lex_asymm UInt8.lt_asymm h
  have hne : s ≠ t := by
    rintro rfl
    exact hno h
  rcases isLinear_le.total s t with hle | hle
  · exact ⟨hle, hne⟩
  · exact absurd (bytesLt_of_lt ⟨hle, hne.symm⟩) hno

end InterfaceGen.Text
