import InterfaceGen.Identifier
import InterfaceGen.Proofs.Path.Segments
import InterfaceGen.Proofs.Text.Settling

/-! Camel case makes file names out of type names. The marks in a camel-cased name are those of the
name, so an entry that is visible stays one. Either case is reached at once: written in it a second
time, a name stays as it is. -/

namespace InterfaceGen

namespace Text

theorem mem_of_head?_append {c : Char} {s t : Text} (hs : s ≠ []) (h : (s ++ t).head? = some c) :
    c ∈ s := by
  rw [List.head?_append_of_ne_nil _ hs] at h
  exact List.mem_of_head? h

theorem lowest_le_lowerSigma (seen rest : Text) : lowest ≤ (lowerSigma seen rest).toNat := by
  unfold lowerSigma
  split_ifs <;> decide

theorem mem_or_le_of_mem_lowerAfter {d : Char} {seen t : Text} (h : d ∈ lowerAfter seen t) :
    d ∈ t ∨ lowest ≤ d.toNat := by
  induction t generalizing seen with
  | nil => simp [lowerAfter] at h
  | cons c t ih =>
    rw [lowerAfter, List.mem_append] at h
    rcases h with h | h
    · split_ifs at h
      · rw [List.mem_singleton.mp h]
        exact Or.inr (lowest_le_lowerSigma seen t)
      · rcases eq_or_le_of_mem_lowerChar h with rfl | hd
        · exact Or.inl List.mem_cons_self
        · exact Or.inr hd
    · exact (ih h).imp_left (List.mem_cons_of_mem c)

/-- The first character of a lowered text is the first one of the text or stands from `a` on. -/
theorem head?_lower {c d : Char} {t : Text} (h : (lower (c :: t)).head? = some d) :
    d = c ∨ lowest ≤ d.toNat := by
  rw [lower, lowerAfter] at h
  split_ifs at h with hc
  · obtain rfl : lowerSigma [] t = d := by simpa using h
    exact Or.inr (lowest_le_lowerSigma [] t)
  · exact eq_or_le_of_mem_lowerChar (mem_of_head?_append (lowerChar_ne_nil c) h)

/-- The lower case of a text is in lower case: of a capital sigma nothing is left, and either form of
the small one stays. -/
theorem lowerChar_of_mem_lowerAfter {d : Char} {seen t : Text} (h : d ∈ lowerAfter seen t) :
    lowerChar d = [d] := by
  induction t generalizing seen with
  | nil => simp [lowerAfter] at h
  | cons c t ih =>
    rw [lowerAfter, List.mem_append] at h
    rcases h with h | h
    · split_ifs at h
      · rw [List.mem_singleton.mp h, lowerSigma]
        split_ifs <;> decide
      · exact lowerChar_of_mem_lowerChar h
    · exact ih h

theorem lowerAfter_eq_self {seen t : Text} (h : ∀ c ∈ t, lowerChar c = [c]) :
    lowerAfter seen t = t := by
  induction t generalizing seen with
  | nil => rfl
  | cons c t ih =>
    obtain ⟨hc, ht⟩ := List.forall_mem_cons.mp h
    have hsigma : c ≠ '\u03a3' := by
      rintro rfl
      revert hc
      decide
    rw [lowerAfter, if_neg hsigma, hc, ih ht, List.singleton_append]

end Text

namespace Identifier

open Text

theorem camel_ne_nil {t : Text} (h : t ≠ []) : camel t ≠ [] := by
  obtain ⟨c, t, rfl⟩ := List.exists_cons_of_ne_nil h
  rw [camel]
  split_ifs
  · simp
  · rw [lower, lowerAfter]
    split_ifs <;> simp [lowerChar_ne_nil]
  · simp [lowerChar_ne_nil]

/-- Camel case brings in no character below `a`. -/
theorem mem_of_mem_camel {d : Char} {t : Text} (h : d ∈ camel t) (hd : d.toNat < lowest) :
    d ∈ t := by
  cases t with
  | nil => exact h
  | cons c t =>
    rw [camel] at h
    split_ifs at h
    · exact h
    · exact (mem_or_le_of_mem_lowerAfter h).resolve_right (by omega)
    · rcases List.mem_append.mp h with h | h
      · rw [(eq_or_le_of_mem_lowerChar h).resolve_right (by omega)]
        exact List.mem_cons_self
      · exact List.mem_cons_of_mem c h

/-- A character below `a` that stands first in camel case stood first before. -/
theorem head?_of_head?_camel {d : Char} {t : Text} (h : (camel t).head? = some d)
    (hd : d.toNat < lowest) : t.head? = some d := by
  cases t with
  | nil => exact h
  | cons c t =>
    rw [camel] at h
    split_ifs at h
    · exact h
    · rw [(head?_lower h).resolve_right (by omega), List.head?_cons]
    · have hfirst := mem_of_head?_append (lowerChar_ne_nil c) h
      rw [(eq_or_le_of_mem_lowerChar hfirst).resolve_right (by omega), List.head?_cons]

/-- Names that start with the same character and are not in capitals differ in camel case. -/
theorem eq_of_camel_eq {s t : Text} (h : camel s = camel t) (hhead : s.head? = t.head?)
    (hs : isAllCapitals s = false) (ht : isAllCapitals t = false) : s = t := by
  cases s with
  | nil => exact (List.head?_eq_none_iff.mp hhead.symm).symm
  | cons c s =>
    cases t with
    | nil => cases hhead
    | cons d t =>
      obtain rfl := Option.some.inj hhead
      simp only [camel, hs, ht, Bool.false_eq_true, if_false] at h
      split_ifs at h
      · exact h
      · rw [List.append_cancel_left h]

/-- The camel case of a visible name is a visible name. -/
theorem isVisible_camel {n : Text} (h : Path.IsVisible n) : Path.IsVisible (camel n) := by
  refine ⟨camel_ne_nil h.ne_nil, fun hslash => h.noSlash (mem_of_mem_camel hslash (by decide)), ?_⟩
  by_contra hdot
  have hhead : (camel n).head? = some '.' := by simpa [FileName.isHidden] using hdot
  have hshown := h.shown
  simp [FileName.isHidden, head?_of_head?_camel hhead (by decide)] at hshown

/-- The pascal case of a visible name is a visible name, for its first character brings in none
below `A`. -/
theorem isVisible_pascal {n : Text} (h : Path.IsVisible n) : Path.IsVisible (pascal n) := by
  cases n with
  | nil => exact absurd rfl h.ne_nil
  | cons c t =>
    rw [pascal]
    split_ifs
    · exact h
    · have hmark : ∀ {d : Char}, d ∈ upperChar c → d.toNat < lowestCapital → d = c :=
        fun hd hlow => (eq_or_le_of_mem_upperChar hd).resolve_right (by omega)
      refine ⟨by simp [upperChar_ne_nil], fun hslash => h.noSlash ?_, ?_⟩
      · rcases List.mem_append.mp hslash with hslash | hslash
        · rw [hmark hslash (by decide)]
          exact List.mem_cons_self
        · exact List.mem_cons_of_mem c hslash
      · by_contra hdot
        rw [Bool.not_eq_false, FileName.isHidden, beq_iff_eq] at hdot
        have hshown := h.shown
        simp [FileName.isHidden,
          ← hmark (mem_of_head?_append (upperChar_ne_nil c) hdot) (by decide)] at hshown

/-- Camel case leaves a name alone if lowering does so with its first character and, where the name
would be lowered as a whole, with every character. -/
theorem camel_eq_self {t : Text} (hhead : ∀ c ∈ t.head?, lowerChar c = [c])
    (hall : isAllCapitals t = true → ∀ c ∈ t, lowerChar c = [c]) : camel t = t := by
  cases t with
  | nil => rfl
  | cons c t =>
    rw [camel]
    split_ifs with hlower hcapitals
    · rfl
    · exact lowerAfter_eq_self (hall hcapitals)
    · rw [hhead c rfl, List.singleton_append]

theorem pascal_eq_self {t : Text} (hhead : ∀ c ∈ t.head?, upperChar c = [c]) : pascal t = t := by
  cases t with
  | nil => rfl
  | cons c t =>
    rw [pascal]
    split_ifs
    · rfl
    · rw [hhead c rfl, List.singleton_append]

theorem camel_camel (t : Text) : camel (camel t) = camel t := by
  cases t with
  | nil => rfl
  | cons c t =>
    rw [camel]
    split_ifs with hlower hcapitals
    · rw [camel, if_pos hlower]
    · refine camel_eq_self (fun d hd => ?_) fun _ d hd => lowerChar_of_mem_lowerAfter hd
      exact lowerChar_of_mem_lowerAfter (List.mem_of_head? hd)
    · -- what keeps the name from being in capitals stands behind the first character
      have hrest : isAllCapitals (lowerChar c ++ t) = false := by
        simp only [isAllCapitals, List.any_cons, hlower, List.any_append] at hcapitals ⊢
        simpa using fun _ => hcapitals
      refine camel_eq_self (fun d hd => ?_) fun h => ?_
      · exact lowerChar_of_mem_lowerChar (mem_of_head?_append (lowerChar_ne_nil c) hd)
      · rw [hrest] at h
        cases h

theorem pascal_pascal (t : Text) : pascal (pascal t) = pascal t := by
  cases t with
  | nil => rfl
  | cons c t =>
    rw [pascal]
    split_ifs with hupper
    · rw [pascal, if_pos hupper]
    · refine pascal_eq_self fun d hd => ?_
      exact upperChar_of_mem_upperChar (mem_of_head?_append (upperChar_ne_nil c) hd)

/-- A name that has been written in camel or in pascal case stays as it is when it is written so
again, whatever its characters. -/
theorem casing_idempotent (t : Text) : camel (camel t) = camel t ∧ pascal (pascal t) = pascal t :=
  ⟨camel_camel t, pascal_pascal t⟩

-- capitals behind an underscore are lowered as a whole, and the result is no name in capitals
example : camel "_ΑΣ".toList = "_ας".toList ∧ isAllCapitals "_ας".toList = false := by
  decide +kernel

end Identifier

end InterfaceGen
