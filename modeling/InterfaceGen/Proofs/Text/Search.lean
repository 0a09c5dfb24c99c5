import InterfaceGen.Text.Basic
import Mathlib.Tactic

/-! Looking for a mark or a pattern in a text from its start. What stands in front of the first
occurrence is passed over unchanged. -/

namespace InterfaceGen.Text

variable {c : Char} {pattern s t : Text}

/-- A search for a character passes over a text without it. -/
theorem splitAt?_append (hs : c ∉ s) (t : Text) :
    splitAt? c (s ++ t) = (splitAt? c t).map fun (l, r) => (s ++ l, r) := by
  induction s with
  | nil => simp
  | cons d s ih =>
    rw [List.mem_cons, not_or] at hs
    obtain ⟨hd, hs⟩ := hs
    rw [List.cons_append, splitAt?, if_neg (Ne.symm hd), ih hs, Option.map_map]
    rfl

theorem splitAt?_append_cons (hs : c ∉ s) (t : Text) : splitAt? c (s ++ c :: t) = some (s, t) := by
  simp [splitAt?_append hs, splitAt?]

theorem splitAt?_of_notMem (ht : c ∉ t) : splitAt? c t = none := by
  simpa [splitAt?] using splitAt?_append ht []

theorem eq_of_splitAt?_eq_some {u : Text} (h : splitAt? c t = some (s, u)) : t = s ++ c :: u := by
  induction t generalizing s with
  | nil => cases h
  | cons d t ih =>
    rw [splitAt?] at h
    split_ifs at h with hd
    · obtain ⟨rfl, rfl⟩ := Prod.mk.inj (Option.some.inj h)
      rw [hd, List.nil_append]
    · obtain ⟨⟨l, r⟩, hsplit, hparts⟩ := Option.map_eq_some_iff.mp h
      obtain ⟨rfl, rfl⟩ := Prod.mk.inj hparts
      rw [ih hsplit, List.cons_append]

/-- A search for a pattern passes over a text in which it does not begin. -/
theorem before_append (h : ∀ v, v ≠ [] → v <:+ s → ¬pattern <+: v ++ t) :
    before pattern (s ++ t) = s ++ before pattern t := by
  induction s with
  | nil => rfl
  | cons c s ih =>
    have hc := h (c :: s) (by simp) List.suffix_rfl
    rw [List.cons_append] at hc
    rw [List.cons_append, before, if_neg (by simpa using hc), List.cons_append,
      ih fun v hne hv => h v hne (hv.trans (List.suffix_cons c s))]

theorem before_of_isPrefix (h : pattern <+: t) : before pattern t = [] := by
  cases t with
  | nil => rfl
  | cons c t => rw [before, if_pos (by simpa using h)]

theorem before_cons (h : ¬pattern <+: c :: t) :
    before pattern (c :: t) = c :: before pattern t := by
  rw [before, if_neg (by simpa using h)]

/-- Behind what is found stands the pattern, or nothing. -/
theorem exists_before_append (pattern t : Text) :
    ∃ rest, t = before pattern t ++ rest ∧ (rest = [] ∨ pattern <+: rest) := by
  induction t with
  | nil => exact ⟨[], rfl, Or.inl rfl⟩
  | cons c t ih =>
    by_cases hc : pattern <+: c :: t
    · exact ⟨c :: t, by rw [before_of_isPrefix hc, List.nil_append], Or.inr hc⟩
    · obtain ⟨rest, ht, hrest⟩ := ih
      refine ⟨rest, ?_, hrest⟩
      rw [before_cons hc, List.cons_append, ← ht]

theorem before_isPrefix (pattern t : Text) : before pattern t <+: t := by
  obtain ⟨rest, ht, -⟩ := exists_before_append pattern t
  exact ⟨rest, ht.symm⟩

/-- What is in front of the first occurrence of a pattern has no occurrence of it. -/
theorem not_isInfix_before (h : pattern ≠ []) (t : Text) : ¬pattern <:+: before pattern t := by
  induction t with
  | nil => simpa [before] using h
  | cons c t ih =>
    by_cases hc : pattern <+: c :: t
    · simpa [before_of_isPrefix hc] using h
    · rw [before_cons hc, List.infix_cons_iff, not_or]
      exact ⟨fun hp => hc (hp.trans (List.cons_prefix_cons.mpr ⟨rfl, before_isPrefix _ t⟩)), ih⟩

theorem withoutLead?_append (lead t : Text) : withoutLead? lead (lead ++ t) = some t := by
  induction lead with
  | nil => rfl
  | cons c lead ih => rw [List.cons_append, withoutLead?, if_pos rfl, ih]

theorem withoutTail?_append (t tail : Text) : withoutTail? tail (t ++ tail) = some t := by
  rw [withoutTail?, List.reverse_append, withoutLead?_append, Option.map_some, List.reverse_reverse]

end InterfaceGen.Text
