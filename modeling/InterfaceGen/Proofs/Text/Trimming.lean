import InterfaceGen.Proofs.Text.Search
import InterfaceGen.Text.Blank
import Mathlib.Data.List.TakeWhile
import Mathlib.Tactic

/-! Taking off the ends of a text. Characters of the class that is trimmed come off at an end of the
text up to the first one of another class, and a known beginning or end comes off only if the text
has it. -/

namespace InterfaceGen.Text

variable {p : Char → Bool} {c : Char} {s t u lead tail : Text}

theorem trimStart_append (hs : ∀ c ∈ s, p c = true) (t : Text) :
    trimStart p (s ++ t) = trimStart p t :=
  List.dropWhile_append_of_pos hs

theorem trimEnd_append (hs : ∀ c ∈ s, p c = true) (t : Text) :
    trimEnd p (t ++ s) = trimEnd p t := by
  rw [trimEnd, List.reverse_append, List.dropWhile_append_of_pos (by simpa using hs)]
  rfl

theorem trimStart_cons (hc : p c = false) (t : Text) : trimStart p (c :: t) = c :: t :=
  List.dropWhile_cons_of_neg (by simp [hc])

theorem trimEnd_concat (hc : p c = false) (t : Text) : trimEnd p (t ++ [c]) = t ++ [c] := by
  rw [trimEnd, List.reverse_append, List.reverse_singleton, List.singleton_append,
    List.dropWhile_cons_of_neg (by simp [hc]), List.reverse_cons, List.reverse_reverse]

/-- Blanks around a text do not count. -/
theorem strip_append (hs : ∀ c ∈ s, isBlank c = true) (hu : ∀ c ∈ u, isBlank c = true) (t : Text) :
    strip (s ++ (t ++ u)) = strip t := by
  rw [strip, strip, trim, trim, trimStart_append hs]
  have hend : trimStart isBlank (t ++ u) = if (trimStart isBlank t).isEmpty then
      trimStart isBlank u else trimStart isBlank t ++ u := List.dropWhile_append
  rw [hend]
  split_ifs with ht
  · rw [List.isEmpty_iff.mp ht, show trimStart isBlank u = [] from List.dropWhile_eq_nil_iff.mpr hu]
  · exact trimEnd_append hu _

theorem strip_of_forall_not (ht : ∀ c ∈ t, isBlank c = false) : strip t = t := by
  have hstart : trimStart isBlank t = t := by
    cases t with
    | nil => rfl
    | cons c t => exact trimStart_cons (ht c List.mem_cons_self) t
  rw [strip, trim, hstart]
  rcases List.eq_nil_or_concat' t with rfl | ⟨s, c, rfl⟩
  · rfl
  · exact trimEnd_concat (ht c (by simp)) s

theorem withoutLead?_eq_some_iff : withoutLead? lead t = some u ↔ t = lead ++ u := by
  refine ⟨fun h => ?_, fun h => h ▸ withoutLead?_append lead u⟩
  induction lead generalizing t with
  | nil => exact Option.some.inj h
  | cons c lead ih =>
    cases t with
    | nil => cases h
    | cons d t =>
      rw [withoutLead?] at h
      split_ifs at h with hc
      rw [hc, ih h, List.cons_append]

theorem withoutTail?_eq_some_iff : withoutTail? tail t = some u ↔ t = u ++ tail := by
  refine ⟨fun h => ?_, fun h => h ▸ withoutTail?_append u tail⟩
  obtain ⟨v, hv, rfl⟩ := Option.map_eq_some_iff.mp h
  rw [← List.reverse_reverse t, withoutLead?_eq_some_iff.mp hv, List.reverse_append,
    List.reverse_reverse]

/-- A text with another last character has not the end that is looked for. -/
theorem withoutTail?_concat {d : Char} (h : d ≠ c) (s t : Text) :
    withoutTail? (s ++ [c]) (t ++ [d]) = none := by
  rw [Option.eq_none_iff_forall_ne_some]
  intro u hu
  have heq := withoutTail?_eq_some_iff.mp hu
  rw [← List.append_assoc] at heq
  exact h (List.singleton_inj.mp (List.append_inj_right' heq rfl))

end InterfaceGen.Text
