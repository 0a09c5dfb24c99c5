import InterfaceGen.Text.Basic
import Mathlib.Data.List.Sort
import Mathlib.Tactic

/-! Sorting, and the orders to sort by. A linear order of the elements makes the lexicographic one
of lists linear, and so the order of texts. -/

namespace InterfaceGen

namespace Sorting

section Insertion

variable {α : Type} {r : α → α → Prop} [DecidableRel r]

theorem insert_eq_orderedInsert (a : α) (l : List α) : insert r a l = l.orderedInsert r a := by
  induction l with
  | nil => rfl
  | cons b l ih => rw [insert, List.orderedInsert_cons, ih]

theorem sort_eq_insertionSort (l : List α) : sort r l = l.insertionSort r := by
  induction l with
  | nil => rfl
  | cons a l ih => rw [sort, ih, insert_eq_orderedInsert, List.insertionSort_cons]

theorem sort_perm (l : List α) : (sort r l).Perm l := by
  rw [sort_eq_insertionSort]
  exact List.perm_insertionSort r l

theorem pairwise_sort (htotal : ∀ a b, r a b ∨ r b a) (htrans : ∀ a b c, r a b → r b c → r a c)
    (l : List α) : (sort r l).Pairwise r := by
  have : Std.Total r := ⟨htotal⟩
  have : IsTrans α r := ⟨htrans⟩
  rw [sort_eq_insertionSort]
  exact List.pairwise_insertionSort r l

theorem mem_insert {a b : α} {l : List α} : b ∈ insert r a l ↔ b = a ∨ b ∈ l := by
  rw [insert_eq_orderedInsert, List.mem_orderedInsert]

/-- An element that stood before the whole list is put before those that it may precede, and so it
stays before its equals. -/
theorem pairwise_insert_stable {S : α → α → Prop} (htotal : ∀ a b, r a b ∨ r b a)
    (htrans : ∀ a b c, r a b → r b c → r a c) {a : α} {l : List α}
    (hl : l.Pairwise fun b c => r b c ∧ (r c b → S b c)) (ha : ∀ b ∈ l, S a b) :
    (insert r a l).Pairwise fun b c => r b c ∧ (r c b → S b c) := by
  induction l with
  | nil => exact List.pairwise_singleton _ _
  | cons b l ih =>
    obtain ⟨hb, hl'⟩ := List.pairwise_cons.mp hl
    rw [insert]
    split_ifs with hab
    · refine List.pairwise_cons.mpr ⟨fun c hc => ⟨?_, fun _ => ha c hc⟩, hl⟩
      rcases List.mem_cons.mp hc with rfl | hc
      · exact hab
      · exact htrans a b c hab (hb c hc).1
    · refine List.pairwise_cons.mpr
        ⟨fun c hc => ?_, ih hl' fun c hc => ha c (List.mem_cons_of_mem b hc)⟩
      rcases mem_insert.mp hc with rfl | hc
      · exact ⟨(htotal c b).resolve_left hab, fun h => absurd h hab⟩
      · exact hb c hc

/-- The sort is stable: what holds between the elements in their order before still holds between
those that precede each other. -/
theorem pairwise_sort_stable {S : α → α → Prop} (htotal : ∀ a b, r a b ∨ r b a)
    (htrans : ∀ a b c, r a b → r b c → r a c) {l : List α} (h : l.Pairwise S) :
    (sort r l).Pairwise fun a b => r a b ∧ (r b a → S a b) := by
  induction l with
  | nil => exact List.Pairwise.nil
  | cons a l ih =>
    obtain ⟨ha, hl⟩ := List.pairwise_cons.mp h
    exact pairwise_insert_stable htotal htrans (ih hl) fun b hb =>
      ha b ((sort_perm l).mem_iff.mp hb)

end Insertion

section Relation

variable {α β : Type} {r : α → α → Prop} {r' : β → β → Prop} [DecidableRel r] [DecidableRel r']
  {R : α → β → Prop}

/-- Whether an element precedes another is the same for those related to them. -/
def Respects (R : α → β → Prop) (r : α → α → Prop) (r' : β → β → Prop) : Prop :=
  ∀ ⦃a b a' b'⦄, R a a' → R b b' → (r a b ↔ r' a' b')

theorem forall₂_insert (hR : Respects R r r') {a : α} {a' : β} (ha : R a a') {l : List α}
    {l' : List β} (h : List.Forall₂ R l l') : List.Forall₂ R (insert r a l) (insert r' a' l') := by
  induction h with
  | nil => exact .cons ha .nil
  | cons hb h ih =>
    rw [insert, insert, if_congr (hR ha hb) rfl rfl]
    split_ifs
    · exact .cons ha (.cons hb h)
    · exact .cons hb ih

/-- Lists whose elements are related remain so if both are sorted by orders that agree. -/
theorem forall₂_sort (hR : Respects R r r') {l : List α} {l' : List β} (h : List.Forall₂ R l l') :
    List.Forall₂ R (sort r l) (sort r' l') := by
  induction h with
  | nil => exact .nil
  | cons ha _ ih => exact forall₂_insert hR ha ih

end Relation

/-- A linear order, as a test. -/
structure IsLinear {α : Type} (le : α → α → Bool) : Prop where
  total : ∀ a b, le a b = true ∨ le b a = true
  antisymm : ∀ a b, le a b = true → le b a = true → a = b
  trans : ∀ a b c, le a b = true → le b c = true → le a c = true

namespace IsLinear

variable {α : Type} [DecidableEq α] {le : α → α → Bool} (h : IsLinear le)

include h

theorem lexicographic_total (l k : List α) :
    Sorting.lexicographic le l k = true ∨ Sorting.lexicographic le k l = true := by
  induction l generalizing k with
  | nil => simp [Sorting.lexicographic]
  | cons a l ih =>
    cases k with
    | nil => simp [Sorting.lexicographic]
    | cons b k =>
      by_cases hab : a = b
      · simpa [Sorting.lexicographic, hab] using ih k
      · simpa [Sorting.lexicographic, hab, Ne.symm hab] using h.total a b

theorem lexicographic_antisymm (l k : List α) (hlk : Sorting.lexicographic le l k = true)
    (hkl : Sorting.lexicographic le k l = true) : l = k := by
  induction l generalizing k with
  | nil =>
    cases k with
    | nil => rfl
    | cons b k => simp [Sorting.lexicographic] at hkl
  | cons a l ih =>
    cases k with
    | nil => simp [Sorting.lexicographic] at hlk
    | cons b k =>
      by_cases hab : a = b
      · subst hab
        simp only [Sorting.lexicographic, if_true] at hlk hkl
        rw [ih k hlk hkl]
      · simp only [Sorting.lexicographic, hab, Ne.symm hab, if_false] at hlk hkl
        exact absurd (h.antisymm a b hlk hkl) hab

theorem lexicographic_trans (l k m : List α) (hlk : Sorting.lexicographic le l k = true)
    (hkm : Sorting.lexicographic le k m = true) : Sorting.lexicographic le l m = true := by
  induction l generalizing k m with
  | nil => simp [Sorting.lexicographic]
  | cons a l ih =>
    cases k with
    | nil => simp [Sorting.lexicographic] at hlk
    | cons b k =>
      cases m with
      | nil => simp [Sorting.lexicographic] at hkm
      | cons c m =>
        simp only [Sorting.lexicographic] at hlk hkm ⊢
        -- the first place at which two neighbours differ decides for the outer two
        by_cases hab : a = b
        · subst hab
          rw [if_pos rfl] at hlk
          split_ifs at hkm ⊢ with hac
          · exact ih k m hlk hkm
          · exact hkm
        · rw [if_neg hab] at hlk
          by_cases hbc : b = c
          · subst hbc
            rwa [if_neg hab]
          · rw [if_neg hbc] at hkm
            have hac : a ≠ c := by
              rintro rfl
              exact hab (h.antisymm a b hlk hkm)
            rw [if_neg hac]
            exact h.trans a b c hlk hkm

theorem lexicographic : IsLinear (Sorting.lexicographic le) :=
  ⟨h.lexicographic_total, h.lexicographic_antisymm, h.lexicographic_trans⟩

end IsLinear

end Sorting

namespace Text

theorem isLinear_le : Sorting.IsLinear Text.le := by
  have h : Sorting.IsLinear fun a b : Char => decide (a.toNat ≤ b.toNat) := by
    refine ⟨fun a b => ?_, fun a b => ?_, fun a b c => ?_⟩
    · simpa using le_total a.toNat b.toNat
    · simp only [decide_eq_true_eq]
      exact fun h₁ h₂ => Char.toNat_inj.mp (le_antisymm h₁ h₂)
    · simpa using le_trans
  exact h.lexicographic

/-- One text comes before another. -/
def Lt (s t : Text) : Prop := Text.le s t = true ∧ s ≠ t

theorem not_lt_of_lt {s t : Text} (h : Lt s t) : ¬Lt t s := fun h' =>
  h.2 (isLinear_le.antisymm _ _ h.1 h'.1)

/-- A list sorted by texts that no two elements share is sorted strictly. -/
theorem pairwise_lt_sort {α : Type} (f : α → Text) {l : List α} (h : (l.map f).Nodup) :
    (Sorting.sort (fun a b => Text.le (f a) (f b)) l).Pairwise fun a b => Lt (f a) (f b) := by
  have hsorted := Sorting.pairwise_sort (r := fun a b => Text.le (f a) (f b) = true)
    (fun a b => isLinear_le.total (f a) (f b)) (fun a b c => isLinear_le.trans (f a) (f b) (f c)) l
  have hperm := Sorting.sort_perm (r := fun a b => Text.le (f a) (f b) = true) l
  have hnodup := (hperm.map f).nodup_iff.mpr h
  rw [List.Nodup, List.pairwise_map] at hnodup
  exact hsorted.imp₂ (fun a b hab hne => ⟨hab, hne⟩) hnodup

end Text

end InterfaceGen
