import InterfaceGen.Text.CaseMapping
import Mathlib.Tactic

/-! The case mappings stay clear of marks. Below its least letter, in the table of code points, a
character comes out of a mapping only if it went in: lowering adds nothing that stands before `a`,
and no mapping adds a slash, a dot or a digit to a text. -/

namespace InterfaceGen.Text

/-- The code point of `a`. No mapping to lower case leads below it. -/
abbrev lowest : Nat := 0x61

/-- The code point of `A`. No mapping to upper case leads below it. -/
abbrev lowestCapital : Nat := 0x41

/-- All code points of the run move to characters from `bound` on. -/
def Shift.StaysFrom (bound : Nat) (s : Shift) : Prop :=
  (bound : Int) ≤ s.run.first + s.distance ∧ (s.run.last + s.distance : Int) < 0xd800 ∨
    max (bound : Int) 0xe000 ≤ s.run.first + s.distance ∧
      (s.run.last + s.distance : Int) < 0x110000

instance (bound : Nat) (s : Shift) : Decidable (s.StaysFrom bound) :=
  inferInstanceAs (Decidable (_ ∨ _))

theorem lowerShifts_stayFrom : ∀ s ∈ lowerShifts, s.StaysFrom lowest := by decide +kernel

theorem upperShifts_stayFrom : ∀ s ∈ upperShifts, s.StaysFrom lowestCapital := by decide +kernel

theorem lowerExpansions_stayFrom :
    ∀ e ∈ lowerExpansions, e.2 ≠ [] ∧ ∀ n ∈ e.2, lowest ≤ (Char.ofNat n).toNat := by
  decide +kernel

theorem upperExpansions_stayFrom :
    ∀ e ∈ upperExpansions, e.2 ≠ [] ∧ ∀ n ∈ e.2, lowestCapital ≤ (Char.ofNat n).toNat := by
  decide +kernel

theorem Run.contains_iff {r : Run} {n : Nat} :
    r.contains n = true ↔ r.first ≤ n ∧ n ≤ r.last ∧ (n - r.first) % r.step = 0 := by
  simp [contains, and_assoc]

theorem Shift.StaysFrom.le_and_isValidChar {bound : Nat} {s : Shift} (h : s.StaysFrom bound)
    {n : Nat} (hn : s.run.contains n) : bound ≤ ((n : Int) + s.distance).toNat ∧
      ((n : Int) + s.distance).toNat.isValidChar := by
  obtain ⟨hfirst, hlast, -⟩ := Run.contains_iff.mp hn
  unfold Shift.StaysFrom at h
  unfold Nat.isValidChar
  rcases h with ⟨h₁, h₂⟩ | ⟨h₁, h₂⟩ <;> omega

/-- A code point stays where it is, or one of the shifts moves it. -/
theorem shift_cases (shifts : List Shift) (n : Nat) :
    shift shifts n = n ∨ ∃ s ∈ shifts, s.run.contains n = true ∧
      shift shifts n = ((n : Int) + s.distance).toNat := by
  induction shifts with
  | nil => exact Or.inl rfl
  | cons s rest ih =>
    simp only [shift]
    split_ifs with hlt hin
    · exact Or.inl rfl
    · exact Or.inr ⟨s, List.mem_cons_self, hin, rfl⟩
    · exact ih.imp_right fun ⟨t, ht, hn, heq⟩ => ⟨t, List.mem_cons_of_mem s ht, hn, heq⟩

theorem mem_of_lookup {α β : Type*} [BEq α] [LawfulBEq α] {l : List (α × β)} {a : α} {b : β}
    (h : l.lookup a = some b) : (a, b) ∈ l := by
  obtain ⟨l₁, l₂, rfl, -⟩ := List.lookup_eq_some_iff.mp h
  simp

theorem toNat_ofNat {n : Nat} (h : n.isValidChar) : (Char.ofNat n).toNat = n := by
  rw [Char.ofNat, dif_pos h]
  rfl

/-- A character that comes out of a mapping went in, or it stands from the bound on. -/
theorem eq_or_le_of_mem_mapCase {expansions : List (Nat × List Nat)} {shifts : List Shift}
    {bound : Nat} (hshifts : ∀ s ∈ shifts, s.StaysFrom bound)
    (hexpansions : ∀ e ∈ expansions, ∀ n ∈ e.2, bound ≤ (Char.ofNat n).toNat) {c d : Char}
    (h : d ∈ mapCase expansions shifts c) : d = c ∨ bound ≤ d.toNat := by
  unfold mapCase at h
  split at h
  next ns hns =>
    obtain ⟨n, hn, rfl⟩ := List.mem_map.mp h
    exact Or.inr (hexpansions _ (mem_of_lookup hns) n hn)
  next =>
    obtain rfl := List.mem_singleton.mp h
    rcases shift_cases shifts c.toNat with hshift | ⟨s, hs, hn, hshift⟩
    · rw [hshift]
      exact Or.inl (Char.ofNat_toNat c)
    · obtain ⟨hle, hvalid⟩ := (hshifts s hs).le_and_isValidChar hn
      rw [hshift, toNat_ofNat hvalid]
      exact Or.inr hle

/-- The lower case of a character is the character itself or stands from `a` on. -/
theorem eq_or_le_of_mem_lowerChar {c d : Char} (h : d ∈ lowerChar c) :
    d = c ∨ lowest ≤ d.toNat :=
  eq_or_le_of_mem_mapCase lowerShifts_stayFrom (fun e he => (lowerExpansions_stayFrom e he).2) h

/-- The upper case of a character is the character itself or stands from `A` on. -/
theorem eq_or_le_of_mem_upperChar {c d : Char} (h : d ∈ upperChar c) :
    d = c ∨ lowestCapital ≤ d.toNat :=
  eq_or_le_of_mem_mapCase upperShifts_stayFrom (fun e he => (upperExpansions_stayFrom e he).2) h

theorem mapCase_ne_nil {expansions : List (Nat × List Nat)} (h : ∀ e ∈ expansions, e.2 ≠ [])
    (shifts : List Shift) (c : Char) : mapCase expansions shifts c ≠ [] := by
  unfold mapCase
  split
  next ns hns => simpa using h _ (mem_of_lookup hns)
  next => simp

theorem lowerChar_ne_nil (c : Char) : lowerChar c ≠ [] :=
  mapCase_ne_nil (fun e he => (lowerExpansions_stayFrom e he).1) lowerShifts c

theorem upperChar_ne_nil (c : Char) : upperChar c ≠ [] :=
  mapCase_ne_nil (fun e he => (upperExpansions_stayFrom e he).1) upperShifts c

end InterfaceGen.Text
