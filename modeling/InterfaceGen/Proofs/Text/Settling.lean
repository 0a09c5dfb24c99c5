import InterfaceGen.Proofs.Text.Lowering

/-! Mapping the case of a character a second time changes nothing: what a case mapping leads to, it
leaves alone. For a mapping given by a table this is checked run by run, since the code points of a
run move together. -/

namespace InterfaceGen.Text

namespace Run

variable {r r' : Run} {n : Nat}

/-- The code points of the run are all even or all odd. -/
def hasParity (r : Run) : Bool := r.step == 2 || r.first == r.last

/-- One run ends before the other begins, or one is even and the other odd. -/
def isApart (r r' : Run) : Bool :=
  r.last.blt r'.first || (r'.last.blt r.first ||
    (r.hasParity && (r'.hasParity && (r.first + r'.first) % 2 == 1)))

/-- Every code point of the run is a character. -/
def isValid (r : Run) : Bool :=
  r.last.blt 0xd800 || ((0xe000 : Nat).ble r.first && r.last.blt 0x110000)

/-- No shift moves a code point of the run; the shifts ascend. -/
def isUnmoved (r : Run) : List Shift → Bool
  | [] => true
  | s :: rest => r.last.blt s.run.first || (r.isApart s.run && r.isUnmoved rest)

theorem contains_one : (one n).contains n = true := by
  simp [contains_iff, one]

theorem mod_two_of_contains (hn : r.contains n = true) (h : r.hasParity = true) :
    n % 2 = r.first % 2 := by
  obtain ⟨hfirst, hlast, hstep⟩ := contains_iff.mp hn
  simp only [hasParity, Bool.or_eq_true, beq_iff_eq] at h
  rcases h with h | h
  · rw [h] at hstep
    omega
  · omega

theorem not_contains_of_isApart (h : r.isApart r' = true) (hn : r.contains n = true) :
    r'.contains n = false := by
  by_contra hn'
  rw [Bool.not_eq_false] at hn'
  obtain ⟨hfirst, hlast, -⟩ := contains_iff.mp hn
  obtain ⟨hfirst', hlast', -⟩ := contains_iff.mp hn'
  simp only [isApart, Bool.or_eq_true, Bool.and_eq_true, Nat.blt_eq, beq_iff_eq] at h
  rcases h with h | h | ⟨hr, hr', h⟩
  · omega
  · omega
  · have := mod_two_of_contains hn hr
    have := mod_two_of_contains hn' hr'
    omega

theorem isValidChar_of_contains (h : r.isValid = true) (hn : r.contains n = true) :
    n.isValidChar := by
  obtain ⟨hfirst, hlast, -⟩ := contains_iff.mp hn
  simp only [isValid, Bool.or_eq_true, Bool.and_eq_true, Nat.blt_eq, Nat.ble_eq] at h
  unfold Nat.isValidChar
  omega

theorem shift_of_isUnmoved {shifts : List Shift} (h : r.isUnmoved shifts = true)
    (hn : r.contains n = true) : shift shifts n = n := by
  induction shifts with
  | nil => rfl
  | cons s rest ih =>
    rw [shift]
    by_cases hbelow : n < s.run.first
    · rw [if_pos hbelow]
    · rw [isUnmoved, Bool.or_eq_true, Bool.and_eq_true, Nat.blt_eq] at h
      obtain ⟨-, hlast, -⟩ := contains_iff.mp hn
      obtain ⟨hapart, hrest⟩ := h.resolve_left (by omega)
      rw [if_neg hbelow, not_contains_of_isApart hapart hn, if_neg (by decide)]
      exact ih hrest

/-- The case mapping leaves the code points of the run alone. -/
def rests (expansions : List (Nat × List Nat)) (shifts : List Shift) (r : Run) : Bool :=
  r.isValid && (r.isUnmoved shifts && expansions.all fun e => r.isApart (one e.1))

theorem mapCase_of_rests {expansions : List (Nat × List Nat)} {shifts : List Shift}
    (h : r.rests expansions shifts = true) (hn : r.contains n = true) :
    mapCase expansions shifts (Char.ofNat n) = [Char.ofNat n] := by
  simp only [rests, Bool.and_eq_true, List.all_eq_true] at h
  obtain ⟨hvalid, hunmoved, hapart⟩ := h
  have hlookup : expansions.lookup n = none := by
    rw [List.lookup_eq_none_iff]
    intro e he
    have hmiss := not_contains_of_isApart (hapart e he) hn
    by_contra hkey
    obtain rfl : n = e.1 := by simpa using hkey
    rw [contains_one] at hmiss
    cases hmiss
  rw [mapCase, toNat_ofNat (isValidChar_of_contains hvalid hn), hlookup,
    shift_of_isUnmoved hunmoved hn]

end Run

/-- The code points to which the shift leads. -/
def Shift.landing (s : Shift) : Run :=
  ⟨(s.run.first + s.distance).toNat, (s.run.last + s.distance).toNat, s.run.step⟩

theorem Shift.contains_landing {s : Shift} {n : Nat} (hs : 0 ≤ s.run.first + s.distance)
    (hn : s.run.contains n = true) : s.landing.contains (n + s.distance).toNat = true := by
  obtain ⟨hfirst, hlast, hstep⟩ := Run.contains_iff.mp hn
  have hsame : (n + s.distance).toNat - (s.run.first + s.distance).toNat = n - s.run.first := by
    omega
  rw [Run.contains_iff]
  dsimp only [landing]
  exact ⟨by omega, by omega, hsame ▸ hstep⟩

/-- The mapping leaves alone all code points to which its shifts and its expansions lead. -/
def settles (expansions : List (Nat × List Nat)) (shifts : List Shift) : Bool :=
  (shifts.all fun s =>
    decide (0 ≤ s.run.first + s.distance) && s.landing.rests expansions shifts) &&
  expansions.all fun e => e.2.all fun n => (Run.one n).rests expansions shifts

theorem settles_lower : settles lowerExpansions lowerShifts = true := by decide +kernel

theorem settles_upper : settles upperExpansions upperShifts = true := by decide +kernel

theorem mapCase_of_mem_mapCase {expansions : List (Nat × List Nat)} {shifts : List Shift}
    (h : settles expansions shifts = true) {c d : Char} (hd : d ∈ mapCase expansions shifts c) :
    mapCase expansions shifts d = [d] := by
  simp only [settles, Bool.and_eq_true, List.all_eq_true, decide_eq_true_eq] at h
  obtain ⟨hshifts, hexpansions⟩ := h
  have hc := hd
  rw [mapCase] at hd
  split at hd
  next ns hns =>
    obtain ⟨n, hn, rfl⟩ := List.mem_map.mp hd
    exact Run.mapCase_of_rests (hexpansions _ (mem_of_lookup hns) n hn) Run.contains_one
  next hnone =>
    obtain rfl := List.mem_singleton.mp hd
    rcases shift_cases shifts c.toNat with hshift | ⟨s, hs, hn, hshift⟩
    · rw [hshift, Char.ofNat_toNat, mapCase, hnone, hshift, Char.ofNat_toNat]
    · obtain ⟨hle, hrests⟩ := hshifts s hs
      rw [hshift]
      exact Run.mapCase_of_rests hrests (Shift.contains_landing hle hn)

/-- The lower case of a character is in lower case. -/
theorem lowerChar_of_mem_lowerChar {c d : Char} (h : d ∈ lowerChar c) : lowerChar d = [d] :=
  mapCase_of_mem_mapCase settles_lower h

/-- The upper case of a character is in upper case. -/
theorem upperChar_of_mem_upperChar {c d : Char} (h : d ∈ upperChar c) : upperChar d = [d] :=
  mapCase_of_mem_mapCase settles_upper h

end InterfaceGen.Text
