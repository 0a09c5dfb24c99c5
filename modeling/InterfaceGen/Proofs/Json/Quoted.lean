import InterfaceGen.Json.Quoted
import Mathlib.Tactic

/-! Strings in JSON read back. Each character is written in one of three ways, as a short escape, by
the digits of its code or as it is, and a reader that meets what is written for it is behind it with
the character read. -/

namespace InterfaceGen.Json

variable {pairs : Bool} {c : Char}

theorem unquote_of_emit {cursor : Cursor} {t : Text} {d : Char}
    (h : move pairs cursor c t = .emit d) : unquote pairs cursor (c :: t) =
      (unquote pairs .plain t).map fun (s, rest) => (d :: s, rest) := by
  rw [unquote, h]

theorem unquote_of_go {cursor cursor' : Cursor} {t : Text}
    (h : move pairs cursor c t = .go cursor') :
    unquote pairs cursor (c :: t) = unquote pairs cursor' t := by
  rw [unquote, h]

theorem lookup_shortEscapes : ∀ e ∈ shortEscapes, shortEscapes.lookup e.1 = some e.2 := by
  decide

theorem ne_of_mem_shortEscapes : ∀ e ∈ shortEscapes, e.1 ≠ 'u' ∧ e.1 ≠ '/' := by
  decide

theorem unquote_shortEscape {short : Char} (h : (short, c) ∈ shortEscapes) (t : Text) :
    unquote pairs .plain (backslash :: short :: t) =
      (unquote pairs .plain t).map fun (s, rest) => (c :: s, rest) := by
  have hbackslash : move pairs .plain backslash (short :: t) = .go .escaped := rfl
  have hshort : move pairs .escaped short t = .emit c := by
    obtain ⟨hu, hslash⟩ := ne_of_mem_shortEscapes _ h
    simp only [move, if_neg hu, if_neg hslash, lookup_shortEscapes _ h]
  rw [unquote_of_go hbackslash, unquote_of_emit hshort]

theorem hexValue?_hexDigits : ∀ n < 16, hexValue? (hexDigits.getD n '0') = some n := by
  decide

theorem length_le_utf8Size (t : Text) : t.length ≤ t.utf8Size := by
  induction t with
  | nil => exact Nat.le_refl 0
  | cons c t ih =>
    have hc := c.utf8Size_pos
    rw [List.length_cons, Text.utf8Size]
    omega

/-- The digits of an escape are read where four characters are left. -/
theorem move_mark {rest : Text} (h : 4 ≤ rest.length) :
    move pairs .escaped 'u' rest = .go (.digits none 0 0) := by
  have hsize := length_le_utf8Size (rest.take 4)
  rw [List.length_take, min_eq_left h] at hsize
  exact if_neg (Nat.not_lt.mpr hsize)

theorem move_digit {leading? : Option Nat} {read value n : Nat} {rest : Text} (hn : n < 16)
    (hread : read ≠ 3) : move pairs (.digits leading? read value) (hexDigits.getD n '0') rest =
      .go (.digits leading? (read + 1) (value * 16 + n)) := by
  simp only [move, hexValue?_hexDigits n hn, if_neg hread]

theorem move_lastDigit {leading? : Option Nat} {value n : Nat} {rest : Text} (hn : n < 16) :
    move pairs (.digits leading? 3 value) (hexDigits.getD n '0') rest =
      endDigits pairs leading? (value * 16 + n) := by
  simp only [move, hexValue?_hexDigits n hn, if_true]

theorem endDigits_of_lt {n : Nat} (hn : n < 0xd800) :
    endDigits pairs none n = .emit (Char.ofNat n) := by
  have hleading : isLeadingSurrogate n = false := by
    simpa [isLeadingSurrogate] using fun h => absurd hn (Nat.not_lt.mpr h)
  have htrailing : isTrailingSurrogate n = false := by
    simp only [isTrailingSurrogate, Bool.and_eq_false_iff, decide_eq_false_iff_not]
    omega
  simp [endDigits, hleading, htrailing]

/-- An escape by four digits of which the first two are zero, as control characters are written. -/
theorem unquote_code {n : Nat} (hn : n < 256) (t : Text) :
    unquote pairs .plain (backslash :: 'u' :: '0' :: '0' :: hexDigits.getD (n / 16) '0' ::
      hexDigits.getD (n % 16) '0' :: t) =
      (unquote pairs .plain t).map fun (s, rest) => (Char.ofNat n :: s, rest) := by
  have hzero : ∀ read ≠ 3, ∀ rest : Text,
      move pairs (.digits none read 0) '0' rest = .go (.digits none (read + 1) 0) :=
    fun read hread rest => move_digit (n := 0) (by omega) hread
  have hthird : ∀ rest : Text, move pairs (.digits none 2 0) (hexDigits.getD (n / 16) '0') rest =
      .go (.digits none 3 (n / 16)) := by
    intro rest
    rw [move_digit (by omega) (by omega), Nat.zero_mul, Nat.zero_add]
  have hlast : ∀ rest : Text,
      move pairs (.digits none 3 (n / 16)) (hexDigits.getD (n % 16) '0') rest =
        .emit (Char.ofNat n) := by
    intro rest
    rw [move_lastDigit (by omega), Nat.div_add_mod' n 16, endDigits_of_lt (by omega)]
  rw [unquote_of_go rfl, unquote_of_go (move_mark (by simp)), unquote_of_go (hzero 0 (by omega) _),
    unquote_of_go (hzero 1 (by omega) _), unquote_of_go (hthird _), unquote_of_emit (hlast _)]

/-- What is written for a character is read as that character. -/
theorem unquote_escape (c : Char) (t : Text) : unquote pairs .plain (escape c ++ t) =
    (unquote pairs .plain t).map fun (s, rest) => (c :: s, rest) := by
  unfold escape
  cases hfind : shortEscapes.find? (·.2 == c) with
  | some e =>
    obtain ⟨short, d⟩ := e
    obtain rfl : d = c := by simpa using List.find?_some hfind
    exact unquote_shortEscape (List.mem_of_find?_eq_some hfind) t
  | none =>
    dsimp only
    split_ifs with hcontrol
    · have hread := @unquote_code pairs c.toNat (by omega) t
      rwa [Char.ofNat_toNat] at hread
    · have hall := List.find?_eq_none.mp hfind
      have hquote : c ≠ quote := by
        rintro rfl
        exact hall (quote, quote) (by decide) (by decide)
      have hbackslash : c ≠ backslash := by
        rintro rfl
        exact hall (backslash, backslash) (by decide) (by decide)
      refine unquote_of_emit ?_
      simp only [move, if_neg hquote, if_neg hbackslash, if_neg hcontrol]

/-- A written string is read up to its closing quote, whatever stands behind it. -/
theorem unquote_flatMap_escape (t rest : Text) :
    unquote pairs .plain (t.flatMap escape ++ quote :: rest) = .ok (t, rest) := by
  induction t with
  | nil => rfl
  | cons c t ih =>
    rw [List.flatMap_cons, List.append_assoc, unquote_escape, ih]
    rfl

end InterfaceGen.Json
