import InterfaceGen.Declaration.Parent
import InterfaceGen.Proofs.Declaration.Name

/-! The parent in a line. The first token after the first colon begins with it, and it ends where
the token does or at a mark. Only five marks count, so a semicolon right behind the parent is taken
for a part of it. No parent is found where the colon is missing or belongs to a constraint, or where
no name stands behind it. -/

namespace InterfaceGen.Parent

open Text

/-- The parts of a line up to the end of a parent: the first colon is not that of a constraint, and
behind it there are blanks at most in front of the parent. -/
structure IsHeader (head gap parent : Text) : Prop where
  head_noColon : ':' ∉ head
  head_noConstraint : constraintWord ∉ tokens head
  gap_blank : ∀ c ∈ gap, isBlank c = true
  parent_ne_nil : parent ≠ []
  parent_dotted : ∀ c ∈ parent, isWordChar c = true ∨ c = '.'

/-- What is taken for a part of the parent although it stands behind it. -/
def overhang (tail : Text) : Text := (tail.takeWhile (!isBlank ·)).takeWhile (!endsName ·)

/-- The marks that may stand behind a parent. -/
def mayFollow (c : Char) : Bool :=
  c == '<' || c == ',' || c == '\x7b' || c == '(' || c == ';'

section Overhang

variable {tail : Text}

theorem overhang_eq_nil_iff : overhang tail = [] ↔ Stops endsName tail := by
  cases tail with
  | nil => simp [overhang, Stops]
  | cons c tail =>
    simp only [overhang, Stops, List.takeWhile_cons, List.head?_cons, Option.mem_some_iff,
      forall_eq']
    cases isBlank c <;> cases h : endsName c <;> simp [h]

/-- Of the marks that may follow, the semicolon alone ends no name. -/
theorem stops_iff_of_mayFollow (h : Stops mayFollow tail) :
    Stops endsName tail ↔ tail.head? ≠ some ';' := by
  cases tail with
  | nil => simp [Stops]
  | cons c tail =>
    have hc := h c rfl
    simp only [Stops, List.head?_cons, Option.mem_some_iff, forall_eq', ne_eq, Option.some.injEq]
    refine ⟨?_, fun hne => hc.imp_right fun hmark => ?_⟩
    · rintro hstops rfl
      revert hstops
      decide
    · simp only [mayFollow, Bool.or_eq_true, beq_iff_eq, hne, or_false] at hmark
      rcases hmark with ((rfl | rfl) | rfl) | rfl <;> decide

end Overhang

namespace IsHeader

variable {head gap parent : Text} (h : IsHeader head gap parent)

include h

theorem isBlank_parent : ∀ c ∈ parent, isBlank c = false :=
  isBlank_of_wordChars h.parent_dotted (by decide)

theorem endsName_parent : ∀ c ∈ parent, endsName c = false := by
  refine forall_of_wordChars h.parent_dotted fun c hc => ?_
  simp only [endsName, Bool.or_eq_true, beq_iff_eq] at hc
  rcases hc with (((rfl | rfl) | rfl) | rfl) | rfl <;> decide +kernel

/-- The parent is found together with its overhang. -/
theorem ofLine?_eq (tail : Text) :
    ofLine? (head ++ ':' :: (gap ++ (parent ++ tail))) = some (parent ++ overhang tail) := by
  have htokens : tokens (gap ++ (parent ++ tail)) = _ :=
    (pieces_append_of_forall h.gap_blank _).trans
      (tokens_name h.parent_ne_nil h.isBlank_parent tail)
  have hname : (parent ++ tail.takeWhile (!isBlank ·)).takeWhile (!endsName ·) =
      parent ++ overhang tail :=
    List.takeWhile_append_of_pos (by simpa using h.endsName_parent)
  rw [ofLine?, splitAt?_append_cons h.head_noColon]
  simp only [Option.bind_eq_bind, Option.bind_some]
  rw [if_neg (by simpa using h.head_noConstraint), htokens, List.head?_cons, Option.bind_some,
    hname, if_neg (by simp [h.parent_ne_nil])]

/-- It is found as it stands exactly if what follows stops it. -/
theorem ofLine?_eq_some_iff (tail : Text) :
    ofLine? (head ++ ':' :: (gap ++ (parent ++ tail))) = some parent ↔ Stops endsName tail := by
  rw [h.ofLine?_eq, Option.some_inj, List.append_right_eq_self, overhang_eq_nil_iff]

end IsHeader

section None

variable {head tail : Text}

/-- After the first colon a parent is missing if the colon is that of a constraint, or if nothing
but blanks or at once a mark follows. -/
theorem ofLine?_append_cons_eq_none_iff (hhead : ':' ∉ head) (tail : Text) :
    ofLine? (head ++ ':' :: tail) = none ↔ constraintWord ∈ tokens head ∨
      ∀ c ∈ (trimStart isBlank tail).head?, endsName c = true := by
  obtain ⟨s, hs, htail, hfirst⟩ := Line.exists_trimStart tail
  have htokens : tokens tail = tokens (trimStart isBlank tail) := by
    conv_lhs => rw [htail]
    exact pieces_append_of_forall hs _
  rw [ofLine?, splitAt?_append_cons hhead]
  simp only [Option.bind_eq_bind, Option.bind_some]
  by_cases hconstraint : constraintWord ∈ tokens head
  · simp [hconstraint]
  rw [if_neg (by simpa using hconstraint), htokens]
  cases ht : trimStart isBlank tail with
  | nil => simp [tokens_eq_pieces]
  | cons c t =>
    have hc : ∀ d ∈ [c], isBlank d = false := by simpa using hfirst c t ht
    have htoken : tokens (c :: t) = _ := tokens_name (List.cons_ne_nil c []) hc t
    rw [htoken, List.head?_cons, Option.bind_some, List.singleton_append, List.takeWhile_cons]
    cases hends : endsName c <;> simp [hends, hconstraint]

/-- No parent is found in a line exactly if there is no colon or none is found after the first. -/
theorem ofLine?_eq_none_iff (line : Text) : ofLine? line = none ↔ ':' ∉ line ∨
    ∃ head tail, line = head ++ ':' :: tail ∧ ':' ∉ head ∧ (constraintWord ∈ tokens head ∨
      ∀ c ∈ (trimStart isBlank tail).head?, endsName c = true) := by
  constructor
  · intro h
    by_cases hcolon : ':' ∈ line
    · obtain ⟨head, tail, rfl, hhead⟩ := List.eq_append_cons_of_mem hcolon
      exact Or.inr ⟨head, tail, rfl, hhead, (ofLine?_append_cons_eq_none_iff hhead tail).mp h⟩
    · exact Or.inl hcolon
  · rintro (hcolon | ⟨head, tail, rfl, hhead, h⟩)
    · rw [ofLine?, splitAt?_of_notMem hcolon]
      rfl
    · exact (ofLine?_append_cons_eq_none_iff hhead tail).mpr h

end None

/-- In a line with a parent after the first colon the parent is found, together with what follows up
to a blank or a mark that ends it. So among all that may follow a parent, only a semicolon right
behind it keeps it from being recognised. None is found exactly where there is no colon, where the
first one is that of a constraint, and where only blanks or at once a mark follow it. -/
theorem recognised_unless_semicolon (line : Text) :
    (∀ head gap parent tail : Text, IsHeader head gap parent →
      line = head ++ ':' :: (gap ++ (parent ++ tail)) →
      ofLine? line = some (parent ++ overhang tail) ∧
      (ofLine? line = some parent ↔ Stops endsName tail) ∧
      (Stops mayFollow tail → (ofLine? line = some parent ↔ tail.head? ≠ some ';'))) ∧
    (ofLine? line = none ↔ ':' ∉ line ∨
      ∃ head tail, line = head ++ ':' :: tail ∧ ':' ∉ head ∧ (constraintWord ∈ tokens head ∨
        ∀ c ∈ (trimStart isBlank tail).head?, endsName c = true)) := by
  refine ⟨?_, ofLine?_eq_none_iff line⟩
  rintro head gap parent tail h rfl
  exact ⟨h.ofLine?_eq tail, h.ofLine?_eq_some_iff tail,
    fun hfollow => (h.ofLine?_eq_some_iff tail).trans (stops_iff_of_mayFollow hfollow)⟩

/-- The parent of a record with a body is found. -/
theorem admin_recognised :
    IsHeader "public record Admin(int Id) ".toList [' '] "App.User".toList ∧
    ofLine? "public record Admin(int Id) : App.User(Id) \x7b".toList = some "App.User".toList ∧
    ofLine? "public class Box<T> where T : Item".toList = none := by
  have hheader : IsHeader "public record Admin(int Id) ".toList [' '] "App.User".toList :=
    ⟨by decide, by decide +kernel, by decide, by decide, by decide +kernel⟩
  obtain ⟨hfound, -⟩ :=
    recognised_unless_semicolon "public record Admin(int Id) : App.User(Id) \x7b".toList
  obtain ⟨-, hiff, -⟩ := hfound _ _ _ "(Id) \x7b".toList hheader rfl
  obtain ⟨-, hnone⟩ := recognised_unless_semicolon "public class Box<T> where T : Item".toList
  exact ⟨hheader, hiff.mpr (by decide), hnone.mpr (Or.inr
    ⟨"public class Box<T> where T ".toList, " Item".toList, rfl, by decide,
      Or.inl (by decide +kernel)⟩)⟩

/-- A record without a body has a parent with a semicolon in its name. -/
theorem bodiless_parent :
    IsHeader "public record Admin ".toList [' '] "User".toList ∧ Stops mayFollow [';'] ∧
    ofLine? "public record Admin : User;".toList = some "User;".toList :=
  ⟨⟨by decide, by decide +kernel, by decide, by decide, by decide +kernel⟩, by decide,
    by decide +kernel⟩

end InterfaceGen.Parent
