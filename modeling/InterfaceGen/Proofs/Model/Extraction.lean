import InterfaceGen.Proofs.Model.Composition
import InterfaceGen.Proofs.Text.Pieces

/-! What is extracted from lines. Each member comes from one line, and its name from one token of
that line, so there are no blanks in it. -/

namespace InterfaceGen

open Text

namespace Member

variable {line : Text} {m : Member}

/-- The name begins the second token that is no modifier and goes up to the first mark. -/
theorem name_of_ofLine (h : ofLine line = .ok m) : m.name ≠ [] ∧
    (∀ c ∈ m.name, endsName c = false) ∧ ∃ declared tail rest,
      (tokens (Line.code line)).filter (!modifiers.contains ·) =
        declared :: (m.name ++ tail) :: rest ∧ ∀ c ∈ tail.head?, endsName c = true := by
  unfold ofLine at h
  split at h
  next declared second rest htokens =>
    unfold ofTokens at h
    dsimp only at h
    split_ifs at h with _ hne
    obtain rfl := Except.ok.inj h
    refine ⟨by simpa using hne, fun c hc => ?_, declared, second.dropWhile (!endsName ·), rest, ?_,
      fun c hc => ?_⟩
    · simpa using List.mem_takeWhile_imp hc
    · rw [List.takeWhile_append_dropWhile, htokens]
    · have hends := List.head?_dropWhile_not (!endsName ·) second
      rw [Option.mem_def.mp hc] at hends
      simpa using hends
  next => cases h

theorem exists_token_of_ofLine (h : ofLine line = .ok m) : ∃ tail,
    m.name ++ tail ∈ tokens (Line.code line) ∧ ∀ c ∈ tail.head?, endsName c = true := by
  obtain ⟨-, -, declared, tail, rest, htokens, htail⟩ := name_of_ofLine h
  refine ⟨tail, List.mem_of_mem_filter (p := (!modifiers.contains ·)) ?_, htail⟩
  rw [htokens]
  simp

theorem notMem_name (h : ofLine line = .ok m) {c : Char} (hc : isBlank c = true) : c ∉ m.name := by
  obtain ⟨tail, htoken, -⟩ := exists_token_of_ofLine h
  intro hmem
  have hblank := ((mem_pieces htoken).2 c (List.mem_append_left tail hmem)).1
  rw [hc] at hblank
  cases hblank

end Member

/-- No blank gets into the name of a member. -/
theorem Source.notMem_member_name {s : Source} {m : Member} (h : m ∈ s.model.members) {c : Char}
    (hc : isBlank c = true) : c ∉ m.name := by
  obtain ⟨line, -, -, hline⟩ := Extract.mem_members_ofLines.mp h
  exact Member.notMem_name hline hc

end InterfaceGen
