import InterfaceGen.Text.Blank
import InterfaceGen.Text.Letter
import Mathlib.Data.List.TakeWhile
import Mathlib.Tactic

/-! Texts in pieces. Tokens and words are both what is left of a text between separators, the blanks
or whatever is no letter, and all that is known of them follows from one equation: at a separator
the pieces of a text come apart. Every blank separates words, so the words of a text are those of
its tokens. -/

namespace InterfaceGen.Text

section Decidable

/-! What is said of the characters of a text is decided by going through the text. It could also be
decided by going through all characters there are. -/

variable {p : Char → Prop} [DecidablePred p]

instance decidableForallMem (t : Text) : Decidable (∀ c ∈ t, p c) := List.decidableBAll p t

instance decidableForallMem? (c? : Option Char) : Decidable (∀ c ∈ c?, p c) :=
  c?.decidableForallMem

instance decidableExistsMem? (c? : Option Char) : Decidable (∃ c ∈ c?, p c) :=
  c?.decidableExistsMem

end Decidable

/-- The maximal pieces of a text in which nothing satisfies `p`. -/
def pieces (p : Char → Bool) (t : Text) : List Text := (t.splitOnP p).filter (!·.isEmpty)

theorem tokens_eq_pieces : tokens = pieces isBlank := rfl

theorem words_eq_pieces : words = pieces (!isWordChar ·) := rfl

section Pieces

variable {p q : Char → Bool} {c : Char} {s t w : Text}

@[simp] theorem pieces_nil : pieces p [] = [] := by
  simp [pieces, List.splitOnP_nil]

theorem pieces_append_cons (hc : p c = true) (s t : Text) :
    pieces p (s ++ c :: t) = pieces p s ++ pieces p t := by
  rw [pieces, List.splitOnP_append_cons s t hc, List.filter_append]
  rfl

theorem pieces_cons (hc : p c = true) (t : Text) : pieces p (c :: t) = pieces p t := by
  simpa using pieces_append_cons hc [] t

/-- Separators in front of a text do not count. -/
theorem pieces_append_of_forall (hs : ∀ c ∈ s, p c = true) (t : Text) :
    pieces p (s ++ t) = pieces p t := by
  induction s with
  | nil => rfl
  | cons c s ih =>
    rw [List.cons_append, pieces_cons (hs c List.mem_cons_self)]
    exact ih fun d hd => hs d (List.mem_cons_of_mem c hd)

/-- A text without separators is one piece, unless it is empty. -/
theorem pieces_of_forall_not (hw : ∀ c ∈ w, p c = false) :
    pieces p w = if w = [] then [] else [w] := by
  rw [pieces, List.splitOnP_eq_singleton hw]
  split_ifs with h <;> simp [h]

/-- Two texts come apart where one ends or the other begins with a separator. -/
theorem pieces_append (h : (∀ c ∈ s.getLast?, p c = true) ∨ ∀ c ∈ t.head?, p c = true) :
    pieces p (s ++ t) = pieces p s ++ pieces p t := by
  rcases h with h | h
  · rcases List.eq_nil_or_concat' s with rfl | ⟨s, c, rfl⟩
    · simp
    · have hc : p c = true := h c (by simp)
      rw [List.append_assoc, List.singleton_append, pieces_append_cons hc, pieces_append_cons hc,
        pieces_nil, List.append_nil]
  · cases t with
    | nil => simp
    | cons c t =>
      have hc : p c = true := h c rfl
      rw [pieces_append_cons hc, pieces_cons hc]

/-- Nor do separators behind it. -/
theorem pieces_append_of_forall_right (ht : ∀ c ∈ t, p c = true) (s : Text) :
    pieces p (s ++ t) = pieces p s := by
  have hnone : pieces p t = [] := by simpa using pieces_append_of_forall ht []
  rw [pieces_append (Or.inr fun c hc => ht c (List.mem_of_head? hc)), hnone, List.append_nil]

/-- A text has no separators, or it has a first one. -/
theorem separatorFree_or_exists (p : Char → Bool) (t : Text) : (∀ c ∈ t, p c = false) ∨
    ∃ w c rest, t = w ++ c :: rest ∧ (∀ d ∈ w, p d = false) ∧ p c = true := by
  induction t with
  | nil => simp
  | cons d t ih =>
    by_cases hd : p d = true
    · exact Or.inr ⟨[], d, t, rfl, by simp, hd⟩
    · rw [Bool.not_eq_true] at hd
      rcases ih with ht | ⟨w, c, rest, rfl, hw, hc⟩
      · exact Or.inl (List.forall_mem_cons.mpr ⟨hd, ht⟩)
      · exact Or.inr ⟨d :: w, c, rest, rfl, List.forall_mem_cons.mpr ⟨hd, hw⟩, hc⟩

/-- So texts are made from such without separators by putting one in front of a shorter text. -/
theorem pieces_induction (p : Char → Bool) {motive : Text → Prop}
    (run : ∀ w, (∀ c ∈ w, p c = false) → motive w)
    (cut : ∀ w c t, (∀ d ∈ w, p d = false) → p c = true → motive t → motive (w ++ c :: t))
    (t : Text) : motive t := by
  rcases separatorFree_or_exists p t with ht | ⟨w, c, rest, ht, hw, hc⟩
  · exact run t ht
  · rw [ht]
    exact cut w c rest hw hc (pieces_induction p run cut rest)
termination_by t.length
decreasing_by
  simp only [ht, List.length_append, List.length_cons]
  omega

theorem mem_pieces (h : w ∈ pieces p t) : w ≠ [] ∧ ∀ c ∈ w, p c = false ∧ c ∈ t := by
  induction t using pieces_induction p with
  | run s hs =>
    rw [pieces_of_forall_not hs] at h
    split_ifs at h with hne
    · cases h
    · rw [List.mem_singleton.mp h]
      exact ⟨hne, fun c hc => ⟨hs c hc, hc⟩⟩
  | cut s c t hs hc ih =>
    rw [pieces_append_cons hc, pieces_of_forall_not hs, List.mem_append] at h
    rcases h with h | h
    · split_ifs at h with hne
      · cases h
      · rw [List.mem_singleton.mp h]
        exact ⟨hne, fun d hd => ⟨hs d hd, List.mem_append_left _ hd⟩⟩
    · obtain ⟨hne, hw⟩ := ih h
      exact ⟨hne, fun d hd => ⟨(hw d hd).1, by simp [(hw d hd).2]⟩⟩

/-- The pieces of a text are what stands in it between separators and its ends. -/
theorem mem_pieces_iff (hne : w ≠ []) (hw : ∀ c ∈ w, p c = false) : w ∈ pieces p t ↔
    ∃ u v, t = u ++ (w ++ v) ∧ (∀ c ∈ u.getLast?, p c = true) ∧ ∀ c ∈ v.head?, p c = true := by
  constructor
  · intro h
    induction t using pieces_induction p with
    | run s hs =>
      rw [pieces_of_forall_not hs] at h
      split_ifs at h
      · cases h
      · obtain rfl := List.mem_singleton.mp h
        exact ⟨[], [], by simp, by simp, by simp⟩
    | cut s c t hs hc ih =>
      rw [pieces_append_cons hc, pieces_of_forall_not hs, List.mem_append] at h
      rcases h with h | h
      · split_ifs at h
        · cases h
        · obtain rfl := List.mem_singleton.mp h
          exact ⟨[], c :: t, rfl, by simp, by simpa using hc⟩
      · obtain ⟨u, v, rfl, hu, hv⟩ := ih h
        refine ⟨s ++ c :: u, v, by simp, ?_, hv⟩
        -- in front of the rest stands the separator at which it was cut off
        rcases List.eq_nil_or_concat' u with rfl | ⟨u, d, rfl⟩
        · simpa using hc
        · have hlast : s ++ c :: (u ++ [d]) = s ++ c :: u ++ [d] := by simp
          rw [List.getLast?_concat] at hu
          rwa [hlast, List.getLast?_concat]
  · rintro ⟨u, v, rfl, hu, hv⟩
    rw [pieces_append (Or.inl hu), pieces_append (Or.inr hv), pieces_of_forall_not hw, if_neg hne]
    simp

theorem isInfix_of_mem_pieces (h : w ∈ pieces p t) : w <:+: t := by
  obtain ⟨hne, hw⟩ := mem_pieces h
  obtain ⟨u, v, rfl, -, -⟩ := (mem_pieces_iff hne fun c hc => (hw c hc).1).mp h
  exact (List.prefix_append w v).isInfix.trans (List.suffix_append u _).isInfix

/-- What separates nothing lies in one of the pieces. -/
theorem exists_mem_pieces (hc : p c = false) : c ∈ t ↔ ∃ w ∈ pieces p t, c ∈ w := by
  refine ⟨fun h => ?_, fun ⟨w, hw, h⟩ => ((mem_pieces hw).2 c h).2⟩
  induction t using pieces_induction p with
  | run w hw =>
    rw [pieces_of_forall_not hw, if_neg (List.ne_nil_of_mem h)]
    exact ⟨w, List.mem_singleton_self w, h⟩
  | cut w d t hw hd ih =>
    rw [pieces_append_cons hd, pieces_of_forall_not hw]
    rcases List.mem_append.mp h with h | h
    · rw [if_neg (List.ne_nil_of_mem h)]
      exact ⟨w, List.mem_append_left _ (List.mem_singleton_self w), h⟩
    · rcases List.mem_cons.mp h with rfl | h
      · rw [hc] at hd
        cases hd
      · obtain ⟨v, hv, hcv⟩ := ih h
        exact ⟨v, List.mem_append_right _ hv, hcv⟩

/-- Splitting at less first and then at the rest of the separators changes nothing. -/
theorem pieces_eq_flatMap (hpq : ∀ c, p c = true → q c = true) (t : Text) :
    pieces q t = (pieces p t).flatMap (pieces q) := by
  induction t using pieces_induction p with
  | run w hw =>
    rw [pieces_of_forall_not hw]
    split_ifs with h
    · rw [h, pieces_nil, List.flatMap_nil]
    · rw [List.flatMap_singleton]
  | cut w c t hw hc ih =>
    rw [pieces_append_cons (hpq c hc), pieces_append_cons hc, ih, List.flatMap_append,
      pieces_of_forall_not hw]
    split_ifs with h
    · rw [h, pieces_nil, List.flatMap_nil]
    · rw [List.flatMap_singleton]

/-- The first piece of a text reaches up to the first separator. -/
theorem pieces_append_of_forall_not (hne : w ≠ []) (hw : ∀ c ∈ w, p c = false) (t : Text) :
    pieces p (w ++ t) = (w ++ t.takeWhile (!p ·)) :: pieces p (t.dropWhile (!p ·)) := by
  have hlong : ∀ {v : Text}, (∀ c ∈ v, p c = false) → pieces p (w ++ v) = [w ++ v] := by
    intro v hv
    have hwv : ∀ c ∈ w ++ v, p c = false := List.forall_mem_append.mpr ⟨hw, hv⟩
    rw [pieces_of_forall_not hwv, if_neg (by simp [hne])]
  have hkeep : ∀ {v : Text}, (∀ c ∈ v, p c = false) → ∀ c ∈ v, (!p c) = true := by
    simp
  rcases separatorFree_or_exists p t with ht | ⟨v, c, rest, rfl, hv, hc⟩
  · rw [List.takeWhile_eq_self_iff.mpr (hkeep ht), List.dropWhile_eq_nil_iff.mpr (hkeep ht),
      hlong ht, pieces_nil]
  · rw [List.takeWhile_append_of_pos (hkeep hv), List.dropWhile_append_of_pos (hkeep hv),
      List.takeWhile_cons_of_neg (by simp [hc]), List.dropWhile_cons_of_neg (by simp [hc]),
      List.append_nil, ← List.append_assoc, pieces_append_cons hc, hlong hv, pieces_cons hc,
      List.singleton_append]

end Pieces

/-- Every code point that the property White_Space covers. -/
def blanks : List Nat := blankRuns.flatMap fun r => List.range' r.first (r.last + 1 - r.first)

theorem isWordChar_of_mem_blanks : ∀ n ∈ blanks, isWordChar (Char.ofNat n) = false := by
  decide +kernel

theorem mem_of_covers {runs : List Run} {n : Nat} (h : covers runs n = true) :
    ∃ r ∈ runs, r.contains n = true := by
  induction runs with
  | nil => cases h
  | cons r runs ih =>
    rw [covers] at h
    split_ifs at h
    rcases Bool.or_eq_true_iff.mp h with h | h
    · exact ⟨r, List.mem_cons_self, h⟩
    · obtain ⟨r', hr', hn⟩ := ih h
      exact ⟨r', List.mem_cons_of_mem r hr', hn⟩

theorem mem_blanks {c : Char} (h : isBlank c = true) : c.toNat ∈ blanks := by
  obtain ⟨r, hr, hn⟩ := mem_of_covers h
  simp only [Run.contains, Bool.and_eq_true, decide_eq_true_eq] at hn
  refine List.mem_flatMap.mpr ⟨r, hr, List.mem_range'_1.mpr ⟨hn.1.1, ?_⟩⟩
  omega

/-- No blank is part of a word. -/
theorem isWordChar_of_isBlank {c : Char} (h : isBlank c = true) : isWordChar c = false := by
  rw [← Char.ofNat_toNat c]
  exact isWordChar_of_mem_blanks _ (mem_blanks h)

/-- The words of a text are those of its tokens. -/
theorem words_eq_flatMap_tokens (t : Text) : words t = (tokens t).flatMap words := by
  rw [words_eq_pieces, tokens_eq_pieces]
  exact pieces_eq_flatMap (fun c hc => by simp [isWordChar_of_isBlank hc]) t

end InterfaceGen.Text
