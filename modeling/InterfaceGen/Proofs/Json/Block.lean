import InterfaceGen.Proofs.Json.Quoted
import InterfaceGen.Settings.Printer
import InterfaceGen.Settings.Reader

/-! The layout of lists and objects, as a reader meets it: between two items of a block stand a comma
and a margin of white space, behind the last one the margin and the closing bracket. -/

namespace InterfaceGen.Json

variable {margin t rest : Text} {opening closing : Char}

theorem dropSpace_append (h : ∀ c ∈ margin, isSpace c = true) (t : Text) :
    dropSpace (margin ++ t) = dropSpace t :=
  List.dropWhile_append_of_pos h

theorem dropSpace_cons {c : Char} (h : isSpace c = false) : dropSpace (c :: t) = c :: t :=
  List.dropWhile_cons_of_neg (by simp [h])

/-- What stands behind an item of a block when `items` follow it. -/
def behind (closing : Char) (margin : Text) : (items : List Text) → Text
  | [] => '\n' :: (margin ++ [closing])
  | item :: items => ',' :: '\n' :: (margin ++ "  ".toList ++ item ++ behind closing margin items)

theorem intercalate_append (item : Text) (items : List Text) :
    [',', '\n'].intercalate ((item :: items).map (margin ++ "  ".toList ++ ·)) ++
        '\n' :: (margin ++ [closing]) =
      margin ++ "  ".toList ++ item ++ behind closing margin items := by
  induction items generalizing item with
  | nil => simp [behind]
  | cons next items ih =>
    rw [List.map_cons, List.intercalate_cons_of_ne_nil (by simp), behind, ← ih next]
    simp only [List.append_assoc, List.cons_append, List.nil_append]

theorem block_cons (item : Text) (items : List Text) :
    block opening closing margin (item :: items) =
      opening :: '\n' :: (margin ++ "  ".toList ++ item ++ behind closing margin items) := by
  rw [← intercalate_append]
  simp [block]

/-- The margin of an item that starts with a quote is passed over. -/
theorem dropSpace_item (hmargin : ∀ c ∈ margin, isSpace c = true) {item : Text}
    (hitem : item.head? = some quote) (more rest : Text) :
    dropSpace ('\n' :: (margin ++ "  ".toList ++ item ++ more ++ rest)) =
      item ++ (more ++ rest) := by
  obtain ⟨item', rfl⟩ := List.head?_eq_some_iff.mp hitem
  change dropSpace (margin ++ "  ".toList ++ quote :: item' ++ more ++ rest) = _
  simp only [List.append_assoc]
  rw [dropSpace_append hmargin]
  rfl

theorem dropSpace_behind_nil (hmargin : ∀ c ∈ margin, isSpace c = true) :
    dropSpace (behind closing margin [] ++ rest) = dropSpace (closing :: rest) := by
  change dropSpace (margin ++ [closing] ++ rest) = _
  rw [List.append_assoc, dropSpace_append hmargin]
  rfl

theorem length_lt_behind (closing : Char) (margin : Text) (items : List Text) :
    items.length < (behind closing margin items).length := by
  induction items with
  | nil => simp [behind]
  | cons item items ih =>
    simp only [behind, List.length_cons, List.length_append]
    omega

section Strings

theorem head?_quoted (t : Text) : (quoted t).head? = some quote := rfl

theorem quoted_append : quoted t ++ rest = quote :: (t.flatMap escape ++ quote :: rest) := by
  simp [quoted]

theorem dropSpace_quoted_append : dropSpace (quoted t ++ rest) = quoted t ++ rest := by
  rw [quoted_append, dropSpace_cons rfl]

theorem readString_of_dropSpace (h : dropSpace t = quoted s ++ rest) :
    readString t = .ok (s, rest) := by
  rw [readString, h, quoted_append]
  exact unquote_flatMap_escape _ _

theorem readString?_quoted : readString? (quoted t ++ rest) = .ok (some t, rest) := by
  have hread : readString (quoted t ++ rest) = .ok (t, rest) :=
    readString_of_dropSpace dropSpace_quoted_append
  rw [quoted_append] at hread ⊢
  change (readString _).map _ = _
  rw [hread]
  rfl

theorem readBool_boolText (b : Bool) : readBool (boolText b ++ rest) = .ok (b, rest) := by
  cases b <;> rfl

/-- The strings of a list behind the first one are read to its end. -/
theorem readMoreStrings_behind (hmargin : ∀ c ∈ margin, isSpace c = true) (ss : List Text)
    {fuel : Nat} (hfuel : ss.length < fuel) :
    readMoreStrings fuel (behind ']' margin (ss.map quoted) ++ rest) = .ok (ss, rest) := by
  induction ss generalizing fuel with
  | nil =>
    obtain ⟨fuel, rfl⟩ := Nat.exists_eq_add_one_of_ne_zero (Nat.ne_zero_of_lt hfuel)
    have hdrop : dropSpace (behind ']' margin [] ++ rest) = ']' :: rest := by
      rw [dropSpace_behind_nil hmargin, dropSpace_cons rfl]
    simp only [List.map_nil, readMoreStrings, hdrop]
  | cons s ss ih =>
    obtain ⟨fuel, rfl⟩ := Nat.exists_eq_add_one_of_ne_zero (Nat.ne_zero_of_lt hfuel)
    have hs : readString ('\n' :: (margin ++ "  ".toList ++ quoted s ++
        behind ']' margin (ss.map quoted) ++ rest)) =
          .ok (s, behind ']' margin (ss.map quoted) ++ rest) :=
      readString_of_dropSpace (dropSpace_item hmargin (head?_quoted s) _ rest)
    have hss := ih (Nat.lt_of_succ_lt_succ hfuel)
    rw [List.map_cons, behind, List.cons_append, List.cons_append, readMoreStrings,
      dropSpace_cons rfl]
    simp only [hs, bind, Except.bind, hss]
    rfl

theorem readStrings_of_dropSpace (h : dropSpace t = quoted s ++ rest) :
    readStrings ('[' :: t) =
      (readMoreStrings rest.length rest).map fun (ss, t) => (s :: ss, t) := by
  have hread : readString (quoted s ++ rest) = .ok (s, rest) :=
    readString_of_dropSpace dropSpace_quoted_append
  rw [quoted_append, quote] at h hread
  rw [readStrings, dropSpace_cons rfl]
  simp only [h]
  -- the quote is no closing bracket, so there is a first string
  change (readString _ >>= _) = _
  rw [hread]
  change (readMoreStrings rest.length rest >>= _) = _
  cases readMoreStrings rest.length rest <;> rfl

theorem readStrings_block (hmargin : ∀ c ∈ margin, isSpace c = true) (ss : List Text) :
    readStrings (block '[' ']' margin (ss.map quoted) ++ rest) = .ok (ss, rest) := by
  cases ss with
  | nil => rfl
  | cons s ss =>
    have hdrop := dropSpace_item hmargin (head?_quoted s) (behind ']' margin (ss.map quoted)) rest
    have hfuel : ss.length < (behind ']' margin (ss.map quoted) ++ rest).length := by
      have hlength := length_lt_behind ']' margin (ss.map quoted)
      rw [List.length_map] at hlength
      rw [List.length_append]
      omega
    rw [List.map_cons, block_cons, List.cons_append, List.cons_append,
      readStrings_of_dropSpace hdrop, readMoreStrings_behind hmargin ss hfuel]
    rfl

end Strings

end InterfaceGen.Json
