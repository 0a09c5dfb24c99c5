import InterfaceGen.Declaration.ElementType
import InterfaceGen.Proofs.Text.Pieces
import InterfaceGen.Proofs.Text.Trimming

/-! Declared types from the inside out. An element is a name with question marks and array marks
behind it; it can stand alone or in a collection. From what is written the name is found again, and
whether there are many. At the end of a text only question marks and one array mark are looked at,
so the rest of the marks is met when the text is undecorated. -/

namespace InterfaceGen.ElementType

open Text

/-- A mark behind a type name. -/
inductive Suffix
  | optional
  | array
deriving DecidableEq, Repr

def Suffix.text : Suffix → Text
  | .optional => ['?']
  | .array => arrayMark

/-- The characters that decorate type names. -/
def isDecoration (c : Char) : Bool :=
  c == '<' || c == '>' || c == '?' || c == '[' || c == ']'

/-- A type name with the marks behind it. -/
structure Element where
  name : Text
  suffixes : List Suffix := []
  name_ne_nil : name ≠ [] := by decide
  name_plain : ∀ c ∈ name, isBlank c = false ∧ isDecoration c = false := by decide +kernel

namespace Element

def text (e : Element) : Text := e.name ++ e.suffixes.flatMap Suffix.text

/-- The element as the argument of a collection. -/
def inCollection (marker : Text) (e : Element) : Text := marker ++ '<' :: (e.text ++ ['>'])

/-- The element with other marks behind its name. -/
def withSuffixes (e : Element) (suffixes : List Suffix) : Element := { e with suffixes }

end Element

section Undecorated

variable {c : Char} {s t : Text}

theorem withoutArrayMarks_cons (hc : c ≠ '[') (t : Text) :
    withoutArrayMarks (c :: t) = c :: withoutArrayMarks t := by
  rw [withoutArrayMarks]
  rintro t rfl
  exact absurd rfl hc

theorem undecorated_append (hs : ∀ c ∈ s, isDecoration c = false) (t : Text) :
    undecorated (s ++ t) = s ++ undecorated t := by
  induction s with
  | nil => rfl
  | cons c s ih =>
    obtain ⟨hc, hs⟩ := List.forall_mem_cons.mp hs
    simp only [isDecoration, Bool.or_eq_false_iff, beq_eq_false_iff_ne] at hc
    obtain ⟨⟨⟨⟨hopen, hclose⟩, hquestion⟩, harray⟩, -⟩ := hc
    rw [List.cons_append, undecorated, withoutArrayMarks_cons harray,
      List.filter_cons_of_pos (by simp [hopen, hclose, hquestion])]
    exact congrArg (c :: ·) (ih hs)

theorem undecorated_suffixes (suffixes : List Suffix) :
    undecorated (suffixes.flatMap Suffix.text) = [] := by
  induction suffixes with
  | nil => rfl
  | cons suffix suffixes ih =>
    rw [List.flatMap_cons]
    cases suffix with
    | optional =>
      change undecorated ('?' :: suffixes.flatMap Suffix.text) = []
      rw [undecorated, withoutArrayMarks_cons (by decide), List.filter_cons_of_neg (by decide)]
      exact ih
    | array => exact ih

end Undecorated

namespace Element

variable (e : Element)

theorem undecorated_text : undecorated e.text = e.name := by
  rw [text, undecorated_append fun c hc => (e.name_plain c hc).2, undecorated_suffixes,
    List.append_nil]

theorem mem_text {c : Char} (h : c ∈ e.text) : c ∈ e.name ∨ c ∈ ['?', '[', ']'] := by
  rcases List.mem_append.mp h with h | h
  · exact Or.inl h
  · obtain ⟨suffix, -, hc⟩ := List.mem_flatMap.mp h
    right
    cases suffix with
    | optional => exact List.mem_cons.mpr (Or.inl (List.mem_singleton.mp hc))
    | array => exact List.mem_cons_of_mem _ hc

theorem isBlank_text : ∀ c ∈ e.text, isBlank c = false := by
  intro c hc
  rcases e.mem_text hc with h | h
  · exact (e.name_plain c h).1
  · have hmarks : ∀ c ∈ ['?', '[', ']'], isBlank c = false := by decide
    exact hmarks c h

theorem notMem_text {c : Char} (hc : c = '<' ∨ c = '>') : c ∉ e.text := by
  intro h
  rcases e.mem_text h with h | h
  · have := (e.name_plain c h).2
    rcases hc with rfl | rfl <;> cases this
  · rcases hc with rfl | rfl <;> revert h <;> decide

theorem isBlank_inCollection {marker : Text} (hmarker : marker ∈ collections) :
    ∀ c ∈ e.inCollection marker, isBlank c = false := by
  have hknown : ∀ marker ∈ collections, ∀ c ∈ marker, isBlank c = false := by decide
  simp only [inCollection, List.forall_mem_append, List.forall_mem_cons]
  exact ⟨hknown _ hmarker, by decide, e.isBlank_text, by decide, by simp⟩

end Element

/-- The element type of a type without the marks at its end. -/
def unwrapped (t : Text) (isArray : Bool) : ElementType :=
  match collections.findSome? (collection? t) with
  | some .bare => ⟨anything, true⟩
  | some (.of argument) => ⟨undecorated argument, true⟩
  | none => ⟨undecorated t, isArray⟩

section Ends

variable {c : Char} {t : Text}

theorem ofDeclared_eq {declared : Text} (h : trimEnd (· == '?') (strip declared) = t) :
    ofDeclared declared =
      unwrapped ((withoutTail? arrayMark t).getD t) (withoutTail? arrayMark t).isSome := by
  unfold ofDeclared unwrapped
  dsimp only
  rw [h]
  cases withoutTail? arrayMark t <;> rfl

theorem ofDeclared_append_replicate (ht : ∀ c ∈ t, isBlank c = false) (n : Nat) :
    ofDeclared (t ++ List.replicate n '?') = ofDeclared t := by
  have hquestions : ∀ c ∈ List.replicate n '?', c = '?' := fun c => List.eq_of_mem_replicate
  have hblank : ∀ c ∈ t ++ List.replicate n '?', isBlank c = false :=
    List.forall_mem_append.mpr ⟨ht, fun c hc => by rw [hquestions c hc]; decide⟩
  have htrim : trimEnd (· == '?') (strip (t ++ List.replicate n '?')) =
      trimEnd (· == '?') (strip t) := by
    rw [strip_of_forall_not hblank, strip_of_forall_not ht, trimEnd_append]
    simp
  rw [ofDeclared_eq htrim, ofDeclared_eq rfl]

theorem ofDeclared_append_arrayMark (ht : ∀ c ∈ t, isBlank c = false) :
    ofDeclared (t ++ arrayMark) = unwrapped t true := by
  have hblank : ∀ c ∈ t ++ arrayMark, isBlank c = false :=
    List.forall_mem_append.mpr ⟨ht, by decide⟩
  have htrim : trimEnd (· == '?') (strip (t ++ arrayMark)) = t ++ arrayMark := by
    have hend := trimEnd_concat (p := (· == '?')) (c := ']') (by decide) (t ++ ['['])
    rw [List.append_assoc] at hend
    rw [strip_of_forall_not hblank]
    exact hend
  rw [ofDeclared_eq htrim, withoutTail?_append]
  rfl

theorem ofDeclared_concat (ht : ∀ d ∈ t ++ [c], isBlank d = false) (hquestion : c ≠ '?')
    (harray : c ≠ ']') : ofDeclared (t ++ [c]) = unwrapped (t ++ [c]) false := by
  have htrim : trimEnd (· == '?') (strip (t ++ [c])) = t ++ [c] := by
    rw [strip_of_forall_not ht, trimEnd_concat (by simpa using hquestion)]
  have hnone : withoutTail? arrayMark (t ++ [c]) = none := withoutTail?_concat harray ['['] t
  rw [ofDeclared_eq htrim, hnone]
  rfl

end Ends

section Collections

variable {marker t : Text}

theorem collection?_of_notMem (ht : '<' ∉ t) (marker : Text) :
    collection? t marker = if t = marker then some .bare else none := by
  unfold collection?
  split
  next hlead =>
    refine (if_neg ?_).symm
    rintro rfl
    have := withoutLead?_append t []
    simp [hlead] at this
  next hlead =>
    have := withoutLead?_eq_some_iff.mp hlead
    rw [List.append_nil] at this
    rw [if_pos this]
  next rest hne hlead =>
    have heq := withoutLead?_eq_some_iff.mp hlead
    have hargument : argument? rest = none := by
      unfold argument?
      split
      next u => exact absurd (by simp [heq]) ht
      next => rfl
    rw [hargument, if_neg]
    · rfl
    · rintro rfl
      exact hne (by simpa using heq)

/-- A type without an argument is no collection, or a bare one. -/
theorem unwrapped_of_notMem (ht : '<' ∉ t) (isArray : Bool) : unwrapped t isArray =
    if t ∈ collections then ⟨anything, true⟩ else ⟨undecorated t, isArray⟩ := by
  unfold unwrapped
  have hfind : collections.findSome? (collection? t) =
      if t ∈ collections then some .bare else none := by
    simp only [collection?_of_notMem ht, collections, List.findSome?_cons, List.findSome?_nil,
      List.mem_cons, List.not_mem_nil, or_false]
    split_ifs <;> simp_all
  rw [hfind]
  split_ifs <;> rfl

theorem collection?_append (marker argument : Text) :
    collection? (marker ++ '<' :: (argument ++ ['>'])) marker = some (.of argument) := by
  rw [collection?, withoutLead?_append]
  change (withoutTail? ['>'] (argument ++ ['>'])).map Collection.of = _
  rw [withoutTail?_append, Option.map_some]

/-- Of a type with an argument that one collection has, the argument is taken. -/
theorem unwrapped_append (hmarker : marker ∈ collections) (argument : Text) (isArray : Bool) :
    unwrapped (marker ++ '<' :: (argument ++ ['>'])) isArray = ⟨undecorated argument, true⟩ := by
  have hfind : collections.findSome? (collection? (marker ++ '<' :: (argument ++ ['>']))) =
      some (.of argument) := by
    simp only [collections, List.mem_cons, List.not_mem_nil, or_false] at hmarker
    rcases hmarker with rfl | rfl
    · rw [collections, List.findSome?_cons, collection?_append]
    · have hother : collection? ("IEnumerable".toList ++ '<' :: (argument ++ ['>']))
          "ICollection".toList = none := rfl
      rw [collections, List.findSome?_cons, hother, List.findSome?_cons, collection?_append]
  rw [unwrapped, hfind]

end Collections

namespace Element

variable (e : Element) {marker : Text}

theorem text_concat (suffixes : List Suffix) (suffix : Suffix) :
    (e.withSuffixes (suffixes ++ [suffix])).text =
      (e.withSuffixes suffixes).text ++ suffix.text := by
  simp [text, withSuffixes]

theorem unwrapped_text (isArray : Bool) : unwrapped e.text isArray =
    if e.text ∈ collections then ⟨anything, true⟩ else ⟨e.name, isArray⟩ := by
  rw [unwrapped_of_notMem (e.notMem_text (Or.inl rfl)), e.undecorated_text]

/-- The name of a collection has no decoration, so it is no other name with marks behind it. -/
theorem name_mem_collections (h : e.text ∈ collections) : e.name ∈ collections := by
  have hplain : ∀ marker ∈ collections, ∀ c ∈ marker, isDecoration c = false := by decide
  have hname := undecorated_append (hplain _ h) []
  rw [List.append_nil, e.undecorated_text] at hname
  rw [hname]
  simpa [undecorated, withoutArrayMarks] using h

/-- The marks come off at the end, where an array mark counts, up to some that do not matter. -/
theorem ofDeclared_text : ∃ rest, ofDeclared e.text =
    unwrapped (e.withSuffixes rest).text (e.suffixes.contains .array) := by
  suffices h : ∀ suffixes, ∃ rest, ofDeclared (e.withSuffixes suffixes).text =
      unwrapped (e.withSuffixes rest).text (suffixes.contains .array) from h e.suffixes
  intro suffixes
  induction suffixes using List.reverseRecOn with
  | nil =>
    have htext : (e.withSuffixes []).text = e.name := List.append_nil e.name
    refine ⟨[], ?_⟩
    obtain ⟨s, c, hname⟩ := (List.eq_nil_or_concat' e.name).resolve_left e.name_ne_nil
    have hc : isDecoration c = false := (e.name_plain c (by simp [hname])).2
    rw [htext, hname]
    refine ofDeclared_concat ?_ ?_ ?_
    · rw [← hname]
      exact fun d hd => (e.name_plain d hd).1
    · rintro rfl
      cases hc
    · rintro rfl
      cases hc
  | append_singleton suffixes suffix ih =>
    rw [e.text_concat]
    cases suffix with
    | optional =>
      obtain ⟨rest, hrest⟩ := ih
      refine ⟨rest, (ofDeclared_append_replicate (isBlank_text _) 1).trans (hrest.trans ?_)⟩
      simp
    | array =>
      refine ⟨suffixes, (ofDeclared_append_arrayMark (isBlank_text _)).trans ?_⟩
      simp

/-- An element is found again, unless it is named like a collection. -/
theorem ofDeclared_text_of_notMem (hname : e.name ∉ collections) :
    ofDeclared e.text = ⟨e.name, e.suffixes.contains .array⟩ := by
  obtain ⟨rest, hrest⟩ := e.ofDeclared_text
  have htext : (e.withSuffixes rest).text ∉ collections :=
    fun h => hname ((e.withSuffixes rest).name_mem_collections h)
  rw [hrest, unwrapped_text, if_neg htext]
  rfl

/-- In a collection it is found whatever its name. -/
theorem ofDeclared_inCollection (hmarker : marker ∈ collections) (listed : Bool) (n : Nat) :
    ofDeclared (e.inCollection marker ++
      ((if listed then arrayMark else []) ++ List.replicate n '?')) = ⟨e.name, true⟩ := by
  have hblank := e.isBlank_inCollection hmarker
  have hunwrapped (isArray : Bool) :
      unwrapped (e.inCollection marker) isArray = ⟨e.name, true⟩ := by
    rw [inCollection, unwrapped_append hmarker, e.undecorated_text]
  rw [← List.append_assoc]
  cases listed with
  | false =>
    have hshape : e.inCollection marker = (marker ++ '<' :: e.text) ++ ['>'] := by
      simp [inCollection]
    rw [if_neg (by decide), List.append_nil, ofDeclared_append_replicate hblank, ← hunwrapped false,
      hshape]
    exact ofDeclared_concat (hshape ▸ hblank) (by decide) (by decide)
  | true =>
    have hmarked : ∀ c ∈ e.inCollection marker ++ arrayMark, isBlank c = false :=
      List.forall_mem_append.mpr ⟨hblank, by decide⟩
    rw [if_pos rfl, ofDeclared_append_replicate hmarked, ofDeclared_append_arrayMark hblank,
      hunwrapped]

end Element

theorem ofDeclared_append {s t u : Text} (hs : ∀ c ∈ s, isBlank c = true)
    (hu : ∀ c ∈ u, isBlank c = true) : ofDeclared (s ++ (t ++ u)) = ofDeclared t := by
  rw [ofDeclared, ofDeclared, strip_append hs hu]

/-- The element type is recovered from what is declared. An element whose name is not that of a
collection keeps its name, and there are many if an array mark stands behind it. Of an element in a
collection there are many, whatever its name and whatever marks follow. Blanks around the type
change nothing. -/
theorem ofDeclared_recovers :
    (∀ e : Element, e.name ∉ collections →
      ofDeclared e.text = ⟨e.name, e.suffixes.contains .array⟩) ∧
    (∀ marker ∈ collections, ∀ (e : Element) (listed : Bool) (n : Nat),
      ofDeclared (e.inCollection marker ++
        ((if listed then arrayMark else []) ++ List.replicate n '?')) = ⟨e.name, true⟩) ∧
    ∀ s t u : Text, (∀ c ∈ s, isBlank c = true) → (∀ c ∈ u, isBlank c = true) →
      ofDeclared (s ++ (t ++ u)) = ofDeclared t :=
  ⟨Element.ofDeclared_text_of_notMem, fun _ hmarker e => e.ofDeclared_inCollection hmarker,
    fun _ _ _ => ofDeclared_append⟩

/-- Array marks in front of a question mark, an element named like a collection inside one, and a
type with blanks around it. -/
theorem tag_ofDeclared_recovers :
    ofDeclared "ICollectionView?[]?[]??".toList = ⟨"ICollectionView".toList, true⟩ ∧
    ofDeclared "IEnumerable<ICollection[]?>[]??".toList = ⟨"ICollection".toList, true⟩ ∧
    ofDeclared "\t int??\n".toList = ⟨"int".toList, false⟩ := by
  obtain ⟨halone, hmany, hblank⟩ := ofDeclared_recovers
  refine ⟨?_, ?_, ?_⟩
  · exact halone
      { name := "ICollectionView".toList
        suffixes := [.optional, .array, .optional, .array, .optional, .optional] } (by decide)
  · exact hmany "IEnumerable".toList (by decide)
      { name := "ICollection".toList, suffixes := [.array, .optional] } true 2
  · exact (hblank "\t ".toList "int??".toList ['\n'] (by decide) (by decide)).trans
      (halone { name := "int".toList, suffixes := [.optional, .optional] } (by decide))

end InterfaceGen.ElementType
