import InterfaceGen.Path.Place
import Mathlib.Tactic

/-! Paths given by their segments. A text without slashes is one segment, so a path that is put
together from such texts comes apart into them again; its components are those segments that lead
somewhere. -/

namespace InterfaceGen

theorem Component.ofSegment_injective : Function.Injective ofSegment := by
  intro s t h
  unfold ofSegment at h
  split_ifs at h <;> simp_all

namespace Path

/-- A segment that names an entry of a directory. -/
@[mk_iff]
structure IsEntry (n : Text) : Prop where
  ne_nil : n ≠ []
  noSlash : '/' ∉ n
  ne_here : n ≠ ['.']
  ne_up : n ≠ ['.', '.']

instance (n : Text) : Decidable (IsEntry n) :=
  decidable_of_iff _ (isEntry_iff n).symm

/-- An entry that is not hidden. -/
structure IsVisible (n : Text) : Prop where
  ne_nil : n ≠ []
  noSlash : '/' ∉ n
  shown : FileName.isHidden n = false

namespace IsEntry

variable {n : Text}

theorem isIdle (h : IsEntry n) : Path.isIdle n = false := by
  simp [Path.isIdle, h.ne_nil, h.ne_here]

theorem ofSegment (h : IsEntry n) : Component.ofSegment n = .name n := by
  simp [Component.ofSegment, h.ne_here, h.ne_up]

end IsEntry

namespace IsVisible

variable {n : Text}

theorem isEntry (h : IsVisible n) : IsEntry n := by
  refine ⟨h.ne_nil, h.noSlash, ?_, ?_⟩ <;>
  · rintro rfl
    exact absurd h.shown (by decide)

/-- What is appended to a visible name leaves it visible. -/
theorem append (h : IsVisible n) {t : Text} (ht : '/' ∉ t) : IsVisible (n ++ t) := by
  obtain ⟨hne, hslash, hshown⟩ := h
  refine ⟨by simp [hne], by simp [hslash, ht], ?_⟩
  cases n with
  | nil => exact absurd rfl hne
  | cons c n => exact hshown

end IsVisible

/-- The path with the given segments. -/
def ofSegments (segments : List Text) : Path := ⟨['/'].intercalate segments⟩

theorem segments_ofSegments {segments : List Text} (hne : segments ≠ [])
    (h : ∀ s ∈ segments, '/' ∉ s) : (ofSegments segments).segments = segments :=
  List.splitOn_intercalate '/' h hne

theorem ofSegments_singleton (s : Text) : ofSegments [s] = ⟨s⟩ := by
  simp [ofSegments]

/-- A path of segments that lead somewhere has one component for each. -/
theorem components_ofSegments {segments : List Text} (hslash : ∀ s ∈ segments, '/' ∉ s)
    (hidle : ∀ s ∈ segments, isIdle s = false) :
    (ofSegments segments).components = segments.map .ofSegment := by
  rcases segments with _ | ⟨s, rest⟩
  · rfl
  · have hs : s ≠ [] := by
      rintro rfl
      exact Bool.noConfusion (hidle [] List.mem_cons_self)
    have hrest : rest.filter (!isIdle ·) = rest :=
      List.filter_eq_self.mpr fun t ht => by simp [hidle t (List.mem_cons_of_mem s ht)]
    simp [components, segments_ofSegments (List.cons_ne_nil s rest) hslash, hs, hrest]

theorem text_ofSegments_cons {s : Text} {rest : List Text} (h : rest ≠ []) :
    (ofSegments (s :: rest)).text = s ++ '/' :: (ofSegments rest).text := by
  simp [ofSegments, List.intercalate_cons_of_ne_nil h]

theorem text_ofSegments_append {segments rest : List Text} (h : segments ≠ []) (h' : rest ≠ []) :
    (ofSegments (segments ++ rest)).text =
      (ofSegments segments).text ++ '/' :: (ofSegments rest).text := by
  induction segments with
  | nil => exact absurd rfl h
  | cons s segments ih =>
    rcases segments with _ | ⟨s', segments⟩
    · rw [List.singleton_append, text_ofSegments_cons h', ofSegments_singleton]
    · rw [List.cons_append, text_ofSegments_cons (by simp), text_ofSegments_cons (by simp),
        ih (by simp)]
      simp

/-- A text put after a path goes to its last segment. -/
theorem text_ofSegments_append_singleton (segments : List Text) (s t : Text) :
    (ofSegments (segments ++ [s])).text ++ t = (ofSegments (segments ++ [s ++ t])).text := by
  by_cases h : segments = []
  · simp [h, ofSegments_singleton]
  · simp [text_ofSegments_append h, ofSegments_singleton]

theorem isAbsolute_ofSegments {s : Text} {rest : List Text} (hne : s ≠ []) (h : '/' ∉ s) :
    (ofSegments (s :: rest)).isAbsolute = false := by
  obtain ⟨c, s, rfl⟩ := List.exists_cons_of_ne_nil hne
  have hc : c ≠ '/' := by
    rintro rfl
    exact h List.mem_cons_self
  cases rest <;> simp [isAbsolute, ofSegments, List.intercalate, hc]

theorem text_ofSegments_ne_nil {s : Text} {rest : List Text} (hne : s ≠ []) :
    (ofSegments (s :: rest)).text ≠ [] := by
  by_cases h : rest = []
  · simpa [h, ofSegments_singleton] using hne
  · simp [text_ofSegments_cons h]

/-- A path of entries does not end with a slash. -/
theorem getLast?_text_ofSegments {segments : List Text} (h : ∀ s ∈ segments, IsEntry s) :
    (ofSegments segments).text.getLast? ≠ some '/' := by
  induction segments with
  | nil => simp [ofSegments]
  | cons s segments ih =>
    rcases segments with _ | ⟨s', segments⟩
    · intro hlast
      rw [ofSegments_singleton] at hlast
      exact (h s List.mem_cons_self).noSlash (List.mem_of_getLast? hlast)
    · have hne : (ofSegments (s' :: segments)).text ≠ [] :=
        text_ofSegments_ne_nil (h s' (by simp)).ne_nil
      have hrest := ih fun t ht => h t (List.mem_cons_of_mem s ht)
      rw [text_ofSegments_cons (by simp), List.getLast?_append, List.getLast?_cons]
      simpa [List.getLast?_eq_some_getLast hne] using hrest

/-- Joining a relative path to entries appends the segments. -/
theorem join_ofSegments {segments : List Text} {s : Text} {rest : List Text}
    (h : ∀ t ∈ segments, IsEntry t) (hne : s ≠ []) (hs : '/' ∉ s) :
    (ofSegments segments).join (ofSegments (s :: rest)) = ofSegments (segments ++ s :: rest) := by
  rw [join, if_neg (by simp [isAbsolute_ofSegments hne hs])]
  rcases segments with _ | ⟨t, segments⟩
  · simp [ofSegments]
  · have hnil : (ofSegments (t :: segments)).text ≠ [] :=
      text_ofSegments_ne_nil (h t List.mem_cons_self).ne_nil
    rw [if_neg (by simp [hnil, getLast?_text_ofSegments h])]
    rw [← text_ofSegments_append (by simp) (by simp)]

theorem withoutIdleEnd_of_isEntry {segments : List Text} (h : ∀ s ∈ segments, IsEntry s) :
    withoutIdleEnd segments = segments := by
  rcases List.eq_nil_or_concat segments with rfl | ⟨front, s, rfl⟩
  · rfl
  · have hs : isIdle s = false := (h s (by simp)).isIdle
    simp [withoutIdleEnd, hs]

/-- The last entry of a path lies in the directory of the others. -/
theorem parent?_ofSegments {segments : List Text} {s : Text} (h : ∀ t ∈ segments, IsEntry t)
    (hs : IsEntry s) : (ofSegments (segments ++ [s])).parent? = some (ofSegments segments) := by
  have hslash : ∀ t ∈ segments ++ [s], '/' ∉ t := by
    intro t ht
    rcases List.mem_append.mp ht with ht | ht
    · exact (h t ht).noSlash
    · exact List.mem_singleton.mp ht ▸ hs.noSlash
  rw [parent?, segments_ofSegments (by simp) hslash]
  rcases segments with _ | ⟨t, segments⟩
  · simp [withoutIdleEnd, hs.ne_nil, ofSegments]
  · have ht : t ≠ [] := (h t List.mem_cons_self).ne_nil
    have hrest : withoutIdleEnd segments = segments :=
      withoutIdleEnd_of_isEntry fun u hu => h u (List.mem_cons_of_mem t hu)
    have hend : withoutIdleEnd (segments ++ [s]) = segments ++ [s] := by
      apply withoutIdleEnd_of_isEntry
      intro u hu
      rcases List.mem_append.mp hu with hu | hu
      · exact h u (List.mem_cons_of_mem t hu)
      · exact List.mem_singleton.mp hu ▸ hs
    simp [hend, hrest, ht, ofSegments]

end Path

end InterfaceGen
