import InterfaceGen.Proofs.Path.Segments

/-! Walks along segments. The normal form of a path is where a walk along its segments ends, if the
walk starts at the root or at the unnamed starting point and never asks what exists. -/

namespace InterfaceGen

namespace Path

theorem segments_ne_nil (p : Path) : p.segments ≠ [] := List.splitOn_ne_nil '/' p.text

theorem noSlash_of_mem_segments {p : Path} {s : Text} (h : s ∈ p.segments) : '/' ∉ s := by
  unfold segments at h
  generalize p.text = t at h
  induction t generalizing s with
  | nil => simp_all
  | cons c t ih =>
    rw [List.splitOn_cons_eq_if_modifyHead] at h
    split_ifs at h with hc
    · rcases List.mem_cons.mp h with rfl | h
      · simp
      · exact ih h
    · obtain ⟨first, rest, hsplit⟩ := List.exists_cons_of_ne_nil (List.splitOn_ne_nil '/' t)
      rw [hsplit, List.modifyHead_cons] at h
      rcases List.mem_cons.mp h with rfl | h
      · have hfirst := ih (hsplit ▸ List.mem_cons_self : first ∈ t.splitOn '/')
        simp only [List.mem_cons, not_or]
        exact ⟨fun hc' => hc (beq_iff_eq.mpr hc'.symm), hfirst⟩
      · exact ih (hsplit ▸ List.mem_cons_of_mem first h)

/-- The first segment of an absolute path is empty, and the path goes on after it. -/
theorem isAbsolute_iff {p : Path} {first : Text} {rest : List Text}
    (h : p.segments = first :: rest) : p.isAbsolute = true ↔ first = [] ∧ rest ≠ [] := by
  unfold segments at h
  unfold isAbsolute
  cases ht : p.text with
  | nil =>
    obtain ⟨rfl, rfl⟩ : [] = first ∧ [] = rest := by simpa [ht] using h
    simp
  | cons c t =>
    rw [ht, List.splitOn_cons_eq_if_modifyHead] at h
    obtain ⟨s, ss, hsplit⟩ := List.exists_cons_of_ne_nil (List.splitOn_ne_nil '/' t)
    split_ifs at h with hc
    · obtain ⟨rfl, rfl⟩ := List.cons.inj h
      simpa [hsplit] using hc
    · rw [hsplit, List.modifyHead_cons] at h
      obtain ⟨rfl, rfl⟩ := List.cons.inj h
      simpa using hc

end Path

namespace Place

/-- One step of a walk. -/
def follow (p : Place) (s : Text) : Place :=
  if Path.isIdle s then p else if s = ['.', '.'] then p.above else p.child s

variable {p : Place}

theorem follow_of_isIdle {s : Text} (h : Path.isIdle s = true) : p.follow s = p := by
  simp [follow, h]

@[simp] theorem follow_nil : p.follow [] = p := rfl

@[simp] theorem follow_here : p.follow ['.'] = p := rfl

@[simp] theorem follow_up : p.follow ['.', '.'] = p.above := rfl

theorem follow_of_isEntry {n : Text} (h : Path.IsEntry n) : p.follow n = p.child n := by
  simp [follow, h.isIdle, h.ne_up]

/-- A step along a segment that is not empty is one to its component. -/
theorem follow_eq_step {s : Text} (hne : s ≠ []) : p.follow s = p.step (.ofSegment s) := by
  by_cases hhere : s = ['.']
  · subst hhere
    rfl
  · by_cases hup : s = ['.', '.']
    · subst hup
      rfl
    · simp [follow, Path.isIdle, Component.ofSegment, step, hne, hhere, hup]

theorem foldl_follow_eq_foldl_step (segments : List Text) :
    segments.foldl follow p =
      ((segments.filter (!Path.isIdle ·)).map Component.ofSegment).foldl step p := by
  induction segments generalizing p with
  | nil => rfl
  | cons s segments ih =>
    rw [List.foldl_cons, ih]
    by_cases hidle : Path.isIdle s = true
    · simp [follow_of_isIdle, hidle]
    · have hne : s ≠ [] := by
        rintro rfl
        exact hidle rfl
      rw [List.filter_cons_of_pos (by simp [hidle]), List.map_cons, List.foldl_cons,
        follow_eq_step hne]

/-- Steps to the components of a path are a walk along its segments, which starts at the root if the
path is absolute. -/
theorem foldl_step_components (q : Path) (p : Place) :
    q.components.foldl step p = q.segments.foldl follow (if q.isAbsolute then root else p) := by
  obtain ⟨first, rest, hs⟩ := List.exists_cons_of_ne_nil q.segments_ne_nil
  have hcomponents : q.components = if first.isEmpty then
      if rest.isEmpty then [] else .root :: (rest.filter (!Path.isIdle ·)).map Component.ofSegment
      else .ofSegment first :: (rest.filter (!Path.isIdle ·)).map Component.ofSegment := by
    simp only [Path.components, hs]
  rw [hcomponents, hs, List.foldl_cons]
  by_cases hfirst : first = []
  · subst hfirst
    by_cases hrest : rest = []
    · simp [hrest, Path.isAbsolute_iff hs]
    · simp [hrest, Path.isAbsolute_iff hs, foldl_follow_eq_foldl_step, step]
  · have habs : q.isAbsolute = false := by
      simp [← Bool.not_eq_true, Path.isAbsolute_iff hs, hfirst]
    simp [hfirst, habs, follow_eq_step, foldl_follow_eq_foldl_step]

/-- The normal form is the end of a walk along the segments. -/
theorem ofPath_eq_foldl_follow (q : Path) :
    ofPath q = q.segments.foldl follow (if q.isAbsolute then root else start) :=
  foldl_step_components q start

theorem foldl_follow_of_isEntry {names : List Text} (h : ∀ n ∈ names, Path.IsEntry n) :
    names.foldl follow p = ⟨p.rooted, p.names ++ names⟩ := by
  induction names generalizing p with
  | nil => simp
  | cons n names ih =>
    rw [List.foldl_cons, follow_of_isEntry (h n List.mem_cons_self),
      ih fun m hm => h m (List.mem_cons_of_mem n hm)]
    simp [child]

theorem ofPath_ofSegments {s : Text} {rest : List Text} (hne : s ≠ [])
    (h : ∀ t ∈ s :: rest, '/' ∉ t) :
    ofPath (Path.ofSegments (s :: rest)) = (s :: rest).foldl follow start := by
  rw [ofPath_eq_foldl_follow, Path.segments_ofSegments (by simp) h,
    Path.isAbsolute_ofSegments hne (h s List.mem_cons_self)]
  rfl

end Place

end InterfaceGen
