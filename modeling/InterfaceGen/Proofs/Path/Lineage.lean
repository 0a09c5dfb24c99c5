import InterfaceGen.Proofs.Path.Place
import Mathlib.Data.List.TakeWhile

/-! The way up from a path. The parent of a path has one step less; the idle segments on either side
of that step go with it. So a path, its parent and all that follow walk the same places, each one
step less than the one before. -/

namespace InterfaceGen.Path

/-- The segments that lead somewhere. -/
def steps (segments : List Text) : List Text := segments.filter (!isIdle ·)

section Steps

variable {segments rest : List Text}

theorem steps_append : steps (segments ++ rest) = steps segments ++ steps rest :=
  List.filter_append ..

theorem isIdle_of_mem_replicate {k : Nat} {s : Text} (h : s ∈ List.replicate k []) :
    isIdle s = true := by
  rw [List.eq_of_mem_replicate h]
  rfl

theorem steps_of_isIdle (h : ∀ s ∈ segments, isIdle s = true) : steps segments = [] := by
  simpa [steps] using h

theorem steps_cons_of_isIdle {s : Text} (h : isIdle s = true) : steps (s :: rest) = steps rest := by
  simp [steps, h]

theorem steps_cons {s : Text} (h : isIdle s = false) : steps (s :: rest) = s :: steps rest := by
  simp [steps, h]

/-- What `withoutIdleEnd` takes off is idle. -/
theorem exists_withoutIdleEnd_append (segments : List Text) :
    ∃ idles, (∀ s ∈ idles, isIdle s = true) ∧ segments = withoutIdleEnd segments ++ idles := by
  refine ⟨(segments.reverse.takeWhile isIdle).reverse, ?_, ?_⟩
  · intro s hs
    exact List.mem_takeWhile_imp (List.mem_reverse.mp hs)
  · rw [withoutIdleEnd, ← List.reverse_append, List.takeWhile_append_dropWhile,
      List.reverse_reverse]

theorem steps_withoutIdleEnd (segments : List Text) :
    steps (withoutIdleEnd segments) = steps segments := by
  obtain ⟨idles, hidles, hs⟩ := exists_withoutIdleEnd_append segments
  conv_rhs => rw [hs, steps_append, steps_of_isIdle hidles, List.append_nil]

theorem withoutIdleEnd_eq_nil_or (segments : List Text) : withoutIdleEnd segments = [] ∨
    ∃ front s, withoutIdleEnd segments = front ++ [s] ∧ isIdle s = false := by
  unfold withoutIdleEnd
  cases h : segments.reverse.dropWhile isIdle with
  | nil => exact Or.inl rfl
  | cons s above =>
    refine Or.inr ⟨above.reverse, s, List.reverse_cons, ?_⟩
    have hhead := List.head?_dropWhile_not isIdle segments.reverse
    rw [h] at hhead
    simpa using hhead

end Steps

/-- The last segment of a path, slashes at its end aside, and what stands above it. -/
structure EndsWith (q : Path) (above : List Text) (last : Text) : Prop where
  ne_nil : last ≠ []
  segments : ∃ k, q.segments = above ++ last :: List.replicate k []

/-- The last segment is a dot, which an operating system takes for no entry of any directory. -/
def EndsInDot (q : Path) : Prop := ∃ above, q.EndsWith above ['.']

theorem endsWith_or_forall_nil (q : Path) :
    (∃ above last, q.EndsWith above last) ∨ ∀ s ∈ q.segments, s = [] := by
  suffices h : ∀ segments : List Text,
      (∃ above last k, last ≠ [] ∧ segments = above ++ last :: List.replicate k []) ∨
        ∀ s ∈ segments, s = [] by
    rcases h q.segments with ⟨above, last, k, hlast, hs⟩ | hs
    · exact Or.inl ⟨above, last, hlast, k, hs⟩
    · exact Or.inr hs
  intro segments
  induction segments with
  | nil => simp
  | cons s segments ih =>
    rcases ih with ⟨above, last, k, hlast, rfl⟩ | hnil
    · exact Or.inl ⟨s :: above, last, k, hlast, rfl⟩
    · by_cases hs : s = []
      · exact Or.inr (List.forall_mem_cons.mpr ⟨hs, hnil⟩)
      · refine Or.inl ⟨[], s, segments.length, hs, ?_⟩
        rw [List.nil_append, List.eq_replicate_of_mem hnil]
        simp

section EndsWith

variable {p : Path} {above front idles : List Text} {last s : Text}

theorem EndsWith.dropWhile (h : p.EndsWith above last) :
    p.segments.reverse.dropWhile (·.isEmpty) = last :: above.reverse := by
  obtain ⟨hlast, k, hs⟩ := h
  have hidle : ∀ s ∈ List.replicate k ([] : Text), s.isEmpty = true := by
    intro s hs
    rw [List.eq_of_mem_replicate hs]
    rfl
  rw [hs, List.reverse_append, List.reverse_cons, List.reverse_replicate, List.append_assoc,
    List.dropWhile_append_of_pos hidle]
  simp [hlast]

/-- A path ends in one way only. -/
theorem EndsWith.unique {above' : List Text} {last' : Text} (h : p.EndsWith above last)
    (h' : p.EndsWith above' last') : above = above' ∧ last = last' := by
  have heq := h.dropWhile.symm.trans h'.dropWhile
  obtain ⟨hlast, habove⟩ := List.cons.inj heq
  exact ⟨List.reverse_injective habove, hlast⟩

theorem EndsWith.isEntry (h : p.EndsWith above last) (hhere : last ≠ ['.'])
    (hup : last ≠ ['.', '.']) : IsEntry last := by
  obtain ⟨k, hs⟩ := h.segments
  exact ⟨h.ne_nil, noSlash_of_mem_segments (p := p) (by simp [hs]), hhere, hup⟩

/-- Of idle segments at the end, either one is a dot or all are empty. -/
theorem endsInDot_or_endsWith (hs : p.segments = front ++ s :: idles) (hne : s ≠ [])
    (hidles : ∀ t ∈ idles, isIdle t = true) :
    (∃ between, p.EndsWith (front ++ s :: between) ['.'] ∧ ∀ t ∈ between, isIdle t = true) ∨
      p.EndsWith front s := by
  rcases endsWith_or_forall_nil p with ⟨above, last, hend⟩ | hnil
  · obtain ⟨k, hk⟩ := hend.segments
    rw [hs] at hk
    rcases List.append_eq_append_iff.mp hk with ⟨between, rfl, hr⟩ | ⟨between, rfl, hr⟩
    · rcases between with _ | ⟨s', between⟩
      · obtain ⟨rfl, -⟩ := List.cons.inj hr
        exact Or.inr (by simpa using hend)
      · obtain ⟨rfl, rfl⟩ := List.cons.inj hr
        have hlast : isIdle last = true := hidles last (by simp)
        obtain rfl : last = ['.'] := by simpa [isIdle, hend.ne_nil] using hlast
        exact Or.inl ⟨between, hend, fun t ht => hidles t (List.mem_append_left _ ht)⟩
    · rcases between with _ | ⟨s', between⟩
      · obtain ⟨rfl, -⟩ := List.cons.inj hr
        exact Or.inr (by simpa using hend)
      · have hmem : s ∈ List.replicate k ([] : Text) := by
          rw [(List.cons.inj hr).2]
          simp
        exact absurd (List.eq_of_mem_replicate hmem) hne
  · exact absurd (hnil s (by simp [hs])) hne

end EndsWith

/-- The path `p` goes on from `q` by the segment `s`. -/
structure GoesOn (p q : Path) (front : List Text) (s : Text) (idles : List Text) : Prop where
  segments : p.segments = front ++ s :: idles
  isIdle : isIdle s = false
  idles : ∀ t ∈ idles, Path.isIdle t = true
  steps : steps q.segments = Path.steps front
  isAbsolute : q.isAbsolute = p.isAbsolute
  ne_nil : q.text ≠ []
  isPrefix : q.text <+: p.text
  components : p.components = q.components ++ [.ofSegment s]
  endsInDot : q.EndsInDot → q.segments = [['.']]

theorem GoesOn.segment_ne_nil {p q : Path} {front idles : List Text} {s : Text}
    (h : p.GoesOn q front s idles) : s ≠ [] := by
  rintro rfl
  exact Bool.noConfusion h.isIdle

theorem text_eq (p : Path) : p.text = (ofSegments p.segments).text :=
  (List.intercalate_splitOn '/').symm

theorem isPrefix_text_ofSegments {segments rest : List Text} (h : segments ≠ []) :
    (ofSegments segments).text <+: (ofSegments (segments ++ rest)).text := by
  by_cases hrest : rest = []
  · simp [hrest]
  · rw [text_ofSegments_append h hrest]
    exact List.prefix_append _ _

/-- A path whose last segment leads somewhere does not end in a dot. -/
theorem not_endsInDot {q : Path} {front : List Text} {s : Text} (hs : q.segments = front ++ [s])
    (hstep : isIdle s = false) : ¬q.EndsInDot := by
  rintro ⟨above, -, k, hk⟩
  have hlast : s ∈ ['.'] :: List.replicate k [] := by
    rw [hs] at hk
    have h := congrArg List.getLast? hk
    rw [List.getLast?_concat, List.getLast?_append_of_ne_nil _ (List.cons_ne_nil _ _)] at h
    exact List.mem_of_getLast? h.symm
  have hidle : isIdle s = true := by
    rcases List.mem_cons.mp hlast with rfl | hmem
    · rfl
    · exact isIdle_of_mem_replicate hmem
  rw [hstep] at hidle
  exact Bool.noConfusion hidle

theorem dot_mem_segments {q : Path} (h : q.EndsInDot) : ['.'] ∈ q.segments := by
  obtain ⟨above, -, k, hk⟩ := h
  simp [hk]

/-- A path goes on from the one that keeps its first segment, and of the others up to a step all but
idle ones. -/
theorem goesOn_of_segments {p q : Path} {first s : Text} {front above idles : List Text}
    (hp : p.segments = first :: (front ++ s :: idles)) (hstep : isIdle s = false)
    (hidles : ∀ t ∈ idles, isIdle t = true) (hq : q.segments = first :: above)
    (hsteps : steps above = steps front) (habs : first = [] → above ≠ [])
    (hbegins : q.text <+: p.text) (hdot : q.EndsInDot → q.segments = [['.']]) :
    p.GoesOn q (first :: front) s idles := by
  have hbelow : (front ++ s :: idles).filter (!isIdle ·) = steps front ++ [s] := by
    change steps _ = _
    rw [steps_append, steps_cons hstep, steps_of_isIdle hidles]
  refine ⟨hp, hstep, hidles, ?_, ?_, ?_, hbegins, ?_, hdot⟩
  · simp only [hq, steps, List.filter_cons]
    rw [← steps, hsteps, steps]
  · rw [Bool.eq_iff_iff, isAbsolute_iff hq, isAbsolute_iff hp]
    simpa using habs
  · intro hnil
    have hempty : q.segments = [[]] := by
      rw [segments, hnil]
      rfl
    rw [hq] at hempty
    obtain ⟨rfl, rfl⟩ := List.cons.inj hempty
    exact habs rfl rfl
  · have hrest : (front ++ s :: idles).isEmpty = false := by simp
    simp only [components, hq, hp, hbelow, hrest]
    rw [show above.filter (!isIdle ·) = steps front from hsteps]
    by_cases hfirst : first = []
    · simp [hfirst, habs hfirst]
    · simp [hfirst]

section Parent

variable {p q : Path} {first s : Text} {front idles : List Text}
  (hp : p.segments = first :: (front ++ s :: idles)) (hstep : isIdle s = false)
  (hidles : ∀ t ∈ idles, isIdle t = true)

include hp hstep hidles

/-- The first step from the root goes on from the root. -/
theorem goesOn_root (hfirst : first = []) (hnil : withoutIdleEnd front = []) :
    p.GoesOn ⟨['/']⟩ (first :: front) s idles := by
  subst hfirst
  have hq : segments ⟨['/']⟩ = [[], []] := rfl
  refine goesOn_of_segments hp hstep hidles hq ?_ (by simp) ?_ fun hdot => ?_
  · rw [← steps_withoutIdleEnd front, hnil]
    rfl
  · rw [text_eq p, hp, text_ofSegments_cons (by simp)]
    exact List.prefix_append ['/'] _
  · have hmem := dot_mem_segments hdot
    simp [hq] at hmem

/-- Any other step goes on from the segments before it that are left without the idle ones. -/
theorem goesOn_withoutIdleEnd (hroot : first = [] → withoutIdleEnd front ≠ []) :
    p.GoesOn (ofSegments (first :: withoutIdleEnd front)) (first :: front) s idles := by
  obtain ⟨idles', -, hfront⟩ := exists_withoutIdleEnd_append front
  have hslash : ∀ t ∈ first :: withoutIdleEnd front, '/' ∉ t := by
    intro t ht
    apply noSlash_of_mem_segments (p := p)
    rw [hp, hfront]
    simp only [List.mem_cons, List.mem_append] at ht ⊢
    tauto
  have hq := segments_ofSegments (by simp) hslash
  refine goesOn_of_segments hp hstep hidles hq (steps_withoutIdleEnd front) hroot ?_ fun hdot => ?_
  · have happend : p.segments = (first :: withoutIdleEnd front) ++ (idles' ++ s :: idles) := by
      rw [hp]
      conv_lhs => rw [hfront]
      simp
    rw [text_eq p, happend]
    exact isPrefix_text_ofSegments (by simp)
  · rcases withoutIdleEnd_eq_nil_or front with hnil | ⟨front', t, ht, hstep'⟩
    · have hmem := dot_mem_segments hdot
      rw [hq, hnil, List.mem_singleton] at hmem
      rw [hq, hnil, hmem]
    · rw [ht, ← List.cons_append] at hq hdot
      exact absurd hdot (not_endsInDot hq hstep')

end Parent

/-- The parent is the path without its last step, or, if only the first segment can be that step,
the empty path. -/
theorem parent?_cases {p q : Path} (h : p.parent? = some q) :
    (∃ first idles, p.segments = first :: idles ∧ first ≠ [] ∧ (∀ s ∈ idles, isIdle s = true) ∧
      q = ⟨[]⟩) ∨ ∃ front s idles, p.GoesOn q front s idles := by
  obtain ⟨first, rest, hs⟩ := List.exists_cons_of_ne_nil p.segments_ne_nil
  obtain ⟨idles, hidles, hrest⟩ := exists_withoutIdleEnd_append rest
  rcases withoutIdleEnd_eq_nil_or rest with hnil | ⟨front, s, hfront, hstep⟩
  · simp only [parent?, hs, hnil, List.reverse_nil, List.isEmpty_iff] at h
    split_ifs at h with hfirst
    refine Or.inl ⟨first, rest, hs, hfirst, ?_, (Option.some.inj h).symm⟩
    rw [hrest, hnil]
    exact hidles
  · refine Or.inr ⟨first :: front, s, idles, ?_⟩
    rw [hfront, List.append_assoc, List.singleton_append] at hrest
    rw [hrest] at hs
    simp only [parent?, hs, ← hrest, hfront, List.reverse_append, List.reverse_singleton,
      List.singleton_append, List.reverse_reverse] at h
    split_ifs at h with hfirst
    · obtain rfl := Option.some.inj h
      obtain rfl := List.isEmpty_iff.mp hfirst
      by_cases hnil : withoutIdleEnd front = []
      · rw [hnil]
        exact goesOn_root hs hstep hidles rfl hnil
      · have hq : ofSegments ([] :: withoutIdleEnd front) =
            ⟨'/' :: ['/'].intercalate (withoutIdleEnd front)⟩ := by
          rw [ofSegments, List.intercalate_cons_of_ne_nil hnil]
          rfl
        rw [← hq]
        exact goesOn_withoutIdleEnd hs hstep hidles fun _ => hnil
    · obtain rfl := Option.some.inj h
      exact goesOn_withoutIdleEnd hs hstep hidles fun hempty => absurd (by simp [hempty]) hfirst

/-- Only the empty path and the root have no parent. -/
theorem of_parent?_eq_none {p : Path} (h : p.parent? = none) :
    (p.text = [] ∨ p.isAbsolute = true) ∧ ∀ s ∈ p.segments, isIdle s = true := by
  obtain ⟨first, rest, hs⟩ := List.exists_cons_of_ne_nil p.segments_ne_nil
  rw [parent?, hs] at h
  rcases withoutIdleEnd_eq_nil_or rest with hnil | ⟨front, t, hfront, -⟩
  · simp only [hnil, List.reverse_nil, List.isEmpty_iff] at h
    split_ifs at h with hfirst
    subst hfirst
    obtain ⟨idles, hidles, hrest⟩ := exists_withoutIdleEnd_append rest
    constructor
    · by_cases hempty : rest = []
      · rw [text_eq, hs, hempty]
        exact Or.inl rfl
      · exact Or.inr ((isAbsolute_iff hs).mpr ⟨rfl, hempty⟩)
    · rw [hs, hrest, hnil]
      exact List.forall_mem_cons.mpr ⟨rfl, hidles⟩
  · simp only [hfront, List.reverse_append, List.reverse_singleton, List.singleton_append] at h
    split_ifs at h

/-- The parent has one component less. -/
theorem length_components_of_parent? {p q : Path} (h : p.parent? = some q) :
    q.components.length < p.components.length := by
  rcases parent?_cases h with ⟨first, idles, hs, hfirst, -, rfl⟩ | ⟨front, s, idles, hon⟩
  · simp only [components, hs]
    simp [segments, hfirst]
  · simp [hon.components]

/-- What holds of a path if it holds of its parent holds of every path. -/
theorem parent?_induction {motive : Path → Prop}
    (h : ∀ p, (∀ q, p.parent? = some q → motive q) → motive p) (p : Path) : motive p :=
  h p fun q hq =>
    have := length_components_of_parent? hq
    parent?_induction h q
termination_by p.components.length

theorem climb_eq_climb {n m : ℕ} {p : Path} (hn : p.components.length < n)
    (hm : p.components.length < m) : p.climb n = p.climb m := by
  induction n generalizing p m with
  | zero => omega
  | succ n ih =>
    obtain ⟨m, rfl⟩ : ∃ k, m = k + 1 := ⟨m - 1, by omega⟩
    simp only [climb]
    cases h : p.parent? with
    | none => rfl
    | some q =>
      have hlt := length_components_of_parent? h
      exact congrArg _ (ih (by omega) (by omega))

/-- Whatever has a parent stands at the head of its lineage, before that of the parent. -/
theorem lineage_of_parent? {p q : Path} (h : p.parent? = some q) : p.lineage = p :: q.lineage := by
  have hlt := length_components_of_parent? h
  rw [lineage, climb, h]
  simp only
  rw [List.filter_cons_of_pos (by simp [h]), climb_eq_climb hlt (Nat.lt_succ_self _)]
  rfl

theorem lineage_of_parent?_eq_none {p : Path} (h : p.parent? = none) : p.lineage = [] := by
  simp [lineage, climb, h]

theorem isAbsolute_join {p q : Path} (hne : p.text ≠ []) (hq : q.isAbsolute = false) :
    (p.join q).isAbsolute = p.isAbsolute := by
  obtain ⟨c, t, ht⟩ := List.exists_cons_of_ne_nil hne
  rw [join, if_neg (by simp [hq])]
  split_ifs <;> simp [isAbsolute, ht]

/-- What is joined to an absolute path is absolute. -/
theorem isAbsolute_of_join {p q : Path} (h : (p.join q).isAbsolute = false) :
    p.isAbsolute = false := by
  by_contra hp
  have hne : p.text ≠ [] := by
    intro hnil
    simp [isAbsolute, hnil] at hp
  cases hq : q.isAbsolute with
  | true =>
    rw [join, if_pos hq, hq] at h
    cases h
  | false => exact hp (isAbsolute_join hne hq ▸ h)

theorem isAbsolute_of_isEntry {n : Text} (hn : IsEntry n) : (⟨n⟩ : Path).isAbsolute = false := by
  rw [← ofSegments_singleton]
  exact isAbsolute_ofSegments hn.ne_nil hn.noSlash

/-- What is joined to a path comes after its steps. -/
theorem segments_join {p q : Path} (hq : q.isAbsolute = false) :
    ∃ front, (p.join q).segments = front ++ q.segments ∧ steps front = steps p.segments := by
  rw [join, if_neg (by simp [hq])]
  by_cases hne : p.text = []
  · refine ⟨[], by simp [hne, segments], ?_⟩
    rw [segments, hne]
    rfl
  by_cases hslash : p.text.getLast? = some '/'
  · obtain ⟨front, hfront⟩ := List.getLast?_eq_some_iff.mp hslash
    refine ⟨front.splitOn '/', ?_, ?_⟩
    · rw [if_pos (by simp [hslash]), segments, hfront, List.append_assoc, List.singleton_append,
        List.splitOn_append_cons_self, segments]
    · rw [segments, hfront, List.splitOn_append_cons_self, steps_append]
      exact (List.append_nil _).symm
  · refine ⟨p.segments, ?_, rfl⟩
    rw [if_neg (by simp [hslash, hne]), segments, List.splitOn_append_cons_self]
    rfl

theorem segments_of_isEntry {n : Text} (hn : IsEntry n) : (⟨n⟩ : Path).segments = [n] := by
  rw [← ofSegments_singleton]
  exact segments_ofSegments (by simp) (by simpa using hn.noSlash)

end InterfaceGen.Path

namespace InterfaceGen.Place

theorem foldl_follow_steps {p : Place} {segments : List Text} :
    (Path.steps segments).foldl follow p = segments.foldl follow p := by
  induction segments generalizing p with
  | nil => rfl
  | cons s segments ih =>
    cases h : Path.isIdle s with
    | true => rw [Path.steps_cons_of_isIdle h, ih, List.foldl_cons, follow_of_isIdle h]
    | false => rw [Path.steps_cons h, List.foldl_cons, List.foldl_cons, ih]

/-- The normal form of a joined path is where a walk along it ends that starts at the normal form of
the other. -/
theorem ofPath_join {p q : Path} (hq : q.isAbsolute = false) :
    ofPath (p.join q) = q.segments.foldl follow (ofPath p) := by
  by_cases hne : p.text = []
  · have hjoin : p.join q = q := by simp [Path.join, hq, hne]
    have hstart : ofPath p = start := by
      rw [ofPath, Path.components, Path.segments, hne]
      rfl
    rw [hjoin, hstart, ofPath_eq_foldl_follow, hq]
    rfl
  · obtain ⟨front, hs, hsteps⟩ := Path.segments_join hq
    have hfront : ∀ r : Place, front.foldl follow r = p.segments.foldl follow r := fun r => by
      rw [← foldl_follow_steps, hsteps, foldl_follow_steps]
    rw [ofPath_eq_foldl_follow, hs, List.foldl_append, Path.isAbsolute_join hne hq, hfront,
      ← ofPath_eq_foldl_follow]

/-- A path of entries that is joined to another goes on from its normal form. -/
theorem ofPath_join_ofSegments {p : Path} {names : List Text}
    (h : ∀ n ∈ names, Path.IsEntry n) :
    ofPath (p.join (.ofSegments names)) = ⟨(ofPath p).rooted, (ofPath p).names ++ names⟩ := by
  cases names with
  | nil =>
    rw [ofPath_join rfl, List.append_nil]
    rfl
  | cons n names =>
    have hn := h n List.mem_cons_self
    rw [ofPath_join (Path.isAbsolute_ofSegments hn.ne_nil hn.noSlash),
      Path.segments_ofSegments (by simp) fun m hm => (h m hm).noSlash, foldl_follow_of_isEntry h]

theorem rooted_follow {p : Place} (h : p.rooted = true) (s : Text) :
    (p.follow s).rooted = true := by
  unfold follow
  split_ifs <;> exact h

/-- The normal form of an absolute path starts at the root. -/
theorem rooted_ofPath {p : Path} (h : p.isAbsolute = true) : (ofPath p).rooted = true := by
  rw [ofPath_eq_foldl_follow, if_pos h]
  suffices hfold : ∀ (segments : List Text) (q : Place), q.rooted = true →
      (segments.foldl follow q).rooted = true from hfold _ _ rfl
  intro segments
  induction segments with
  | nil => exact fun q hq => hq
  | cons s segments ih => exact fun q hq => ih _ (rooted_follow hq s)

theorem mem_lineage {p r : Place} :
    r ∈ p.lineage ↔ r ≠ start ∧ r.rooted = p.rooted ∧ r.names <+: p.names := by
  simp only [lineage, List.mem_filter, List.mem_map, List.mem_range, decide_eq_true_eq]
  constructor
  · rintro ⟨⟨k, -, rfl⟩, hne⟩
    exact ⟨hne, rfl, List.take_prefix k p.names⟩
  · rintro ⟨hne, hrooted, hnames⟩
    refine ⟨⟨r.names.length, Nat.lt_succ_of_le hnames.length_le, ?_⟩, hne⟩
    rw [← List.prefix_iff_eq_take.mp hnames, ← hrooted]

/-- The place that must be a directory lies above, and it is not where walks start. -/
theorem parent?_eq_some_iff {p q : Place} :
    p.parent? = some q ↔ p.names ≠ [] ∧ p.above ≠ start ∧ q = p.above := by
  unfold parent?
  split_ifs with hnil hstart
  · simp [List.isEmpty_iff.mp hnil]
  · simp [hstart]
  · simp [List.isEmpty_iff.not.mp hnil, hstart, eq_comm]

/-- Making the parent of a path makes what must be a directory for something to be put there. -/
theorem mem_lineage_of_parent? {p q : Path} (h : p.parent? = some q) {r : Place}
    (hr : (ofPath p).parent? = some r) : r ∈ (ofPath q).lineage := by
  obtain ⟨hnames, hne, rfl⟩ := parent?_eq_some_iff.mp hr
  rcases Path.parent?_cases h with ⟨first, idles, hs, hfirst, hidles, rfl⟩ | ⟨front, s, idles, hon⟩
  · -- the only step leads to a name or back to the start, above which there is nothing
    exfalso
    have habs : p.isAbsolute = false := by
      simp [← Bool.not_eq_true, Path.isAbsolute_iff hs, hfirst]
    have hplace : ofPath p = start.follow first := by
      rw [ofPath_eq_foldl_follow, habs, hs, List.foldl_cons, ← foldl_follow_steps,
        Path.steps_of_isIdle hidles]
      rfl
    rw [hplace] at hne
    unfold follow at hne
    split_ifs at hne <;> exact hne rfl
  · have hplace : ofPath p = (ofPath q).step (.ofSegment s) := by
      rw [ofPath, hon.components, List.foldl_append]
      rfl
    rw [mem_lineage]
    refine ⟨hne, ?_⟩
    rw [hplace] at hne ⊢
    by_cases hup : s = ['.', '.']
    · subst hup
      exact ⟨rfl, (List.dropLast_prefix _).trans (List.dropLast_prefix _)⟩
    · have hname : Component.ofSegment s = .name s := by
        have hhere : s ≠ ['.'] := by
          rintro rfl
          exact absurd hon.isIdle (by decide)
        simp [Component.ofSegment, hup, hhere]
      rw [hname]
      exact ⟨rfl, by simp [step, above, child]⟩

/-- Above a path without a parent there is nothing. -/
theorem parent?_eq_none_of_parent?_eq_none {p : Path} (h : p.parent? = none) :
    (ofPath p).parent? = none := by
  obtain ⟨-, hidle⟩ := Path.of_parent?_eq_none h
  have hnames : (ofPath p).names = [] := by
    rw [ofPath_eq_foldl_follow, ← foldl_follow_steps, Path.steps_of_isIdle hidle]
    split_ifs <;> rfl
  simp [parent?, hnames]

end InterfaceGen.Place
