import InterfaceGen.Proofs.Path.Lineage

/-! The normal form of a path as a path. It has the components of the place to which the path leads,
none of which is a dot or a double dot, so it is its own normal form, and two paths have one normal
form if they lead to one place. What is joined to a path goes on from that place by its own
components: it does not matter how the path is spelled. -/

namespace InterfaceGen

namespace Place

/-- Every name of the place is one that an entry of a directory can have. -/
def IsNormal (p : Place) : Prop := ∀ n ∈ p.names, Path.IsEntry n

instance (p : Place) : Decidable p.IsNormal := inferInstanceAs (Decidable (∀ n ∈ p.names, _))

variable {p q : Place}

theorem IsNormal.of_isPrefix (h : p.IsNormal) (hnames : q.names <+: p.names) : q.IsNormal :=
  fun n hn => h n (hnames.subset hn)

theorem IsNormal.child {n : Text} (h : p.IsNormal) (hn : Path.IsEntry n) : (p.child n).IsNormal := by
  intro m hm
  rcases List.mem_append.mp hm with hm | hm
  · exact h m hm
  · exact List.mem_singleton.mp hm ▸ hn

theorem IsNormal.follow {s : Text} (h : p.IsNormal) (hs : '/' ∉ s) : (p.follow s).IsNormal := by
  unfold Place.follow
  split_ifs with hidle hup
  · exact h
  · exact h.of_isPrefix (List.dropLast_prefix _)
  · obtain ⟨hne, hhere⟩ : s ≠ [] ∧ s ≠ ['.'] := by simpa [Path.isIdle] using hidle
    exact h.child ⟨hne, hs, hhere, hup⟩

/-- A walk along segments without slashes stays among normal places. -/
theorem IsNormal.foldl_follow {segments : List Text} (h : p.IsNormal)
    (hs : ∀ s ∈ segments, '/' ∉ s) : (segments.foldl Place.follow p).IsNormal := by
  induction segments generalizing p with
  | nil => exact h
  | cons s segments ih =>
    exact ih (h.follow (hs s List.mem_cons_self)) fun t ht => hs t (List.mem_cons_of_mem s ht)

theorem isNormal_ofPath (q : Path) : (ofPath q).IsNormal := by
  rw [ofPath_eq_foldl_follow]
  refine IsNormal.foldl_follow ?_ fun s hs => Path.noSlash_of_mem_segments hs
  split_ifs <;> exact fun n hn => absurd hn List.not_mem_nil

/-- A normal place is written with the components that it has. -/
theorem components_toPath (h : p.IsNormal) : p.toPath.components = p.components := by
  have hslash : ∀ n ∈ p.names, '/' ∉ n := fun n hn => (h n hn).noSlash
  have hidle : ∀ n ∈ p.names, Path.isIdle n = false := fun n hn => (h n hn).isIdle
  have hmap : p.names.map Component.ofSegment = p.names.map .name :=
    List.map_congr_left fun n hn => (h n hn).ofSegment
  obtain ⟨rooted, names⟩ := p
  cases rooted with
  | false => exact (Path.components_ofSegments hslash hidle).trans hmap
  | true =>
    by_cases hnil : names = []
    · subst hnil
      rfl
    · have hpath : toPath ⟨true, names⟩ = Path.ofSegments ([] :: names) := by
        rw [toPath, Path.ofSegments, List.intercalate_cons_of_ne_nil hnil]
        rfl
      have hsegments : (Path.ofSegments ([] :: names)).segments = [] :: names :=
        Path.segments_ofSegments (by simp) (List.forall_mem_cons.mpr ⟨by simp, hslash⟩)
      have hrest : names.filter (!Path.isIdle ·) = names :=
        List.filter_eq_self.mpr fun n hn => by simp [hidle n hn]
      rw [hpath, Path.components, hsegments]
      simpa [hnil, hrest, components] using hmap

theorem foldl_step_name (names : List Text) :
    (names.map Component.name).foldl step p = ⟨p.rooted, p.names ++ names⟩ := by
  induction names generalizing p with
  | nil => simp
  | cons n names ih =>
    rw [List.map_cons, List.foldl_cons, ih]
    simp [step, child]

/-- The steps to the components of a place lead to it. -/
theorem foldl_step_components_start (p : Place) : p.components.foldl step start = p := by
  obtain ⟨rooted, names⟩ := p
  rw [components, List.foldl_append, foldl_step_name]
  cases rooted <;> rfl

theorem ofPath_toPath (h : p.IsNormal) : ofPath p.toPath = p := by
  rw [ofPath, components_toPath h, foldl_step_components_start]

/-- What is joined to a path goes on from its place, or starts anew at the root. -/
theorem ofPath_join_eq_foldl_step (a b : Path) :
    ofPath (a.join b) = b.components.foldl step (ofPath a) := by
  rw [foldl_step_components]
  cases hb : b.isAbsolute with
  | true => rw [Path.join, if_pos hb, ofPath_eq_foldl_follow, hb, if_pos rfl, if_pos rfl]
  | false => exact ofPath_join hb

/-- Steps to names lead further down. -/
theorem components_foldl_step {cs : List Component} (h : ∀ c ∈ cs, ∃ n, c = .name n) :
    p.components <+: (cs.foldl step p).components := by
  induction cs generalizing p with
  | nil => exact List.prefix_rfl
  | cons c cs ih =>
    obtain ⟨⟨n, rfl⟩, hcs⟩ := List.forall_mem_cons.mp h
    have hchild : p.components <+: (p.child n).components := by
      rw [components, components, child, List.map_append, ← List.append_assoc]
      exact List.prefix_append _ _
    exact hchild.trans (ih hcs)

end Place

namespace Path

variable {a b : Path}

theorem components_normalize (a : Path) : a.normalize.components = (Place.ofPath a).components :=
  Place.components_toPath (Place.isNormal_ofPath a)

@[simp] theorem ofPath_normalize (a : Path) : Place.ofPath a.normalize = .ofPath a :=
  Place.ofPath_toPath (Place.isNormal_ofPath a)

@[simp] theorem normalize_normalize (a : Path) : a.normalize.normalize = a.normalize := by
  rw [normalize, ofPath_normalize, normalize]

theorem normalize_eq_iff : a.normalize = b.normalize ↔ Place.ofPath a = .ofPath b := by
  refine ⟨fun h => ?_, fun h => congrArg Place.toPath h⟩
  rw [← ofPath_normalize a, h, ofPath_normalize]

/-- Neither a dot nor a double dot is left. -/
theorem exists_of_mem_components_normalize {c : Component} (h : c ∈ a.normalize.components) :
    c = .root ∨ ∃ n, c = .name n := by
  rw [components_normalize, Place.components, List.mem_append] at h
  rcases h with h | h
  · split_ifs at h
    · exact Or.inl (List.mem_singleton.mp h)
    · cases h
  · obtain ⟨n, -, rfl⟩ := List.mem_map.mp h
    exact Or.inr ⟨n, rfl⟩

theorem normalize_join (a b : Path) : (a.join b).normalize = (a.normalize.join b).normalize := by
  rw [normalize_eq_iff, Place.ofPath_join_eq_foldl_step, Place.ofPath_join_eq_foldl_step,
    ofPath_normalize]

/-- A path of names leads to what lies within the path to which it is joined. -/
theorem components_normalize_join (a : Path) (h : ∀ c ∈ b.components, ∃ n, c = .name n) :
    a.normalize.components <+: (a.join b).normalize.components := by
  rw [components_normalize, components_normalize, Place.ofPath_join_eq_foldl_step]
  exact Place.components_foldl_step h

end Path

end InterfaceGen
