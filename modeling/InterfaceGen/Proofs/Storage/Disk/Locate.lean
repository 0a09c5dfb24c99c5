import InterfaceGen.Proofs.Storage.Disk.Walk

/-! Paths on a disk. An operation on a path either follows it to the end or stops at the directory
that holds its last segment; slashes after that segment do not count. -/

namespace InterfaceGen

namespace Disk

variable {d : Disk} {q : Path} {dir y : Place} {comp : Component} {above : List Text} {last : Text}

/-- Where a path leads if nothing is in its way. -/
def place (d : Disk) (q : Path) : Place := q.segments.foldl Place.follow (d.origin q)

theorem isDirectory_iff :
    d.isDirectory q = true ↔ pathFault? q = none ∧ d.Leads (d.origin q) q.segments := by
  unfold isDirectory locate
  cases hf : pathFault? q with
  | some fault => simp
  | none =>
    cases hw : d.walk (d.origin q) q.segments with
    | ok y =>
      simp only [true_and]
      exact ⟨leads_of_walk hw, fun h => by
        rw [eq_foldl_of_walk hw]
        exact h.hasDir_end⟩
    | error fault =>
      simp only [Bool.false_eq_true, true_and, false_iff]
      intro h
      rw [h.walk] at hw
      cases hw

theorem locate_of_isDirectory (h : d.isDirectory q = true) :
    d.locate q = .ok (d.place q) ∧ d.tree.hasDir (d.place q) = true := by
  obtain ⟨hf, hl⟩ := isDirectory_iff.mp h
  refine ⟨?_, hl.hasDir_end⟩
  rw [locate, hf]
  exact hl.walk

theorem pathExists_of_isDirectory (h : d.isDirectory q = true) : d.pathExists q = true := by
  rw [pathExists, (locate_of_isDirectory h).1]
  rfl

theorem place_of_locate (h : d.locate q = .ok y) : y = d.place q := by
  unfold locate at h
  split at h
  · cases h
  · exact eq_foldl_of_walk h

theorem locate_of_pathExists (h : d.pathExists q = true) : d.locate q = .ok (d.place q) := by
  cases hlocate : d.locate q with
  | error fault =>
    rw [pathExists, hlocate] at h
    cases h
  | ok y => rw [place_of_locate hlocate]

/-- What a path leads to is there. -/
theorem contains_of_locate (hd : d.tree.WellFormed) (h : d.locate q = .ok y) :
    d.tree.contains y = true := by
  unfold locate at h
  split at h
  · cases h
  · obtain ⟨first, rest, hs⟩ := List.exists_cons_of_ne_nil q.segments_ne_nil
    refine contains_of_walk hd ?_ h
    by_contra hstart
    have hdir : ¬d.tree.hasDir (d.origin q) = true := fun hdir =>
      hstart (Tree.contains_of_hasDir hdir)
    simp [hs, walk, hdir] at h

/-- A path that leads to a directory leads there. -/
theorem isDirectory_of_locate (h : d.locate q = .ok y) (hy : d.tree.hasDir y = true) :
    d.isDirectory q = true := by
  rw [isDirectory, h]
  exact hy

theorem holder_of_endsWith (he : q.EndsWith above last) (hf : pathFault? q = none) :
    d.holder q = d.walk (d.origin q) above >>= fun dir =>
      if d.tree.hasDir dir = true then .ok (dir, .ofSegment last)
      else .error (.system .notDirectory) := by
  rw [holder, hf, he.dropWhile]
  simp

theorem holder_eq_ok_iff (he : q.EndsWith above last) : d.holder q = .ok (dir, comp) ↔
    pathFault? q = none ∧ d.Leads (d.origin q) above ∧
      dir = above.foldl Place.follow (d.origin q) ∧ comp = .ofSegment last := by
  cases hf : pathFault? q with
  | some fault => simp [holder, hf]
  | none =>
    rw [holder_of_endsWith he hf]
    constructor
    · intro h
      cases hw : d.walk (d.origin q) above with
      | error fault =>
        rw [hw] at h
        cases h
      | ok y =>
        rw [hw] at h
        change (if d.tree.hasDir y = true then _ else _) = _ at h
        split_ifs at h with hy
        obtain ⟨rfl, rfl⟩ := Prod.mk.inj (Except.ok.inj h)
        exact ⟨rfl, leads_of_walk hw hy, eq_foldl_of_walk hw, rfl⟩
    · rintro ⟨-, hl, rfl, rfl⟩
      rw [hl.walk]
      exact if_pos hl.hasDir_end

/-- A path of slashes is the root, which no directory holds. -/
theorem holder_of_forall_nil (h : ∀ s ∈ q.segments, s = []) (hf : pathFault? q = none) :
    d.holder q = .ok (.root, .root) := by
  have hdrop : q.segments.reverse.dropWhile (·.isEmpty) = [] := by
    rw [List.dropWhile_eq_nil_iff]
    intro s hs
    simp [h s (List.mem_reverse.mp hs)]
  rw [holder, hf, hdrop]

theorem origin_of_forall_nil (h : ∀ s ∈ q.segments, s = []) (hf : pathFault? q = none) :
    d.origin q = .root := by
  have htext : q.text ≠ [] := by
    intro hnil
    simp [pathFault?, hnil] at hf
  obtain ⟨first, rest, hs⟩ := List.exists_cons_of_ne_nil q.segments_ne_nil
  have hrest : rest ≠ [] := by
    rintro rfl
    have hfirst := h first (by simp [hs])
    rw [hfirst] at hs
    exact htext (by rw [q.text_eq, hs, Path.ofSegments_singleton])
  have habs : q.isAbsolute = true := (Path.isAbsolute_iff hs).mpr ⟨h first (by simp [hs]), hrest⟩
  simp [origin, habs]

theorem place_of_forall_nil (h : ∀ s ∈ q.segments, s = []) (hf : pathFault? q = none) :
    d.place q = .root := by
  have hidle : ∀ s ∈ q.segments, Path.isIdle s = true := by
    intro s hs
    rw [h s hs]
    rfl
  rw [place, origin_of_forall_nil h hf, Place.foldl_follow_of_isIdle hidle]

theorem place_of_endsWith (he : q.EndsWith above last) :
    d.place q = (above.foldl Place.follow (d.origin q)).follow last := by
  obtain ⟨-, k, hs⟩ := he
  rw [place, hs, List.foldl_append, List.foldl_cons,
    Place.foldl_follow_of_isIdle fun _ => Path.isIdle_of_mem_replicate]

theorem leads_of_endsWith (he : q.EndsWith above last) :
    d.Leads (d.origin q) q.segments ↔ d.Leads (d.origin q) above ∧
      Text.utf8Size last ≤ nameLimit ∧ d.tree.hasDir (d.place q) = true := by
  have hplace := place_of_endsWith (d := d) he
  obtain ⟨-, k, hs⟩ := he
  rw [hplace, hs, leads_append, leads_cons, leads_of_isIdle fun _ => Path.isIdle_of_mem_replicate]
  constructor
  · rintro ⟨ha, hl, -, hd⟩
    exact ⟨ha, hl, hd⟩
  · rintro ⟨ha, hl, hd⟩
    exact ⟨ha, hl, ha.hasDir_end, hd⟩

/-- An operation that every path to no entry stops succeeds where it finds the directory that holds
an entry, and succeeds on the two. -/
theorem bind_holder_eq_ok_iff {α : Type} {act : Place × Component → Except Fault α} {a : α}
    (hact : ∀ dir comp, act (dir, comp) = .ok a → ∃ n, comp = .name n) :
    (d.holder q >>= act) = .ok a ↔
      ∃ dir n, d.holder q = .ok (dir, .name n) ∧ act (dir, .name n) = .ok a := by
  constructor
  · intro h
    cases hholder : d.holder q with
    | error fault => simp [hholder, bind, Except.bind] at h
    | ok found =>
      obtain ⟨dir, comp⟩ := found
      rw [hholder] at h
      obtain ⟨n, rfl⟩ := hact dir comp h
      exact ⟨dir, n, rfl, h⟩
  · rintro ⟨dir, n, hholder, h⟩
    rw [hholder]
    exact h

/-- What an operation that puts an entry into a directory asks of a path. -/
theorem holder_eq_name_iff {n : Text} : d.holder q = .ok (dir, .name n) ↔
    ∃ above, q.EndsWith above n ∧ Path.IsEntry n ∧ pathFault? q = none ∧
      d.Leads (d.origin q) above ∧ dir = above.foldl Place.follow (d.origin q) := by
  constructor
  · intro h
    rcases q.endsWith_or_forall_nil with ⟨above, last, he⟩ | hnil
    · obtain ⟨hf, hl, hdir, hcomp⟩ := (holder_eq_ok_iff he).mp h
      unfold Component.ofSegment at hcomp
      split_ifs at hcomp with hhere hup
      obtain rfl := Component.name.inj hcomp
      exact ⟨above, he, he.isEntry hhere hup, hf, hl, hdir⟩
    · cases hf : pathFault? q with
      | none => simp [holder_of_forall_nil hnil hf] at h
      | some fault => simp [holder, hf] at h
  · rintro ⟨above, he, hn, hf, hl, hdir⟩
    exact (holder_eq_ok_iff he).mpr ⟨hf, hl, hdir, hn.ofSegment.symm⟩

theorem place_of_holder {n : Text} (h : d.holder q = .ok (dir, .name n)) :
    d.place q = dir.child n := by
  obtain ⟨above, he, hn, -, -, rfl⟩ := holder_eq_name_iff.mp h
  rw [place_of_endsWith he, Place.follow_of_isEntry hn]

theorem hasDir_of_holder {n : Text} (h : d.holder q = .ok (dir, .name n)) :
    d.tree.hasDir dir = true := by
  obtain ⟨above, -, -, -, hl, rfl⟩ := holder_eq_name_iff.mp h
  exact hl.hasDir_end

theorem isEntry_of_holder {n : Text} (h : d.holder q = .ok (dir, .name n)) : Path.IsEntry n := by
  obtain ⟨-, -, hn, -⟩ := holder_eq_name_iff.mp h
  exact hn

section Parent

variable {p : Path} {front idles : List Text} {s : Text} (hon : p.GoesOn q front s idles)

include hon

/-- The walks to a path and to its parent begin at the same place. -/
theorem origin_of_goesOn : d.origin q = d.origin p := by
  rw [origin, origin, hon.isAbsolute]

theorem leads_of_goesOn : d.Leads (d.origin q) q.segments ↔ d.Leads (d.origin p) front := by
  rw [origin_of_goesOn hon, ← leads_steps, hon.steps, leads_steps]

/-- A parent that ends in a dot is the place where the walk to the path begins. -/
theorem place_of_goesOn (h : q.EndsInDot) : d.place q = d.origin p := by
  rw [place, hon.endsInDot h, origin_of_goesOn hon]
  rfl

end Parent

section Join

variable {p : Path} {n : Text}

/-- A walk along a joined path starts where the one along the first part does. -/
theorem origin_join (hq : q.isAbsolute = false) : d.origin (p.join q) = d.origin p := by
  unfold origin
  by_cases hne : p.text = []
  · have hp : p.isAbsolute = false := by simp [Path.isAbsolute, hne]
    rw [show p.join q = q by simp [Path.join, hq, hne], hp, hq]
  · rw [Path.isAbsolute_join hne hq]

/-- The first segments of a joined path lead where the first part does. -/
theorem segments_join (hq : q.isAbsolute = false) :
    ∃ front, (p.join q).segments = front ++ q.segments ∧
      Path.steps front = Path.steps p.segments ∧
      front.foldl Place.follow (d.origin p) = d.place p := by
  obtain ⟨front, hs, hsteps⟩ := Path.segments_join (p := p) hq
  refine ⟨front, hs, hsteps, ?_⟩
  rw [← Place.foldl_follow_steps, hsteps, Place.foldl_follow_steps, place]

/-- The walk stands at the places of the first part, and from the end of that at those of the
second. -/
theorem mem_trail_join (hq : q.isAbsolute = false) :
    y ∈ (d.origin (p.join q)).trail (p.join q).segments ↔
      y ∈ (d.origin p).trail p.segments ∨ y ∈ (d.place p).trail q.segments := by
  obtain ⟨front, hs, hsteps, hplace⟩ := segments_join (d := d) (p := p) hq
  rw [origin_join hq, hs, Place.mem_trail_append, hplace, ← Place.mem_trail_steps, hsteps,
    Place.mem_trail_steps]

theorem place_join (hq : q.isAbsolute = false) :
    d.place (p.join q) = q.segments.foldl Place.follow (d.place p) := by
  obtain ⟨front, hs, -, hplace⟩ := segments_join (d := d) (p := p) hq
  rw [place, origin_join hq, hs, List.foldl_append, hplace]

theorem origin_child (hn : Path.IsEntry n) : d.origin (p.child n) = d.origin p :=
  origin_join (Path.isAbsolute_of_isEntry hn)

/-- The place of an entry is one step below that of its directory. -/
theorem place_child (hn : Path.IsEntry n) : d.place (p.child n) = (d.place p).child n := by
  have hsegments : (⟨n⟩ : Path).segments = [n] := Path.segments_of_isEntry hn
  rw [Path.child, place_join (Path.isAbsolute_of_isEntry hn), hsegments]
  exact Place.follow_of_isEntry hn

end Join

end Disk

end InterfaceGen
