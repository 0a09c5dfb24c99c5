import InterfaceGen.Proofs.Path.Lineage
import InterfaceGen.Proofs.Storage.Tree
import InterfaceGen.Storage.Disk

/-! Walks on a disk. Where a walk ends is a matter of its segments alone; the disk decides only
whether it gets there. So a walk is described by its trail, the places at which it stands one after
the other: it arrives at a directory if all of the trail are directories and no segment is too long.
-/

namespace InterfaceGen

namespace Place

/-- The places at which a walk stands, from its start to its end. -/
def trail (p : Place) : List Text → List Place
  | [] => [p]
  | s :: rest => p :: (p.follow s).trail rest

@[simp] theorem trail_nil (p : Place) : p.trail [] = [p] := rfl

@[simp] theorem trail_cons (p : Place) (s : Text) (rest : List Text) :
    p.trail (s :: rest) = p :: (p.follow s).trail rest := rfl

theorem self_mem_trail (p : Place) (segments : List Text) : p ∈ p.trail segments := by
  cases segments <;> simp

theorem mem_trail_append {p q : Place} {segments rest : List Text} :
    q ∈ p.trail (segments ++ rest) ↔
      q ∈ p.trail segments ∨ q ∈ (segments.foldl follow p).trail rest := by
  induction segments generalizing p with
  | nil =>
    have := self_mem_trail p rest
    simp only [List.nil_append, trail_nil, List.mem_singleton, List.foldl_nil]
    constructor
    · exact Or.inr
    · rintro (rfl | h)
      · exact this
      · exact h
  | cons s segments ih => simp [ih, or_assoc]

theorem foldl_follow_mem_trail (p : Place) (segments : List Text) :
    segments.foldl follow p ∈ p.trail segments := by
  induction segments generalizing p with
  | nil => simp
  | cons s segments ih => exact List.mem_cons_of_mem p (ih (p.follow s))

/-- Idle segments lead nowhere. -/
theorem mem_trail_of_isIdle {p q : Place} {segments : List Text}
    (h : ∀ s ∈ segments, Path.isIdle s = true) : q ∈ p.trail segments ↔ q = p := by
  induction segments with
  | nil => simp
  | cons s segments ih =>
    rw [trail_cons, follow_of_isIdle (h s List.mem_cons_self), List.mem_cons,
      ih fun t ht => h t (List.mem_cons_of_mem s ht), or_self]

theorem foldl_follow_of_isIdle {p : Place} {segments : List Text}
    (h : ∀ s ∈ segments, Path.isIdle s = true) : segments.foldl follow p = p :=
  (mem_trail_of_isIdle h).mp (foldl_follow_mem_trail p segments)

/-- A walk stands at the same places without the idle segments. -/
theorem mem_trail_steps {p q : Place} {segments : List Text} :
    q ∈ p.trail (Path.steps segments) ↔ q ∈ p.trail segments := by
  induction segments generalizing p with
  | nil => rfl
  | cons s segments ih =>
    cases h : Path.isIdle s with
    | true =>
      have hself : q = p → q ∈ p.trail segments := fun hq => hq ▸ self_mem_trail p segments
      rw [Path.steps_cons_of_isIdle h, ih, trail_cons, follow_of_isIdle h, List.mem_cons]
      tauto
    | false => rw [Path.steps_cons h, trail_cons, trail_cons, List.mem_cons, List.mem_cons, ih]

end Place

namespace Disk

variable {d : Disk} {p y : Place} {segments rest : List Text}

/-- No segment is longer than the name of an entry may be. -/
def Fits (segments : List Text) : Prop := ∀ s ∈ segments, Text.utf8Size s ≤ nameLimit

/-- A walk finds a directory wherever it stands, up to its end. -/
structure Leads (d : Disk) (p : Place) (segments : List Text) : Prop where
  fits : Fits segments
  dirs : ∀ q ∈ p.trail segments, d.tree.hasDir q = true

theorem utf8Size_le_of_isIdle {s : Text} (h : Path.isIdle s = true) :
    Text.utf8Size s ≤ nameLimit := by
  simp only [Path.isIdle, Bool.or_eq_true, List.isEmpty_iff, beq_iff_eq] at h
  rcases h with rfl | rfl <;> decide

theorem fits_of_isIdle (h : ∀ s ∈ segments, Path.isIdle s = true) : Fits segments :=
  fun s hs => utf8Size_le_of_isIdle (h s hs)

theorem fits_append : Fits (segments ++ rest) ↔ Fits segments ∧ Fits rest := by
  simp [Fits, or_imp, forall_and]

namespace Leads

theorem hasDir_start (h : d.Leads p segments) : d.tree.hasDir p = true :=
  h.dirs p (p.self_mem_trail segments)

theorem hasDir_end (h : d.Leads p segments) :
    d.tree.hasDir (segments.foldl Place.follow p) = true :=
  h.dirs _ (p.foldl_follow_mem_trail segments)

end Leads

theorem leads_nil : d.Leads p [] ↔ d.tree.hasDir p = true :=
  ⟨Leads.hasDir_start, fun h => ⟨by simp [Fits], by simpa using h⟩⟩

theorem leads_cons {s : Text} : d.Leads p (s :: rest) ↔
    Text.utf8Size s ≤ nameLimit ∧ d.tree.hasDir p = true ∧ d.Leads (p.follow s) rest := by
  constructor
  · rintro ⟨hfits, hdirs⟩
    exact ⟨hfits s List.mem_cons_self, hdirs p List.mem_cons_self,
      fun t ht => hfits t (List.mem_cons_of_mem s ht),
      fun q hq => hdirs q (List.mem_cons_of_mem p hq)⟩
  · rintro ⟨hs, hp, hrest⟩
    exact ⟨List.forall_mem_cons.mpr ⟨hs, hrest.fits⟩, List.forall_mem_cons.mpr ⟨hp, hrest.dirs⟩⟩

theorem leads_append : d.Leads p (segments ++ rest) ↔
    d.Leads p segments ∧ d.Leads (segments.foldl Place.follow p) rest := by
  constructor
  · rintro ⟨hfits, hdirs⟩
    obtain ⟨hf, hf'⟩ := fits_append.mp hfits
    exact ⟨⟨hf, fun q hq => hdirs q (Place.mem_trail_append.mpr (Or.inl hq))⟩,
      ⟨hf', fun q hq => hdirs q (Place.mem_trail_append.mpr (Or.inr hq))⟩⟩
  · rintro ⟨⟨hf, hd⟩, ⟨hf', hd'⟩⟩
    refine ⟨fits_append.mpr ⟨hf, hf'⟩, fun q hq => ?_⟩
    rcases Place.mem_trail_append.mp hq with hq | hq
    · exact hd q hq
    · exact hd' q hq

theorem leads_of_isIdle (h : ∀ s ∈ segments, Path.isIdle s = true) :
    d.Leads p segments ↔ d.tree.hasDir p = true :=
  ⟨Leads.hasDir_start, fun hp =>
    ⟨fits_of_isIdle h, fun _ hq => (Place.mem_trail_of_isIdle h).mp hq ▸ hp⟩⟩

theorem leads_steps : d.Leads p (Path.steps segments) ↔ d.Leads p segments := by
  constructor
  · rintro ⟨hfits, hdirs⟩
    refine ⟨fun s hs => ?_, fun q hq => hdirs q (Place.mem_trail_steps.mpr hq)⟩
    cases hidle : Path.isIdle s with
    | true => exact utf8Size_le_of_isIdle hidle
    | false => exact hfits s (List.mem_filter.mpr ⟨hs, by simp [hidle]⟩)
  · rintro ⟨hfits, hdirs⟩
    exact ⟨fun s hs => hfits s (List.mem_of_mem_filter hs),
      fun q hq => hdirs q (Place.mem_trail_steps.mp hq)⟩

/-- A walk that stands at a directory takes its first step. -/
theorem walk_cons {s : Text} (hp : d.tree.hasDir p = true) : d.walk p (s :: rest) =
    if Path.isIdle s = true ∨ s = ['.', '.'] then d.walk (p.follow s) rest
    else if Text.utf8Size s > nameLimit then .error (.system .nameTooLong)
    else if d.tree.contains (p.follow s) = true then d.walk (p.follow s) rest
    else .error (.system .noEntry) := by
  rw [walk, hp]
  by_cases hidle : Path.isIdle s = true
  · simp [hidle, Place.follow]
  · by_cases hup : s = ['.', '.'] <;> simp [hidle, hup, Place.follow]
    simp [hup] at hidle
    simp [hidle]

/-- The end of a walk depends on the segments alone. -/
theorem eq_foldl_of_walk (h : d.walk p segments = .ok y) : y = segments.foldl Place.follow p := by
  induction segments generalizing p with
  | nil => exact (Except.ok.inj h).symm
  | cons s segments ih =>
    by_cases hp : d.tree.hasDir p = true
    · rw [walk_cons hp] at h
      split_ifs at h <;> exact ih h
    · simp [walk, hp] at h

theorem walk_append :
    d.walk p (segments ++ rest) = d.walk p segments >>= fun q => d.walk q rest := by
  induction segments generalizing p with
  | nil => rfl
  | cons s segments ih =>
    by_cases hp : d.tree.hasDir p = true
    · rw [List.cons_append, walk_cons hp, walk_cons hp]
      split_ifs <;> first | exact ih | rfl
    · simp only [List.cons_append, walk, hp]
      rfl

theorem Leads.walk (h : d.Leads p segments) :
    d.walk p segments = .ok (segments.foldl Place.follow p) := by
  induction segments generalizing p with
  | nil => rfl
  | cons s segments ih =>
    obtain ⟨hs, hp, hrest⟩ := leads_cons.mp h
    have hc : d.tree.contains (p.follow s) = true := Tree.contains_of_hasDir hrest.hasDir_start
    rw [walk_cons hp, if_neg (Nat.not_lt.mpr hs), if_pos hc, ite_self, ih hrest, List.foldl_cons]

/-- A walk that arrives at a directory has stood at directories only. -/
theorem leads_of_walk (h : d.walk p segments = .ok y) (hy : d.tree.hasDir y = true) :
    d.Leads p segments := by
  induction segments generalizing p with
  | nil =>
    obtain rfl := Except.ok.inj h
    exact leads_nil.mpr hy
  | cons s segments ih =>
    by_cases hp : d.tree.hasDir p = true
    · have hsize : Text.utf8Size s ≤ nameLimit ∧ d.walk (p.follow s) segments = .ok y := by
        rw [walk_cons hp] at h
        split_ifs at h with hs hlong hc
        · refine ⟨?_, h⟩
          rcases hs with hs | rfl
          · exact utf8Size_le_of_isIdle hs
          · decide
        · exact ⟨Nat.not_lt.mp hlong, h⟩
      exact leads_cons.mpr ⟨hsize.1, hp, ih hsize.2⟩
    · simp [Disk.walk, hp] at h

/-- What a walk arrives at is there. -/
theorem contains_of_walk (hd : d.tree.WellFormed) (hp : d.tree.contains p = true)
    (h : d.walk p segments = .ok y) : d.tree.contains y = true := by
  induction segments generalizing p with
  | nil => rwa [← Except.ok.inj h]
  | cons s segments ih =>
    by_cases hdir : d.tree.hasDir p = true
    · rw [walk_cons hdir] at h
      split_ifs at h with hstay hlong hc
      · refine ih ?_ h
        rcases hstay with hidle | rfl
        · rwa [Place.follow_of_isIdle hidle]
        · exact Tree.contains_of_hasDir (hd.hasDir_above hdir)
      · exact ih hc h
    · simp [walk, hdir] at h

/-- Where no file stands in its way, a walk arrives at a directory or meets a place where nothing
is. -/
theorem leads_or_noEntry (hd : d.tree.WellFormed) (hp : d.tree.hasDir p = true)
    (hfits : Fits segments)
    (hway : ∀ q ∈ p.trail segments, d.tree.contains q = true → d.tree.hasDir q = true) :
    d.Leads p segments ∨ d.walk p segments = .error (.system .noEntry) := by
  induction segments generalizing p with
  | nil => exact Or.inl (leads_nil.mpr hp)
  | cons s segments ih =>
    have hs : Text.utf8Size s ≤ nameLimit := hfits s List.mem_cons_self
    have next : d.tree.hasDir (p.follow s) = true → d.Leads p (s :: segments) ∨
        d.walk (p.follow s) segments = .error (.system .noEntry) := fun hnext =>
      (ih hnext (fun t ht => hfits t (List.mem_cons_of_mem s ht))
        fun q hq => hway q (List.mem_cons_of_mem p hq)).imp_left fun h => leads_cons.mpr ⟨hs, hp, h⟩
    rw [walk_cons hp, if_neg (Nat.not_lt.mpr hs)]
    split_ifs with hstay hc
    · apply next
      rcases hstay with hidle | rfl
      · rwa [Place.follow_of_isIdle hidle]
      · exact hd.hasDir_above hp
    · exact next (hway _ (List.mem_cons_of_mem p (Place.self_mem_trail _ _)) hc)
    · exact Or.inr rfl

end Disk

end InterfaceGen
