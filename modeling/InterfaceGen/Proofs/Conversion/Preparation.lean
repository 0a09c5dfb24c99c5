import InterfaceGen.Proofs.Conversion.Steps

/-! What a conversion prepares before it reads, and what a later run of it finds to prepare. The
first run leaves its directories behind, so the second has nothing to make; what it clears it makes
again. -/

namespace InterfaceGen.Plan

variable {plan : Plan} {d d₁ d₂ p r t : Disk}

theorem ensureWorking_grows (hd : d.tree.WellFormed)
    (h : exec (plan.ensureWorking : ExceptT _ (StateM Disk) _) d = (.ok (), d₁)) :
    d₁.tree.WellFormed ∧ d.Grows d₁ := by
  rw [exec_ensureWorking_eq_ok_iff] at h
  split_ifs at h
  · rw [h]
    exact ⟨hd, .refl d⟩
  · obtain ⟨hwf, hgrows, -⟩ := Disk.makeDirectories_grows hd h
    exact ⟨hwf, hgrows⟩

theorem exec_ensureWorking_of_isDirectory (h : t.isDirectory plan.working = true) :
    exec (plan.ensureWorking : ExceptT _ (StateM Disk) _) t = (.ok (), t) := by
  rw [exec_ensureWorking_eq_ok_iff, if_pos (Disk.pathExists_of_isDirectory h)]

theorem exec_prepare_of_kept (hworking : t.isDirectory plan.working = true)
    (hkept : plan.clean = true → t.pathExists plan.output = false)
    (hmake : t.makeDirectories plan.output = (.ok (), t)) :
    exec (plan.prepare : ExceptT _ (StateM Disk) _) t = (.ok (), t) := by
  refine exec_prepare_eq_ok_iff.mpr ⟨t, t, exec_ensureWorking_of_isDirectory hworking, ?_, hmake⟩
  split_ifs with hclean
  · rw [exec_clearOutput_eq_ok_iff, if_neg (by simp [hkept hclean])]
  · rfl

theorem exec_prepare_of_cleared (hworking : t.isDirectory plan.working = true)
    (hclean : plan.clean = true) (houtput : t.isDirectory plan.output = true)
    (hapart : (t.place plan.working).isWithin (t.place plan.output) = false)
    (hremove : t.removeTree plan.output = (.ok (), r))
    (hmake : r.makeDirectories plan.output = (.ok (), p)) :
    exec (plan.prepare : ExceptT _ (StateM Disk) _) t = (.ok (), p) := by
  refine exec_prepare_eq_ok_iff.mpr ⟨t, r, exec_ensureWorking_of_isDirectory hworking, ?_, hmake⟩
  rw [if_pos hclean, exec_clearOutput_eq_ok_iff, if_pos (Disk.pathExists_of_isDirectory houtput)]
  exact ⟨_, _, (Disk.locate_of_isDirectory hworking).1, (Disk.locate_of_isDirectory houtput).1,
    hapart, hremove⟩

/-- A conversion on `t` clears the place `q` before it reads. -/
def ClearsAt (plan : Plan) (t : Disk) (q : Place) : Prop :=
  plan.clean = true ∧ ∃ o, t.locate plan.output = .ok o ∧ q.isWithin o = true

/-- The output directory of a conversion that has been run on `d` with the result `t` may be
cleared: it was there before and has been cleared already, or it is new. -/
def ClearsAgain (plan : Plan) (d t : Disk) : Prop :=
  plan.clean = true → ∀ o, t.locate plan.output = .ok o →
    let d₁ := (exec (plan.ensureWorking : ExceptT _ (StateM Disk) _) d).2
    d₁.pathExists plan.output = true ∨ ¬plan.output.EndsInDot ∧ d₁.tree.contains o = false

/-- The disk `p'`, prepared from `t`, is as good for the plan as `p`: it is part of `t`, it lacks of
the files of `t` those that are cleared, these were no part of `p` either, and nothing more is
locked. -/
structure Reprepares (plan : Plan) (p t p' : Disk) : Prop where
  wellFormed : p'.tree.WellFormed
  partOf : p'.PartOf t
  dirs : ∀ q, p.tree.hasDir q = true → p'.tree.hasDir q = true
  start : plan.output.isAbsolute = false → p'.tree.hasDir p'.current = true
  cleared : ∀ q, plan.ClearsAt t q → p.tree.file? q = none ∧ p'.tree.file? q = none
  kept : ∀ q, ¬plan.ClearsAt t q → p'.tree.file? q = t.tree.file? q
  locked : ∀ q, p'.tree.isLocked q = true → p.tree.isLocked q = true

theorem not_clearsAt_of_missing (h : plan.clean = true → t.pathExists plan.output = false)
    (q : Place) : ¬plan.ClearsAt t q := by
  rintro ⟨hclean, o, ho, -⟩
  have hmissing := h hclean
  rw [Disk.pathExists, ho] at hmissing
  cases hmissing

theorem clearsAt_iff (hclean : plan.clean = true) (hdir : t.isDirectory plan.output = true)
    {q : Place} : plan.ClearsAt t q ↔ q.isWithin (t.place plan.output) = true := by
  have hlocate := (Disk.locate_of_isDirectory hdir).1
  constructor
  · rintro ⟨-, o, ho, hq⟩
    rw [hlocate] at ho
    rwa [Except.ok.inj ho]
  · exact fun hq => ⟨hclean, _, hlocate, hq⟩

/-- Once the output directory has been removed and made again, the disk is as good as before. -/
theorem reprepares_of_completes {p' : Disk}
    (hclears : t.Clears r (t.place plan.output)) (hdir : t.isDirectory plan.output = true)
    (hclean : plan.clean = true) (hcompletes : r.Completes p' t plan.output)
    (hstart : r.tree.hasDir (r.origin plan.output) = true)
    (hp : ∀ q, q.isWithin (t.place plan.output) = true → p.tree.file? q = none)
    (hdirs : ∀ q, p.tree.hasDir q = true → t.tree.hasDir q = true ∧
      (q.isWithin (t.place plan.output) = false ∨
        q ∈ (t.origin plan.output).trail plan.output.segments))
    (hlocked : ∀ q, t.tree.isLocked q = p.tree.isLocked q) : plan.Reprepares p t p' := by
  have hfile : ∀ q, p'.tree.file? q = if q.isWithin (t.place plan.output) then none
      else t.tree.file? q := by
    intro q
    rw [hcompletes.grows.files, hclears.files]
  refine ⟨hcompletes.wellFormed, hcompletes.partOf, fun q hq => ?_, fun hrelative => ?_,
    fun q hq => ?_, fun q hq => ?_, fun q hq => ?_⟩
  · obtain ⟨hqt, houtside | htrail⟩ := hdirs q hq
    · exact hcompletes.grows.dirs q (hclears.dirs_outside q houtside hqt)
    · rw [← Disk.origin_congr hcompletes.partOf.current] at htrail
      exact (Disk.isDirectory_iff.mp hcompletes.isDirectory).2.dirs q htrail
  · rw [Disk.origin, if_neg (by simp [hrelative])] at hstart
    rw [← hcompletes.grows.current]
    exact hcompletes.grows.dirs _ hstart
  · rw [clearsAt_iff hclean hdir] at hq
    exact ⟨hp q hq, by rw [hfile, if_pos hq]⟩
  · rw [clearsAt_iff hclean hdir] at hq
    rw [hfile, if_neg hq]
  · rw [← hlocked]
    exact hclears.locked q (hcompletes.grows.locked q ▸ hq)

/-- Preparing again where the output directory can be removed. -/
theorem exists_reprepares_of_removeTree (ht : t.tree.WellFormed) (hclean : plan.clean = true)
    (hworking : t.isDirectory plan.working = true) (hdir : t.isDirectory plan.output = true)
    (hapart : (t.place plan.working).isWithin (t.place plan.output) = false)
    (hremove : t.removeTree plan.output = (.ok (), r))
    (hstart : r.tree.hasDir (r.origin plan.output) = true)
    (hp : ∀ q, q.isWithin (t.place plan.output) = true → p.tree.file? q = none)
    (hdirs : ∀ q, p.tree.hasDir q = true → t.tree.hasDir q = true ∧
      (q.isWithin (t.place plan.output) = false ∨
        q ∈ (t.origin plan.output).trail plan.output.segments))
    (hlocked : ∀ q, t.tree.isLocked q = p.tree.isLocked q) :
    ∃ p', exec (plan.prepare : ExceptT _ (StateM Disk) _) t = (.ok (), p') ∧
      plan.Reprepares p t p' := by
  obtain ⟨hclears, hdot⟩ := Disk.removeTree_clears ht hremove
  have hdot' : plan.output.EndsInDot → r.tree.hasDir (r.place plan.output) = true := by
    intro h
    rw [← Disk.place_congr hclears.current]
    exact hdot h
  obtain ⟨p', hmake, hcompletes⟩ := Disk.makeDirectories_on_part hclears.wellFormed ht
    hclears.partOf hdir hstart hdot'
  exact ⟨p', exec_prepare_of_cleared hworking hclean hdir hapart hremove hmake,
    reprepares_of_completes hclears hdir hclean hcompletes hstart hp hdirs hlocked⟩

/-- What a first run has prepared before it reads, step by step. -/
structure Preparation (plan : Plan) (d d₁ d₂ p : Disk) : Prop where
  ensured : exec (plan.ensureWorking : ExceptT _ (StateM Disk) _) d = (.ok (), d₁)
  cleared : if plan.clean = true then
      exec (plan.clearOutput : ExceptT _ (StateM Disk) _) d₁ = (.ok (), d₂)
    else d₂ = d₁
  made : d₂.makeDirectories plan.output = (.ok (), p)

namespace Preparation

variable (hprep : plan.Preparation d d₁ d₂ p)

include hprep

/-- Either the output directory has been removed, or the first step is all that was done before. -/
theorem cleared_or_kept :
    (plan.clean = true ∧ (d₁.place plan.working).isWithin (d₁.place plan.output) = false ∧
      d₁.removeTree plan.output = (.ok (), d₂)) ∨
    (plan.clean = true → d₁.pathExists plan.output = false) ∧ d₂ = d₁ := by
  have hcleared := hprep.cleared
  split_ifs at hcleared with hclean
  · rw [exec_clearOutput_eq_ok_iff] at hcleared
    split_ifs at hcleared with hexists
    · obtain ⟨w, o, hw, ho, hapart, hremove⟩ := hcleared
      rw [Disk.place_of_locate hw, Disk.place_of_locate ho] at hapart
      exact Or.inl ⟨hclean, hapart, hremove⟩
    · exact Or.inr ⟨fun _ => by simpa using hexists, hcleared⟩
  · exact Or.inr ⟨fun h => absurd h hclean, hcleared⟩

theorem wellFormed (hd : d.tree.WellFormed) :
    d₁.tree.WellFormed ∧ d.Grows d₁ ∧ d₂.tree.WellFormed ∧ d₁.current = d₂.current := by
  obtain ⟨hd₁, hgrows⟩ := ensureWorking_grows hd hprep.ensured
  refine ⟨hd₁, hgrows, ?_⟩
  rcases hprep.cleared_or_kept with ⟨-, -, hremove⟩ | ⟨-, rfl⟩
  · obtain ⟨hclears, -⟩ := Disk.removeTree_clears hd₁ hremove
    exact ⟨hclears.wellFormed, hclears.current⟩
  · exact ⟨hd₁, rfl⟩

/-- Nothing is left to do where nothing is cleared. -/
theorem reprepares_of_kept (hd : d.tree.WellFormed) (hcurrent : d.tree.hasDir d.current = true)
    (hsame : d₂ = d₁) (hpart : p.PartOf t) (ht : t.tree.WellFormed)
    (hlocked : ∀ q, t.tree.isLocked q = p.tree.isLocked q)
    (hkept : plan.clean = true → t.pathExists plan.output = false) : plan.Reprepares p t t := by
  obtain ⟨hd₁, hgrows, hd₂, -⟩ := hprep.wellFormed hd
  obtain ⟨-, hgrows', -⟩ := Disk.makeDirectories_grows hd₂ hprep.made
  subst hsame
  have hall := (hgrows.trans hgrows').partOf.trans hpart
  have hnone := not_clearsAt_of_missing hkept
  have hstart : t.tree.hasDir t.current = true := by
    rw [← hall.current]
    exact hall.dirs _ hcurrent
  exact ⟨ht, .refl t, hpart.dirs, fun _ => hstart, fun q hq => absurd hq (hnone q), fun q _ => rfl,
    fun q hq => hlocked q ▸ hq⟩

/-- What has been removed the first time can be removed again. -/
theorem reprepares_of_removed (hd : d.tree.WellFormed) (hclean : plan.clean = true)
    (hapart : (d₁.place plan.working).isWithin (d₁.place plan.output) = false)
    (hremove : d₁.removeTree plan.output = (.ok (), d₂))
    (hworking : t.isDirectory plan.working = true) (ht : t.tree.WellFormed) (hpart : p.PartOf t)
    (hlocked : ∀ q, t.tree.isLocked q = p.tree.isLocked q) :
    ∃ p', exec (plan.prepare : ExceptT _ (StateM Disk) _) t = (.ok (), p') ∧
      plan.Reprepares p t p' := by
  obtain ⟨hd₁, -, hd₂, hcurrent₂⟩ := hprep.wellFormed hd
  obtain ⟨hp, hgrows, -⟩ := Disk.makeDirectories_grows hd₂ hprep.made
  obtain ⟨hclears, -⟩ := Disk.removeTree_clears hd₁ hremove
  obtain ⟨hdir₁, hopen₁⟩ := Disk.isDirectory_of_removeTree hremove
  have hf := (Disk.isDirectory_iff.mp hdir₁).1
  obtain ⟨hdirp, hstart⟩ := Disk.isDirectory_of_makeDirectories hd₂ hprep.made hf
  have hdir := hpart.isDirectory hdirp
  have hcurrent : d₁.current = t.current := hcurrent₂.trans (hgrows.current.trans hpart.current)
  have hopen : t.holdsLocked (t.place plan.output) = false := by
    refine Disk.holdsLocked_eq_false_iff.mpr fun q _ hq => ?_
    rw [← Disk.place_congr hcurrent] at hq
    rw [hlocked, hgrows.locked, Disk.isLocked_of_removeTree hd₁ hremove hq]
  obtain ⟨houtcome, hstays⟩ := Disk.removeTree_congr hd₁ ht hcurrent hdir₁ hdir hopen₁ hopen
  rw [hremove] at houtcome hstays
  rw [Disk.place_congr hcurrent, Disk.place_congr hcurrent] at hapart
  rw [Disk.place_congr hcurrent] at hclears hstays
  obtain ⟨r, hremove'⟩ : ∃ r, t.removeTree plan.output = (.ok (), r) :=
    ⟨(t.removeTree plan.output).2, Prod.ext houtcome.symm rfl⟩
  rw [hremove'] at hstays
  obtain ⟨hclears', -⟩ := Disk.removeTree_clears ht hremove'
  -- the start of the path lies outside of what is removed, or it is the directory that stays
  have hstart' : r.tree.hasDir (r.origin plan.output) = true := by
    rw [← Disk.origin_congr hclears'.current, ← Disk.origin_congr hcurrent,
      Disk.origin_congr hcurrent₂]
    rcases hclears.outside_or_eq hstart with houtside | hself
    · exact hclears'.dirs_outside _ houtside (hpart.dirs _ (hgrows.dirs _ hstart))
    · rw [hself, ← hstays, ← hself]
      exact hstart
  refine exists_reprepares_of_removeTree ht hclean hworking hdir hapart hremove' hstart'
    (fun q hq => ?_) (fun q hq => ⟨hpart.dirs q hq, ?_⟩) hlocked
  · rw [hgrows.files, hclears.files, if_pos hq]
  · rcases Disk.hasDir_of_makeDirectories hd₂ hprep.made hq with hq | hq
    · rcases hclears.outside_or_eq hq with houtside | rfl
      · exact Or.inl houtside
      · exact Or.inr (Place.foldl_follow_mem_trail _ _)
    · rw [← Disk.origin_congr (hgrows.current.trans hpart.current)]
      exact Or.inr hq

/-- The working directory is there after the first step, or something else in its place. -/
theorem contains_working (hd : d.tree.WellFormed) (hf : Disk.pathFault? plan.working = none) :
    d₁.tree.contains (d₁.place plan.working) = true := by
  obtain ⟨hd₁, -⟩ := ensureWorking_grows hd hprep.ensured
  have hensured := hprep.ensured
  rw [exec_ensureWorking_eq_ok_iff] at hensured
  split_ifs at hensured with hexists
  · subst hensured
    exact Disk.contains_of_locate hd₁ (Disk.locate_of_pathExists hexists)
  · have hdir := (Disk.isDirectory_of_makeDirectories hd hensured hf).1
    exact Tree.contains_of_hasDir (Disk.locate_of_isDirectory hdir).2

/-- A new output directory holds nothing that a first run has not written, so it can be removed. -/
theorem reprepares_of_new (hd : d.tree.WellFormed) (hclean : plan.clean = true) (hsame : d₂ = d₁)
    (hdot : ¬plan.output.EndsInDot) (hnew : d₁.tree.contains (t.place plan.output) = false)
    (hdir : t.isDirectory plan.output = true) (hworking : t.isDirectory plan.working = true)
    (ht : t.tree.WellFormed) (hpart : p.PartOf t)
    (hlocked : ∀ q, t.tree.isLocked q = p.tree.isLocked q) :
    ∃ p', exec (plan.prepare : ExceptT _ (StateM Disk) _) t = (.ok (), p') ∧
      plan.Reprepares p t p' := by
  obtain ⟨hd₁, -, -, -⟩ := hprep.wellFormed hd
  subst hsame
  obtain ⟨hp, hgrows, -⟩ := Disk.makeDirectories_grows hd₁ hprep.made
  have hcurrent : d₂.current = t.current := hgrows.current.trans hpart.current
  have hall := hgrows.partOf.trans hpart
  have ho : (t.place plan.output).rooted = true :=
    ht.rooted _ (Tree.contains_of_hasDir (Disk.locate_of_isDirectory hdir).2)
  have outside : ∀ q, d₂.tree.contains q = true → q.isWithin (t.place plan.output) = false :=
    fun q hq => hd₁.outside_of_not_contains ho hnew hq
  have hstart : d₂.tree.hasDir (d₂.origin plan.output) = true :=
    (Disk.isDirectory_of_makeDirectories hd₁ hprep.made (Disk.isDirectory_iff.mp hdir).1).2
  have horigin := outside _ (Tree.contains_of_hasDir hstart)
  rw [Disk.origin_congr hcurrent] at hstart horigin
  have hroot : t.place plan.output ≠ .root := by
    intro hroot
    rw [hroot, Tree.contains_of_hasDir hd₁.root] at hnew
    cases hnew
  have hopen : t.holdsLocked (t.place plan.output) = false := by
    refine Disk.holdsLocked_eq_false_iff.mpr fun q _ hq => ?_
    rw [hlocked, hgrows.locked]
    by_contra h
    rw [outside q (hd₁.locked q (by simpa using h))] at hq
    cases hq
  obtain ⟨r, hremove⟩ := Disk.removeTree_of_not_endsInDot ht hdir hopen hdot hroot horigin
  obtain ⟨hclears, -⟩ := Disk.removeTree_clears ht hremove
  have hstart' : r.tree.hasDir (r.origin plan.output) = true := by
    rw [← Disk.origin_congr hclears.current]
    exact hclears.dirs_outside _ horigin (hall.dirs _ hstart)
  have hapart : (t.place plan.working).isWithin (t.place plan.output) = false := by
    rw [← Disk.place_congr hcurrent]
    exact outside _ (hprep.contains_working hd (Disk.isDirectory_iff.mp hworking).1)
  refine exists_reprepares_of_removeTree ht hclean hworking hdir hapart hremove hstart'
    (fun q hq => ?_) (fun q hq => ⟨hpart.dirs q hq, ?_⟩) hlocked
  · rw [hgrows.files]
    by_contra hfile
    have hc : d₂.tree.contains q = true :=
      Tree.contains_of_isSome_file? (Option.isSome_iff_ne_none.mpr hfile)
    rw [outside q hc] at hq
    cases hq
  · rcases Disk.hasDir_of_makeDirectories hd₁ hprep.made hq with hq | hq
    · exact Or.inl (outside q (Tree.contains_of_hasDir hq))
    · rw [← Disk.origin_congr hcurrent]
      exact Or.inr hq

/-- After a first run the directories can be prepared once more. -/
theorem exists_reprepares (hd : d.tree.WellFormed) (hcurrent : d.tree.hasDir d.current = true)
    (hworking : t.isDirectory plan.working = true) (ht : t.tree.WellFormed) (hpart : p.PartOf t)
    (hlocked : ∀ q, t.tree.isLocked q = p.tree.isLocked q) (hagain : plan.ClearsAgain d t) :
    ∃ p', exec (plan.prepare : ExceptT _ (StateM Disk) _) t = (.ok (), p') ∧
      plan.Reprepares p t p' := by
  obtain ⟨hd₁, -, hd₂, -⟩ := hprep.wellFormed hd
  rcases hprep.cleared_or_kept with ⟨hclean, hapart, hremove⟩ | ⟨hkept, hsame⟩
  · exact hprep.reprepares_of_removed hd hclean hapart hremove hworking ht hpart hlocked
  · by_cases hclears : plan.clean = true ∧ t.pathExists plan.output = true
    · obtain ⟨hclean, hexists⟩ := hclears
      have hf : Disk.pathFault? plan.output = none := by
        by_contra hf
        obtain ⟨fault, hf⟩ := Option.ne_none_iff_exists'.mp hf
        simp [Disk.pathExists, Disk.locate, hf, Except.isOk, Except.toBool] at hexists
      have hdir := hpart.isDirectory (Disk.isDirectory_of_makeDirectories hd₂ hprep.made hf).1
      rcases hagain hclean _ (Disk.locate_of_isDirectory hdir).1 with hexists₁ | ⟨hdot, hnew⟩
      · rw [hprep.ensured, hkept hclean] at hexists₁
        cases hexists₁
      · rw [hprep.ensured] at hnew
        exact hprep.reprepares_of_new hd hclean hsame hdot hnew hdir hworking ht hpart hlocked
    · have hkept' : plan.clean = true → t.pathExists plan.output = false := by
        intro hclean
        by_contra hexists
        exact hclears ⟨hclean, by simpa using hexists⟩
      exact ⟨t, exec_prepare_of_kept hworking hkept'
        (Disk.makeDirectories_again hd₂ hprep.made hpart),
        hprep.reprepares_of_kept hd hcurrent hsame hpart ht hlocked hkept'⟩

end Preparation

end InterfaceGen.Plan
