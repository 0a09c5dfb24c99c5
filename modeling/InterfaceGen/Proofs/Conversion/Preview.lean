import InterfaceGen.Proofs.Conversion.Repetition
import InterfaceGen.Proofs.Model.Catalogue

/-! What is generated from the disk as it is, compared with what a conversion writes. Nothing is
prepared for it, so it reads the files that the conversion clears away. The two agree unless one of
these is a class file, for every class file leads to a file of its own. -/

namespace InterfaceGen

namespace Plan

variable {plan : Plan} {d p t : Disk}

/-- Every source leads to one file. -/
theorem length_files_generation (plan : Plan) (sources : List Source) :
    (plan.generation sources).files.length = sources.length := by
  rw [generation, Generation.ofSources, List.length_map, Catalogue.interfaces, List.length_map,
    Generation.catalogue, Catalogue.models_ofModels, List.length_map]

/-- A conversion that has found its working directory on the disk `d` has prepared from it the disk
`p`. Of the files, those that are cleared are gone; of the directories that are cleared none was
locked, and the output directory itself has been made again. -/
structure Prepares (plan : Plan) (d p : Disk) : Prop where
  wellFormed : p.tree.WellFormed
  current : d.current = p.current
  working : ¬plan.ClearsAt d (d.place plan.working)
  cleared : ∀ q, plan.ClearsAt d q → p.tree.file? q = none
  open_dirs : ∀ q, plan.ClearsAt d q → d.tree.hasDir q = true → d.tree.isLocked q = false
  kept : ∀ q, ¬plan.ClearsAt d q → d.SameFile p q
  dirs : ∀ q, ¬plan.ClearsAt d q → d.tree.hasDir q = true → p.tree.hasDir q = true
  remade : plan.clean = true → ∀ o, d.locate plan.output = .ok o → p.tree.hasDir o = true

theorem prepares_of_exec (hd : d.tree.WellFormed) (hworking : d.pathExists plan.working = true)
    (h : exec (plan.prepare : ExceptT _ (StateM Disk) _) d = (.ok (), p)) :
    plan.Prepares d p := by
  obtain ⟨d₁, d₂, hensured, hcleared, hmade⟩ := exec_prepare_eq_ok_iff.mp h
  have hprep : plan.Preparation d d₁ d₂ p := ⟨hensured, hcleared, hmade⟩
  -- the working directory is there, so the first step does nothing
  rw [exec_ensureWorking_eq_ok_iff, if_pos hworking] at hensured
  subst hensured
  obtain ⟨-, -, hd₂, hcurrent⟩ := hprep.wellFormed hd
  obtain ⟨hp, hgrows, -⟩ := Disk.makeDirectories_grows hd₂ hmade
  rcases hprep.cleared_or_kept with ⟨hclean, hapart, hremove⟩ | ⟨hmissing, rfl⟩
  · obtain ⟨hclears, -⟩ := Disk.removeTree_clears hd hremove
    obtain ⟨hdir, hopen⟩ := Disk.isDirectory_of_removeTree hremove
    have hiff := fun q => clearsAt_iff (q := q) hclean hdir
    have outside : ∀ q, ¬plan.ClearsAt d₁ q → q.isWithin (d₁.place plan.output) = false := by
      intro q hq
      rw [hiff] at hq
      simpa using hq
    refine ⟨hp, hcurrent.trans hgrows.current, ?_, fun q hq => ?_,
      fun q hq hqdir => ?_, fun q hq => ⟨?_, ?_⟩, fun q hq hqdir => ?_, fun _ o ho => ?_⟩
    · rw [hiff, hapart]
      exact Bool.false_ne_true
    · rw [hgrows.files, hclears.files, if_pos ((hiff q).mp hq)]
    · exact Disk.holdsLocked_eq_false_iff.mp hopen q hqdir ((hiff q).mp hq)
    · rw [hgrows.files, hclears.files, outside q hq, if_neg Bool.false_ne_true]
    · rw [hgrows.locked, hclears.locked_outside q (outside q hq)]
    · exact hgrows.dirs q (hclears.dirs_outside q (outside q hq) hqdir)
    · obtain ⟨hmadedir, -⟩ :=
        Disk.isDirectory_of_makeDirectories hd₂ hmade (Disk.isDirectory_iff.mp hdir).1
      rw [Disk.place_of_locate ho, Disk.place_congr (hcurrent.trans hgrows.current)]
      exact (Disk.locate_of_isDirectory hmadedir).2
  · have hnone := not_clearsAt_of_missing hmissing
    refine ⟨hp, hgrows.current, hnone _, fun q hq => absurd hq (hnone q),
      fun q hq => absurd hq (hnone q),
      fun q _ => ⟨(hgrows.files q).symm, (hgrows.locked q).symm⟩, fun q _ => hgrows.dirs q,
      fun hclean o ho => ?_⟩
    exact absurd ⟨hclean, o, ho, o.isWithin_refl⟩ (hnone o)

namespace Prepares

variable (hprep : plan.Prepares d p) (hd : d.tree.WellFormed)

include hprep hd

/-- If the working directory is a directory after the preparation, it was one before. -/
theorem isDirectory_working (hexists : d.pathExists plan.working = true)
    (h : p.isDirectory plan.working = true) : d.isDirectory plan.working = true := by
  have hlocate := Disk.locate_of_pathExists hexists
  refine Disk.isDirectory_of_locate hlocate ?_
  -- a file in its place would still be there after the preparation
  rcases Tree.contains_iff.mp (Disk.contains_of_locate hd hlocate) with hdir | hfile
  · exact hdir
  · have hdir := (Disk.locate_of_isDirectory h).2
    rw [← Disk.place_congr hprep.current] at hdir
    rw [(hprep.kept _ hprep.working).1, hprep.wellFormed.disjoint _ hdir] at hfile
    cases hfile

/-- The class files that are left are those that are not cleared away. -/
theorem mem_classFiles_iff {f : ClassFile} : f ∈ p.classFiles plan.selection plan.working ↔
    f ∈ d.classFiles plan.selection plan.working ∧ ¬plan.ClearsAt d (d.place f.path) := by
  rw [Disk.mem_classFiles hprep.wellFormed, Disk.mem_classFiles hd]
  constructor
  · intro h
    have hfile := h.file?_path hprep.wellFormed
    rw [← Disk.place_congr hprep.current] at hfile
    have hkept : ¬plan.ClearsAt d (d.place f.path) := by
      intro hclears
      rw [hprep.cleared _ hclears] at hfile
      cases hfile
    refine ⟨h.congr hprep.wellFormed hprep.current.symm ?_, hkept⟩
    rw [← Disk.place_congr hprep.current, (hprep.kept _ hkept).1]
  · rintro ⟨h, hkept⟩
    exact h.congr hd hprep.current (hprep.kept _ hkept).1

/-- What can be listed after the preparation could be so before: of the directories that have to be
listed, only the output directory itself can be among those that are cleared. -/
theorem opensDirectories (hworking : d.isDirectory plan.working = true)
    (hopens : p.OpensDirectories plan.working) : d.OpensDirectories plan.working := by
  have hdirs : ∀ g, d.tree.hasDir ((d.place plan.working).child g) = true →
      p.tree.hasDir ((d.place plan.working).child g) = true := by
    intro g hdir
    by_cases hclears : plan.ClearsAt d ((d.place plan.working).child g)
    · obtain ⟨hclean, o, ho, hwithin⟩ := hclears
      have hremade := hprep.remade hclean o ho
      by_cases hself : (d.place plan.working).child g = o
      · rwa [hself]
      · have hrooted := hd.rooted _ (Disk.contains_of_locate hd ho)
        have habove := (Place.isWithin_above hrooted (hd.rooted _ (Tree.contains_of_hasDir hdir))
          hwithin hself).2
        rw [Place.above_child] at habove
        exact absurd ⟨hclean, o, ho, habove⟩ hprep.working
    · exact hprep.dirs _ hclears hdir
  refine hopens.congr hprep.current.symm hd hworking (fun dir hvisits => ?_) fun g hg hdir => ?_
  · by_cases hclears : plan.ClearsAt d (d.place dir)
    · refine hprep.open_dirs _ hclears ?_
      rcases hvisits with rfl | ⟨g, hg, hdir, rfl⟩
      · exact (Disk.locate_of_isDirectory hworking).2
      · rwa [Disk.place_child (hd.entries _ (Tree.contains_of_hasDir hdir) _ (by simp))]
    · have hvisited : p.Visits plan.working dir := by
        rcases hvisits with rfl | ⟨g, hg, hdir, rfl⟩
        · exact Or.inl rfl
        · exact Or.inr ⟨g, hg, Disk.place_congr hprep.current plan.working ▸ hdirs g hdir, rfl⟩
      rw [(hprep.kept _ hclears).2, Disk.place_congr hprep.current]
      exact (hopens dir hvisited).2
  · exact Or.inl (Disk.place_congr hprep.current plan.working ▸ hdirs g hdir)

/-- Reading before the preparation and after it comes to the same if no class file is cleared
away. -/
theorem load_eq (hworking : d.isDirectory plan.working = true)
    (hopens : p.OpensDirectories plan.working)
    (hkept : ∀ f ∈ d.classFiles plan.selection plan.working,
      ¬plan.ClearsAt d (d.place f.path)) :
    d.load plan.selection plan.working = p.load plan.selection plan.working := by
  have hopens' := hprep.opensDirectories hd hworking hopens
  refine Disk.load_eq hd hprep.wellFormed hprep.current hopens' hopens (fun f h => ?_)
    fun f h => ?_
  · exact hprep.kept _ (hkept f ((Disk.mem_classFiles hd).mpr h))
  · have hf := (Disk.mem_classFiles hprep.wellFormed).mpr h
    exact hprep.kept _ ((hprep.mem_classFiles_iff hd).mp hf).2

/-- If there are as many class files before the preparation as after it, none is cleared away. -/
theorem not_clearsAt_of_length_eq (hlength : (d.classFiles plan.selection plan.working).length =
      (p.classFiles plan.selection plan.working).length) {f : ClassFile}
    (hf : f ∈ d.classFiles plan.selection plan.working) :
    ¬plan.ClearsAt d (d.place f.path) := by
  have hiff := fun f => hprep.mem_classFiles_iff (f := f) hd
  have hnodup : (p.classFiles plan.selection plan.working).Nodup :=
    Disk.nodup_classFiles hprep.wellFormed
  have hsubset : p.classFiles plan.selection plan.working ⊆
      d.classFiles plan.selection plan.working := fun f hf => ((hiff f).mp hf).1
  have hperm := (hnodup.subperm hsubset).perm_of_length_le hlength.le
  exact ((hiff f).mp (hperm.mem_iff.mpr hf)).2

end Prepares

/-- What a conversion of `d` generates and writes, with the result `t`. -/
def Writes (plan : Plan) (d : Disk) (g : Generation) (t : Disk) : Prop :=
  ∃ p, exec (plan.prepare : ExceptT _ (StateM Disk) _) d = (.ok (), p) ∧
    plan.generateOn p = (.ok g, p) ∧
    exec (GeneratedFile.deliverAll (m := StateM Disk) plan.output g.files) p =
      (.ok (g.files.map (plan.output.join ·.path)), t)

/-- Where the working directory is there, generating from the disk as it is succeeds with the very
files that a successful conversion writes, and with the findings that it reports, if and only if the
conversion clears away none of the class files. -/
theorem generateOn_eq_iff {report : Report} (hd : d.tree.WellFormed)
    (hworking : d.pathExists plan.working = true) (h : plan.convertOn d = (.ok report, t)) :
    ∃ g, plan.Writes d g t ∧ report = ⟨g.files.map (plan.output.join ·.path), g.findings⟩ ∧
      (plan.generateOn d = (.ok g, d) ↔ ∀ f ∈ d.classFiles plan.selection plan.working,
        ¬plan.ClearsAt d (d.place f.path)) := by
  obtain ⟨p, g, hprepare, hgenerate, hdeliver, hfindings⟩ := convertOn_eq_ok_iff_generateOn.mp h
  obtain ⟨hwritten, -⟩ := GeneratedFile.exec_deliverAll_eq_ok_iff.mp hdeliver
  refine ⟨g, ⟨p, hprepare, hgenerate, hwritten ▸ hdeliver⟩, by rw [← hwritten, ← hfindings], ?_⟩
  obtain ⟨sources, hload, rfl, -⟩ := generateOn_eq_ok_iff.mp hgenerate
  have hprep := prepares_of_exec hd hworking hprepare
  have hdir' := Disk.isDirectory_of_load hload
  have hdir := hprep.isDirectory_working hd hworking hdir'
  constructor
  · -- both lead to the same files, one for each class file, so there are equally many of these
    intro hpreview f hf
    obtain ⟨sources', hload', hsame, -⟩ := generateOn_eq_ok_iff.mp hpreview
    refine hprep.not_clearsAt_of_length_eq hd ?_ hf
    rw [← Disk.length_of_load hload', ← Disk.length_of_load hload,
      ← plan.length_files_generation, ← hsame, plan.length_files_generation]
  · intro hkept
    exact generateOn_eq_ok_iff.mpr
      ⟨sources, (hprep.load_eq hd hdir (Disk.opensDirectories_of_load hload) hkept).trans hload, rfl,
        rfl⟩

/-- The older interface file is cleared away, but it is not a class file when these have an
extension of their own. -/
theorem project_generateOn_eq :
    let plan : Plan :=
      { working := ⟨".".toList⟩, output := ⟨"web".toList⟩,
        selection := { extensions := ["cs".toList] } }
    project.tree.WellFormed ∧ project.pathExists plan.working = true ∧
    ∃ report t, plan.convertOn project = (.ok report, t) ∧
      report.written = [⟨"web/user.ts".toList⟩] ∧
      ∃ g, plan.Writes project g t ∧ plan.generateOn project = (.ok g, project) := by
  intro plan
  have hd : project.tree.WellFormed := by decide +kernel
  have hworking : project.pathExists plan.working = true := by decide +kernel
  have hwritten : (plan.convertOn project).1.toOption.map (·.written) =
      some [⟨"web/user.ts".toList⟩] := by decide +kernel
  have hfiles : project.classFiles plan.selection plan.working =
      [⟨[], "user.cs".toList, ⟨"./user.cs".toList⟩⟩] := by decide +kernel
  have houtput : project.locate plan.output = .ok ⟨true, ["work".toList, "web".toList]⟩ := by
    decide +kernel
  obtain ⟨report, h, hreport⟩ := exists_eq_ok_of_map hwritten
  obtain ⟨g, hwrites, -, hiff⟩ := generateOn_eq_iff hd hworking h
  refine ⟨hd, hworking, report, _, h, hreport, g, hwrites, hiff.mpr ?_⟩
  rw [hfiles]
  rintro f hf ⟨-, o, ho, hwithin⟩
  obtain rfl := List.mem_singleton.mp hf
  obtain rfl := Except.ok.inj (houtput.symm.trans ho)
  revert hwithin
  decide +kernel

/-- When any file is a class file, the older interface file counts for what is generated from the
project as it is, but the conversion has cleared it away when it reads. -/
theorem project_generateOn_ne :
    let plan : Plan := { working := ⟨".".toList⟩, output := ⟨"web".toList⟩ }
    project.tree.WellFormed ∧ project.pathExists plan.working = true ∧
    ∃ report t g, plan.convertOn project = (.ok report, t) ∧
      report.written = [⟨"web/user.ts".toList⟩] ∧ plan.generateOn project = (.ok g, project) ∧
      g.files.map (·.path) = [⟨"user.ts".toList⟩, ⟨"web/old.ts".toList⟩] := by
  intro plan
  have hwritten : (plan.convertOn project).1.toOption.map (·.written) =
      some [⟨"web/user.ts".toList⟩] := by decide +kernel
  have hpaths : (plan.generateOn project).1.toOption.map (·.files.map (·.path)) =
      some [⟨"user.ts".toList⟩, ⟨"web/old.ts".toList⟩] := by decide +kernel
  obtain ⟨report, h, hreport⟩ := exists_eq_ok_of_map hwritten
  obtain ⟨g, hg, hfiles⟩ := exists_eq_ok_of_map hpaths
  obtain ⟨-, -, -, hsame⟩ := generateOn_eq_ok_iff.mp hg
  exact ⟨by decide +kernel, by decide +kernel, report, _, g, h, hreport, hsame ▸ hg, hfiles⟩

end Plan

end InterfaceGen
