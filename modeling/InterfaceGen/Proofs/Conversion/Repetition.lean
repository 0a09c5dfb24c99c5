import InterfaceGen.Proofs.Conversion.Footprint

/-! A conversion that is run again. The second run finds what the first has left: its directories
are there, its files can be written over, and what it reads is the same unless one of the written
files has become a source. -/

namespace InterfaceGen.Plan

variable {plan : Plan} {d p t : Disk}

/-- A conversion that reads from the disk to which it writes. -/
def convertOn (plan : Plan) (d : Disk) : Except ConversionError Report × Disk :=
  exec (plan.convert Source.load) d

/-- What a conversion generates from its sources. -/
def generation (plan : Plan) (sources : List Source) : Generation :=
  .ofSources plan.dates plan.layout sources

/-- What is generated from a disk as it is, with nothing prepared. -/
def generateOn (plan : Plan) (d : Disk) : Except ConversionError Generation × Disk :=
  exec (plan.generate Source.load) d

theorem generateOn_eq_ok_iff {g : Generation} : plan.generateOn d = (.ok g, t) ↔
    ∃ sources, d.load plan.selection plan.working = .ok sources ∧ g = plan.generation sources ∧
      t = d := by
  unfold generateOn generate
  rw [exec_bind, exec_adapt, Disk.exec_load]
  cases d.load plan.selection plan.working with
  | error fault => simp [Except.mapError]
  | ok sources =>
    simp only [Except.mapError, exec_pure_eq_ok_iff]
    simp [generation]

/-- A conversion generates from the disk that it has prepared, and writes what it has generated. -/
theorem convertOn_eq_ok_iff_generateOn {report : Report} : plan.convertOn d = (.ok report, t) ↔
    ∃ p g, exec (plan.prepare : ExceptT _ (StateM Disk) _) d = (.ok (), p) ∧
      plan.generateOn p = (.ok g, p) ∧
      exec (GeneratedFile.deliverAll (m := StateM Disk) plan.output g.files) p =
        (.ok report.written, t) ∧ report.findings = g.findings := by
  unfold convertOn convert
  simp only [exec_bind_eq_ok_iff, exec_pure_eq_ok_iff]
  constructor
  · rintro ⟨⟨⟩, p, hprepare, g, u, hgenerate, paths, v, hdeliver, rfl, rfl⟩
    obtain ⟨-, -, -, rfl⟩ := generateOn_eq_ok_iff.mp hgenerate
    exact ⟨u, g, hprepare, hgenerate, hdeliver, rfl⟩
  · rintro ⟨p, g, hprepare, hgenerate, hdeliver, hfindings⟩
    exact ⟨(), p, hprepare, g, p, hgenerate, _, t, hdeliver, by rw [← hfindings], rfl⟩

theorem convertOn_eq_ok_iff {report : Report} : plan.convertOn d = (.ok report, t) ↔
    ∃ p sources, exec (plan.prepare : ExceptT _ (StateM Disk) _) d = (.ok (), p) ∧
      p.load plan.selection plan.working = .ok sources ∧
      report = ⟨(plan.generation sources).files.map (plan.output.join ·.path),
        (plan.generation sources).findings⟩ ∧
      p.PutsAll ((plan.generation sources).files.map (GeneratedFile.target plan.output)) t := by
  simp only [convertOn_eq_ok_iff_generateOn, generateOn_eq_ok_iff,
    GeneratedFile.exec_deliverAll_eq_ok_iff]
  constructor
  · rintro ⟨p, g, hprepare, ⟨sources, hload, rfl, -⟩, ⟨hwritten, hputs⟩, hfindings⟩
    exact ⟨p, sources, hprepare, hload, by rw [← hwritten, ← hfindings], hputs⟩
  · rintro ⟨p, sources, hprepare, hload, rfl, hputs⟩
    exact ⟨p, _, hprepare, ⟨sources, hload, rfl, trivial⟩, ⟨rfl, hputs⟩, rfl⟩

namespace Reprepares

variable {p' : Disk} {files : List (Path × ByteArray)} (hre : plan.Reprepares p t p')

include hre

theorem isDirectory {q : Path} (hcurrent : p.current = p'.current) (h : p.isDirectory q = true) :
    p'.isDirectory q = true := by
  obtain ⟨hf, hl⟩ := Disk.isDirectory_iff.mp h
  rw [Disk.origin_congr hcurrent] at hl
  exact Disk.isDirectory_iff.mpr ⟨hf, hl.mono hre.dirs⟩

/-- The walk to a file in the output directory has a directory to start from. -/
theorem hasDir_origin (f : GeneratedFile) :
    p'.tree.hasDir (p'.origin (f.target plan.output).1) = true := by
  unfold Disk.origin
  split_ifs with habs
  · exact hre.wellFormed.root
  · exact hre.start (Path.isAbsolute_of_join (by simpa [GeneratedFile.target] using habs))

variable (hp : p.tree.WellFormed) (hputs : p.PutsAll files t)

include hp hputs

/-- Away from the written files, the two prepared disks hold what the finished one holds, or
nothing. -/
theorem file?_of_ne {q : Place} (hq : ∀ f ∈ files, p.place f.1 ≠ q) :
    p.tree.file? q = p'.tree.file? q := by
  by_cases hclears : plan.ClearsAt t q
  · obtain ⟨hnone, hnone'⟩ := hre.cleared q hclears
    rw [hnone, hnone']
  · rw [hre.kept q hclears, hputs.file?_of_ne hp hq]

/-- Every directory in the way of the second run can be listed, if those can be that writing the
files has made. -/
theorem opensDirectories (hopens : p.OpensDirectories plan.working)
    (hdirs : ∀ g, FileName.isHidden g = false →
      t.tree.hasDir ((p.place plan.working).child g) = true →
      p.tree.hasDir ((p.place plan.working).child g) = true ∨ t.OpensDirectories plan.working) :
    p'.OpensDirectories plan.working := by
  obtain ⟨ht, hpart, -⟩ := hputs.spec hp
  have hcurrent : p.current = p'.current := hpart.current.trans hre.partOf.current.symm
  have hworking := (hopens _ (Or.inl rfl)).1
  have hworking' := hre.isDirectory hcurrent hworking
  have hplace := Disk.place_congr hcurrent plan.working
  refine hopens.congr hcurrent hre.wellFormed hworking' (fun dir hvisits => ?_) fun g hg hdir => ?_
  · -- what is locked has been so before the first run, which has listed it
    by_contra hlocked
    rw [Bool.not_eq_false, ← Disk.place_congr hcurrent] at hlocked
    have hlockedp := hre.locked _ hlocked
    have hvisited : p.Visits plan.working dir := by
      rcases hvisits with rfl | ⟨g, hg, hdir, rfl⟩
      · exact Or.inl rfl
      · have hn : Path.IsEntry g :=
          hre.wellFormed.entries _ (Tree.contains_of_hasDir hdir) _ (by simp)
        have hc := hp.locked _ hlockedp
        rw [← hplace] at hdir
        rw [Disk.place_child hn] at hc
        exact Or.inr ⟨g, hg, hpart.hasDir_of_contains ht hc (hre.partOf.dirs _ hdir), rfl⟩
    rw [(hopens dir hvisited).2] at hlockedp
    cases hlockedp
  · have hn : Path.IsEntry g := hre.wellFormed.entries _ (Tree.contains_of_hasDir hdir) _ (by simp)
    have hdirt := hre.partOf.dirs _ hdir
    refine (hdirs g hg (hplace ▸ hdirt)).imp_right fun hopenst => ?_
    rw [Disk.place_congr hre.partOf.current] at hdirt
    exact Disk.isDirectory_child_congr hre.partOf.current.symm (hopenst _ (Or.inl rfl)).1 hworking' hn
      (hopenst _ (Or.inr ⟨g, hg, hdirt, rfl⟩)).1 hdir

/-- If no written file has become a source, the second run reads what the first has read. -/
theorem load_eq {sources : List Source}
    (hload : p.load plan.selection plan.working = .ok sources)
    (hopens' : p'.OpensDirectories plan.working)
    (hfresh : ∀ f ∈ files, plan.selection.Takes (p.place plan.working) (p.place f.1) →
      plan.ClearsAt t (p.place f.1)) :
    p'.load plan.selection plan.working = .ok sources := by
  obtain ⟨-, hpart, -⟩ := hputs.spec hp
  have hcurrent : p.current = p'.current := hpart.current.trans hre.partOf.current.symm
  have hopens := Disk.opensDirectories_of_load hload
  have hfile : ∀ q, plan.selection.Takes (p.place plan.working) q →
      p.tree.file? q = p'.tree.file? q := by
    intro q htakes
    by_cases hwritten : ∃ f ∈ files, p.place f.1 = q
    · obtain ⟨f, hf, rfl⟩ := hwritten
      obtain ⟨hnone, hnone'⟩ := hre.cleared _ (hfresh f hf htakes)
      rw [hnone, hnone']
    · push Not at hwritten
      exact hre.file?_of_ne hp hputs hwritten
  have hsame : ∀ f, p.Selects plan.selection plan.working f → p.SameFile p' (p.place f.path) := by
    intro f h
    have hlocked := Disk.isLocked_of_load hp hload h
    refine ⟨hfile _ (h.takes hp), hlocked.trans ?_⟩
    by_contra hlocked'
    rw [hre.locked _ (by simpa using Ne.symm hlocked')] at hlocked
    cases hlocked
  rw [← hload]
  refine (Disk.load_eq hp hre.wellFormed hcurrent hopens hopens' hsame fun f h => hsame f ?_).symm
  refine h.congr hre.wellFormed hcurrent.symm ?_
  have htakes := h.takes hre.wellFormed
  rw [← Disk.place_congr hcurrent, ← Disk.place_congr hcurrent] at htakes
  rw [← Disk.place_congr hcurrent]
  exact (hfile _ htakes).symm

end Reprepares

/-- A conversion that has succeeded succeeds again, reports the same and leaves every file as it is,
provided that none of the files it has written is a source the next time, and that the output
directory, if it is to be cleared, was there to be cleared before or is new. Where the extension of
the files makes directories of its own, these have to be such that they can be listed. -/
theorem convertOn_again {report : Report} (hd : d.tree.WellFormed)
    (hcurrent : d.tree.hasDir d.current = true) (h : plan.convertOn d = (.ok report, t))
    (hfresh : ∀ path ∈ report.written, ∀ q w, t.locate path = .ok q →
      t.locate plan.working = .ok w → plan.selection.Takes w q → plan.ClearsAt t q)
    (hagain : plan.ClearsAgain d t)
    (hopens : '/' ∈ plan.layout.extension → t.OpensDirectories plan.working) :
    ∃ t', plan.convertOn t = (.ok report, t') ∧ ∀ q, t'.tree.file? q = t.tree.file? q := by
  obtain ⟨p, sources, hprepare, hload, rfl, hputs⟩ := convertOn_eq_ok_iff.mp h
  obtain ⟨d₁, d₂, hensured, hcleared, hmade⟩ := exec_prepare_eq_ok_iff.mp hprepare
  have hprep : plan.Preparation d d₁ d₂ p := ⟨hensured, hcleared, hmade⟩
  obtain ⟨-, -, hd₂, -⟩ := hprep.wellFormed hd
  obtain ⟨hp, -, -⟩ := Disk.makeDirectories_grows hd₂ hmade
  obtain ⟨ht, hpart, haccepts, hlocked⟩ := hputs.spec hp
  have hworking := Disk.isDirectory_of_load hload
  have hworkingt := hpart.isDirectory hworking
  obtain ⟨p', hprepare', hre⟩ := hprep.exists_reprepares hd hcurrent hworkingt ht hpart hlocked hagain
  have hopens' : p'.OpensDirectories plan.working := by
    refine hre.opensDirectories hp hputs (Disk.opensDirectories_of_load hload) fun g _ hg => ?_
    by_cases hslash : '/' ∈ plan.layout.extension
    · exact Or.inr (hopens hslash)
    · exact Or.inl (hprep.hasDir_child_of_putsAll hd hcurrent hslash hload hputs hg)
  have hload' : p'.load plan.selection plan.working = .ok sources := by
    refine hre.load_eq hp hputs hload hopens' fun f hf htakes => ?_
    obtain ⟨g, hg, rfl⟩ := List.mem_map.mp hf
    rw [Disk.place_congr hpart.current, Disk.place_congr hpart.current] at htakes
    rw [Disk.place_congr hpart.current]
    exact hfresh _ (List.mem_map_of_mem hg) _ _ (haccepts _ hf).locate
      (Disk.locate_of_isDirectory hworkingt).1 htakes
  obtain ⟨t', hputs', -⟩ := Disk.exists_putsAll_on_part hre.wellFormed ht hre.partOf haccepts
    fun f hf => by
      obtain ⟨g, -, rfl⟩ := List.mem_map.mp hf
      exact hre.hasDir_origin g
  refine ⟨t', convertOn_eq_ok_iff.mpr ⟨p', sources, hprepare', hload', rfl, hputs'⟩, fun q => ?_⟩
  refine (hputs.file?_congr hp hre.wellFormed
    (hpart.current.trans hre.partOf.current.symm) hputs' ?_).symm
  -- a written file is the same on both disks, and elsewhere the prepared disks agree
  by_cases hq : ∃ f ∈ (plan.generation sources).files.map (GeneratedFile.target plan.output),
      p.place f.1 = q
  · exact Or.inl hq
  · push Not at hq
    exact Or.inr (hre.file?_of_ne hp hputs hq)

/-- Files of a small project: one class file, and an older interface file in a directory of its own
beside it. -/
def project : Disk where
  tree :=
    { dirs := [.root, ⟨true, ["work".toList]⟩, ⟨true, ["work".toList, "web".toList]⟩]
      files :=
        [(⟨true, ["work".toList, "user.cs".toList]⟩, "public int Age;\n".toUTF8),
          (⟨true, ["work".toList, "web".toList, "old.ts".toList]⟩, "".toUTF8)] }
  current := ⟨true, ["work".toList]⟩

/-- The output directory lies in the working directory, where the files in it would be sources. -/
theorem project_convertOn_again :
    let plan : Plan := { working := ⟨".".toList⟩, output := ⟨"web".toList⟩ }
    project.tree.WellFormed ∧ project.tree.hasDir project.current = true ∧
    ∃ report t, plan.convertOn project = (.ok report, t) ∧
      report.written = [⟨"web/user.ts".toList⟩] ∧
      (∀ path ∈ report.written, ∀ q w, t.locate path = .ok q → t.locate plan.working = .ok w →
        plan.selection.Takes w q → plan.ClearsAt t q) ∧
      plan.ClearsAgain project t ∧
      ('/' ∈ plan.layout.extension → t.OpensDirectories plan.working) ∧
      ∃ t', plan.convertOn t = (.ok report, t') ∧ ∀ q, t'.tree.file? q = t.tree.file? q := by
  intro plan
  have hd : project.tree.WellFormed := by decide +kernel
  have hcurrent : project.tree.hasDir project.current = true := by decide +kernel
  have hwritten : (plan.convertOn project).1.toOption.map (·.written) =
      some [⟨"web/user.ts".toList⟩] := by decide +kernel
  have houtput : (plan.convertOn project).2.locate plan.output =
      .ok ⟨true, ["work".toList, "web".toList]⟩ := by decide +kernel
  have hfile : (plan.convertOn project).2.locate ⟨"web/user.ts".toList⟩ =
      .ok ⟨true, ["work".toList, "web".toList, "user.ts".toList]⟩ := by decide +kernel
  have hagain : plan.ClearsAgain project (plan.convertOn project).2 := by
    intro _ _ _
    exact Or.inl (by decide +kernel)
  have hopens : '/' ∈ plan.layout.extension →
      (plan.convertOn project).2.OpensDirectories plan.working := fun hslash =>
    absurd hslash (by decide)
  obtain ⟨report, h, hreport⟩ := exists_eq_ok_of_map hwritten
  have hfresh : ∀ path ∈ report.written, ∀ q w, (plan.convertOn project).2.locate path = .ok q →
      (plan.convertOn project).2.locate plan.working = .ok w → plan.selection.Takes w q →
      plan.ClearsAt (plan.convertOn project).2 q := by
    intro path hpath q w hq _ _
    rw [hreport, List.mem_singleton] at hpath
    rw [hpath, hfile] at hq
    obtain rfl := Except.ok.inj hq
    exact ⟨rfl, _, houtput, by decide +kernel⟩
  exact ⟨hd, hcurrent, report, _, h, hreport, hfresh, hagain, hopens,
    convertOn_again hd hcurrent h hfresh hagain hopens⟩

/-- Without these provisions a second run may undo the first. Where an interface file becomes a
source, it is taken for a class without members and written over; a directory that was reached
through one that had yet to be made may turn out to hold the working directory; and a directory that
an extension has made may be too far down a long path to be listed. -/
theorem project_convertOn_changes :
    project.tree.WellFormed ∧ project.tree.hasDir project.current = true ∧
    (let plan : Plan := { working := ⟨".".toList⟩, output := ⟨".".toList⟩, clean := false }
      ∃ report t report' t', plan.convertOn project = (.ok report, t) ∧
        plan.convertOn t = (.ok report', t') ∧
        t'.tree.file? ⟨true, ["work".toList, "user.ts".toList]⟩ ≠
          t.tree.file? ⟨true, ["work".toList, "user.ts".toList]⟩) ∧
    (let plan : Plan := { working := ⟨".".toList⟩, output := ⟨"new/..".toList⟩ }
      ∃ report t, plan.convertOn project = (.ok report, t) ∧
        (plan.convertOn t).1.isOk = false) ∧
    (let plan : Plan :=
        { working := ⟨'.' :: List.replicate 4080 '/'⟩, output := ⟨".".toList⟩, clean := false,
          selection := { extensions := ["cs".toList] },
          layout := { extension := "typescript/ts".toList } }
      ∃ report t, plan.convertOn project = (.ok report, t) ∧
        report.written = [⟨"./user.typescript/ts".toList⟩] ∧
        (plan.convertOn t).1.isOk = false) := by
  refine ⟨by decide +kernel, by decide +kernel, ?_, ?_, ?_⟩
  · intro plan
    have hfirst : (plan.convertOn project).1.isOk = true := by decide +kernel
    have hsecond : (plan.convertOn (plan.convertOn project).2).1.isOk = true := by decide +kernel
    obtain ⟨report, h⟩ := exists_eq_ok hfirst
    obtain ⟨report', h'⟩ := exists_eq_ok hsecond
    exact ⟨report, _, report', _, h, h', by decide +kernel⟩
  · intro plan
    have hfirst : (plan.convertOn project).1.isOk = true := by decide +kernel
    obtain ⟨report, h⟩ := exists_eq_ok hfirst
    exact ⟨report, _, h, by decide +kernel⟩
  · intro plan
    have hwritten : (plan.convertOn project).1.toOption.map (·.written) =
        some [⟨"./user.typescript/ts".toList⟩] := by decide +kernel
    obtain ⟨report, h, hreport⟩ := exists_eq_ok_of_map hwritten
    exact ⟨report, _, h, hreport, by decide +kernel⟩

end InterfaceGen.Plan
