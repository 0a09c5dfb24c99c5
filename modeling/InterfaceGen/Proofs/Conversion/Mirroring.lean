import InterfaceGen.Proofs.Conversion.Clearing
import InterfaceGen.Proofs.Conversion.Delivery
import InterfaceGen.Proofs.Interface.ImportPath

/-! The output directory after a conversion. What is delivered lies in it, since the paths of
interface files do not lead out of it; and if it was cleared before, then nothing else does. This
rests on the files being in a closed tree: a directory that is not there holds no files. -/

namespace InterfaceGen

/-- The path of a file is that of an interface whose model has been read from a working
directory. -/
def GeneratedFile.IsPlaced (f : GeneratedFile) : Prop :=
  ∃ (i : Interface) (extension : Text), InterfaceGen.IsPlaced i.group i.name ∧
    '/' ∉ extension ∧ f.path = i.outputPath extension

theorem GeneratedFile.IsPlaced.isWithin {f : GeneratedFile} (h : f.IsPlaced) (output : Path) :
    (f.placeIn output).isWithin (.ofPath output) = true := by
  obtain ⟨i, extension, hi, he, hpath⟩ := h
  rw [placeIn, hpath, ofPath_join_outputPath hi he]
  exact Place.isWithin_append _ _

namespace Plan

open GeneratedFile

variable {plan : Plan} {m p t : Memory} {files : List GeneratedFile} {paths : List Path}

/-- After clearing, no file is left in the output directory. -/
theorem file?_of_clearOutput {m' : Memory} {u : Unit}
    (h : exec (plan.clearOutput : ExceptT _ (StateM Memory) _) m = (.ok u, m'))
    (hfree : m.pathExists plan.output = false →
      ∀ q, q.isWithin (.ofPath plan.output) = true → m.tree.file? q = none)
    {q : Place} (hq : q.isWithin (.ofPath plan.output) = true) : m'.tree.file? q = none := by
  rcases plan.exec_clearOutput_cases m with ⟨hmissing, h'⟩ | ⟨e, h'⟩ | ⟨m₁, h', -, -, -, hremove⟩
  · obtain ⟨-, rfl⟩ := Prod.mk.inj (h.symm.trans h')
    exact hfree hmissing q hq
  · cases h.symm.trans h'
  · obtain ⟨-, rfl⟩ := Prod.mk.inj (h.symm.trans h')
    rw [Memory.removeTree_eq_ok hremove, Tree.file?_remove, if_pos hq]

/-- An output directory that has been prepared to be cleared holds no file. -/
theorem file?_of_prepareIn (hclosed : m.tree.Closed) (houtput : plan.output.isAbsolute = true)
    (hclean : plan.clean = true) (h : plan.prepareIn m = (.ok (), p)) {q : Place}
    (hq : q.isWithin (.ofPath plan.output) = true) : p.tree.file? q = none := by
  unfold prepareIn prepare at h
  obtain ⟨⟨⟩, m₁, hensure, h⟩ := exec_bind_eq_ok_iff.mp h
  obtain ⟨⟨⟩, m₂, hclear, hmake⟩ := exec_bind_eq_ok_iff.mp h
  rw [if_pos hclean] at hclear
  rw [Memory.exec_makeDirectories, Memory.ending_eq_ok_iff] at hmake
  have hkeeps := keeps_withWorking plan m
  rw [withWorking, hensure] at hkeeps
  rw [(Memory.makeDirectories_keeps hmake).files]
  refine file?_of_clearOutput hclear (fun hmissing q hq => ?_) hq
  rw [hkeeps.files]
  by_contra hfile
  have hc : m.tree.contains q = true :=
    Tree.contains_of_isSome_file? (Option.isSome_iff_ne_none.mpr hfile)
  have hfound := hkeeps.contains (hclosed.contains_of_isWithin (Place.rooted_ofPath houtput) hc hq)
  rw [Memory.pathExists, hfound] at hmissing
  cases hmissing

/-- After a conversion the output directory mirrors what has been generated. Nothing is written
outside of it; if it was cleared, its files are those that have been delivered; and if not, they are
these and the ones that were there before. -/
theorem prepareIn_deliverAll_mirrors (hclosed : m.tree.Closed)
    (houtput : plan.output.isAbsolute = true) (hfiles : ∀ f ∈ files, f.IsPlaced)
    (hprepare : plan.prepareIn m = (.ok (), p))
    (hdeliver : exec (deliverAll (m := StateM Memory) plan.output files) p = (.ok paths, t)) :
    (∀ f ∈ files, (f.placeIn plan.output).isWithin (.ofPath plan.output) = true) ∧
    (∀ q, q.isWithin (.ofPath plan.output) = false → t.tree.file? q = m.tree.file? q) ∧
    (plan.clean = true → ∀ q, q.isWithin (.ofPath plan.output) = true →
      t.tree.file? q = lastAt? plan.output files q) ∧
    (plan.clean = false → ∀ q,
      t.tree.file? q = (lastAt? plan.output files q).or (m.tree.file? q)) := by
  have hwithin : ∀ f ∈ files, (f.placeIn plan.output).isWithin (.ofPath plan.output) = true :=
    fun f hf => (hfiles f hf).isWithin plan.output
  obtain ⟨-, hfile⟩ := file?_of_deliverAll hdeliver
  have hspares := spares_prepareIn plan m
  rw [hprepare] at hspares
  refine ⟨hwithin, fun q hq => ?_, fun hclean q hq => ?_, fun hclean q => ?_⟩
  · have hnone : lastAt? plan.output files q = none := by
      by_contra hsome
      obtain ⟨f, hf, rfl⟩ := isSome_lastAt?_iff.mp (Option.isSome_iff_ne_none.mpr hsome)
      rw [hwithin f hf] at hq
      cases hq
    rw [hfile, hnone, Option.none_or, hspares.files q hq]
  · rw [hfile, file?_of_prepareIn hclosed houtput hclean hprepare hq, Option.or_none]
  · have hkeeps := keeps_prepareIn (m := m) (Or.inl hclean)
    rw [hprepare] at hkeeps
    rw [hfile, hkeeps.files]

/-- The older interface file has gone, the class file has not, and of two files with one path the
second counts. -/
theorem shelf_mirrors :
    let plan : Plan := ⟨⟨"/app/models".toList⟩, ⟨"/app/web".toList⟩, true, {}, true, {}⟩
    let files : List GeneratedFile :=
      [⟨"User".toList, ⟨"user.ts".toList⟩, "first".toList⟩,
        ⟨"Tag".toList, ⟨"meta/tag.ts".toList⟩, "tag".toList⟩,
        ⟨"User".toList, ⟨"user.ts".toList⟩, "second".toList⟩]
    shelf.tree.Closed ∧ plan.output.isAbsolute = true ∧ (∀ f ∈ files, f.IsPlaced) ∧
    ∃ p paths t, plan.prepareIn shelf = (.ok (), p) ∧
      exec (deliverAll (m := StateM Memory) plan.output files) p = (.ok paths, t) ∧
      t.tree.file? ⟨true, ["app".toList, "models".toList, "user.cs".toList]⟩ =
        some "public int Age;\n".toList ∧
      t.tree.file? ⟨true, ["app".toList, "web".toList, "old".toList, "tag.ts".toList]⟩ = none ∧
      t.tree.file? ⟨true, ["app".toList, "web".toList, "user.ts".toList]⟩ =
        some "second".toList := by
  intro plan files
  have hclosed : shelf.tree.Closed := by decide +kernel
  have houtput : plan.output.isAbsolute = true := by decide +kernel
  have hfiles : ∀ f ∈ files, f.IsPlaced := by
    have hext : '/' ∉ "ts".toList := by decide
    have hpath : (⟨"user.ts".toList⟩ : Path) =
        Interface.outputPath "ts".toList ⟨"User".toList, [], none, []⟩ := by decide +kernel
    have huser : ∀ contents,
        GeneratedFile.IsPlaced ⟨"User".toList, ⟨"user.ts".toList⟩, contents⟩ := fun _ =>
      ⟨_, _, ⟨Or.inl rfl, by decide, by decide, by decide⟩, hext, hpath⟩
    have htag : GeneratedFile.IsPlaced ⟨"Tag".toList, ⟨"meta/tag.ts".toList⟩, "tag".toList⟩ :=
      ⟨⟨"Tag".toList, "meta".toList, none, []⟩, _,
        ⟨Or.inr ⟨by decide, by decide, by decide⟩, by decide, by decide, by decide⟩, hext,
        by decide +kernel⟩
    simp only [files, List.forall_mem_cons]
    exact ⟨huser _, htag, huser _, fun f hf => absurd hf List.not_mem_nil⟩
  obtain ⟨⟨⟩, hprepare⟩ :=
    exists_eq_ok (show (plan.prepareIn shelf).1.isOk = true by decide +kernel)
  obtain ⟨paths, hdeliver⟩ := exists_eq_ok (show (exec (deliverAll (m := StateM Memory) plan.output
    files) (plan.prepareIn shelf).2).1.isOk = true by decide +kernel)
  obtain ⟨-, houtside, hinside, -⟩ :=
    prepareIn_deliverAll_mirrors hclosed houtput hfiles hprepare hdeliver
  refine ⟨hclosed, houtput, hfiles, _, paths, _, hprepare, hdeliver, ?_, ?_, ?_⟩
  · rw [houtside _ (by decide +kernel)]
    decide +kernel
  · rw [hinside rfl _ (by decide +kernel)]
    decide +kernel
  · rw [hinside rfl _ (by decide +kernel)]
    decide +kernel

end Plan

end InterfaceGen
