import InterfaceGen.Proofs.Conversion.Execution

/-! Files that have been delivered to memory. Where several are written to one place, the last one
is what the place holds; wherever none is written, a place holds what it held. -/

namespace InterfaceGen.GeneratedFile

variable {output path : Path} {f : GeneratedFile} {files : List GeneratedFile}
  {paths : List Path} {m m' : Memory} {q : Place}

/-- The place of a file in the output directory. -/
def placeIn (output : Path) (f : GeneratedFile) : Place := .ofPath (output.join f.path)

/-- What the last of some files that belong to the place `q` holds. -/
def lastAt? (output : Path) (files : List GeneratedFile) (q : Place) : Option Text :=
  ((files.filter (·.placeIn output == q)).getLast?).map (·.contents)

theorem lastAt?_cons : lastAt? output (f :: files) q =
    (lastAt? output files q).or (if q = f.placeIn output then some f.contents else none) := by
  unfold lastAt?
  by_cases hq : q = f.placeIn output
  · rw [List.filter_cons_of_pos (by simp [hq]), List.getLast?_cons, if_pos hq]
    cases (files.filter (·.placeIn output == q)).getLast? <;> simp
  · rw [List.filter_cons_of_neg (by simpa using Ne.symm hq), if_neg hq, Option.or_none]

theorem isSome_lastAt?_iff :
    (lastAt? output files q).isSome = true ↔ ∃ f ∈ files, f.placeIn output = q := by
  simp [lastAt?]

/-- Where every file has a place of its own, that place holds what the file does. -/
theorem lastAt?_of_pairwise (h : files.Pairwise fun f g => f.placeIn output ≠ g.placeIn output)
    (hf : f ∈ files) : lastAt? output files (f.placeIn output) = some f.contents := by
  induction files with
  | nil => cases hf
  | cons g files ih =>
    obtain ⟨hg, hrest⟩ := List.pairwise_cons.mp h
    rw [lastAt?_cons]
    rcases List.mem_cons.mp hf with rfl | hf
    · have hnone : lastAt? output files (f.placeIn output) = none := by
        by_contra hsome
        obtain ⟨g, hmem, hplace⟩ := isSome_lastAt?_iff.mp (Option.isSome_iff_ne_none.mpr hsome)
        exact hg g hmem hplace.symm
      rw [hnone, Option.none_or, if_pos rfl]
    · rw [ih hrest hf, Option.some_or]

theorem keeps_makeParent (path : Path) (m : Memory) :
    m.tree.Keeps (exec (makeParent (m := StateM Memory) path) m).2.tree := by
  unfold makeParent
  cases path.parent? with
  | none => exact .refl m.tree
  | some parent => exact Memory.keeps_makeDirectories

/-- A file that has been delivered is there, and no other has changed. -/
theorem file?_of_deliver (h : exec (deliver (m := StateM Memory) output f) m = (.ok path, m')) :
    path = output.join f.path ∧ ∀ q, m'.tree.file? q =
      if q = f.placeIn output then some f.contents else m.tree.file? q := by
  unfold deliver at h
  obtain ⟨⟨⟩, m₁, hparent, h⟩ := exec_bind_eq_ok_iff.mp h
  obtain ⟨⟨⟩, m₂, hwrite, h⟩ := exec_bind_eq_ok_iff.mp h
  obtain ⟨rfl, rfl⟩ := exec_pure_eq_ok_iff.mp h
  have hkeeps := keeps_makeParent (output.join f.path) m
  rw [hparent] at hkeeps
  rw [Memory.exec_write, Memory.ending_eq_ok_iff] at hwrite
  refine ⟨rfl, fun q => ?_⟩
  rw [Memory.file?_of_write hwrite, hkeeps.files]
  rfl

/-- Every file has been written to its path, and each place holds what the last one put there. -/
theorem file?_of_deliverAll
    (h : exec (deliverAll (m := StateM Memory) output files) m = (.ok paths, m')) :
    paths = files.map (output.join ·.path) ∧
      ∀ q, m'.tree.file? q = (lastAt? output files q).or (m.tree.file? q) := by
  induction files generalizing m paths with
  | nil =>
    obtain ⟨rfl, rfl⟩ := exec_pure_eq_ok_iff.mp h
    exact ⟨rfl, fun q => rfl⟩
  | cons f files ih =>
    unfold deliverAll at h
    obtain ⟨path, m₁, hdeliver, h⟩ := exec_bind_eq_ok_iff.mp h
    obtain ⟨rest, m₂, hrest, h⟩ := exec_bind_eq_ok_iff.mp h
    obtain ⟨rfl, rfl⟩ := exec_pure_eq_ok_iff.mp h
    obtain ⟨rfl, hfile⟩ := file?_of_deliver hdeliver
    obtain ⟨rfl, hfiles⟩ := ih hrest
    refine ⟨rfl, fun q => ?_⟩
    rw [hfiles, hfile, lastAt?_cons, Option.or_assoc]
    split_ifs <;> rfl

end InterfaceGen.GeneratedFile
