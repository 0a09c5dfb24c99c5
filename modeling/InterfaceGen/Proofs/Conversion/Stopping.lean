import InterfaceGen.Proofs.Conversion.Delivery

/-! Files that are delivered to memory up to the first failure. A file is delivered unless an
operation on it has been told to fail or writing to its place is refused. That its directory is
missing is no reason, since the directory has been made before. -/

namespace InterfaceGen

namespace Memory

variable {m m' : Memory} {path : Path} {e : ConversionError}

/-- What keeps a file from being written to `path`, with the error that it leads to. -/
inductive Hinders (m : Memory) (path : Path) : ConversionError → Prop
  | directory {parent : Path} (hparent : path.parent? = some parent)
      (h : m.fails .makeDirectories parent = true) :
      m.Hinders path (.notWritten parent ⟨parent, .injected⟩)
  | writing (h : m.fails .write path = true) : m.Hinders path (.notWritten path ⟨path, .injected⟩)
  | refusal (h : m.refused?.map Place.ofPath = some (.ofPath path)) :
      m.Hinders path (.notWritten path ⟨path, .writeRefused⟩)

theorem Hinders.ne_missingParent (h : m.Hinders path e) (p q : Path) :
    e ≠ .notWritten p ⟨q, .missingParent⟩ := by
  cases h <;> simp

theorem FailsLike.hinders (h : m.FailsLike m') (hinders : m.Hinders path e) :
    m'.Hinders path e := by
  cases hinders with
  | directory hparent hfails => exact .directory hparent ((h.fails _ _).trans hfails)
  | writing hfails => exact .writing ((h.fails _ _).trans hfails)
  | refusal hrefused => exact .refusal (h.refused?.symm ▸ hrefused)

/-- The directory for `path`, if it is to lie in one, has been made. -/
def MakesParent (m : Memory) (path : Path) (m' : Memory) : Prop :=
  match path.parent? with
  | none => m' = m
  | some parent => m.makeDirectories parent = .ok m'

theorem MakesParent.spec (h : m.MakesParent path m') :
    m.tree.Keeps m'.tree ∧ m.FailsLike m' ∧ m'.hasParent (.ofPath path) = true := by
  unfold MakesParent at h
  cases hparent : path.parent? with
  | none =>
    rw [hparent] at h
    obtain rfl : m' = m := h
    exact ⟨.refl _, .refl _, hasParent_of_parent?_eq_none hparent⟩
  | some parent =>
    rw [hparent] at h
    exact ⟨makeDirectories_keeps h, makeDirectories_failsLike h,
      hasParent_of_makeDirectories hparent h⟩

/-- Where a path has its directory, writing to it fails only if it is told to. -/
theorem write_cases (h : m.hasParent (.ofPath path) = true) (contents : Text) :
    (m.write path contents = .ok (m.addFile path contents) ∧ m.fails .write path = false ∧
      m.refused?.map Place.ofPath ≠ some (.ofPath path)) ∨
    ∃ fault, m.write path contents = .error fault ∧
      m.Hinders path (.notWritten path ⟨path, fault⟩) := by
  unfold write
  split_ifs with hfails hrefused
  · exact Or.inr ⟨_, rfl, .writing hfails⟩
  · exact Or.inr ⟨_, rfl, .refusal hrefused⟩
  · exact Or.inl ⟨rfl, by simpa using hfails, hrefused⟩

end Memory

namespace GeneratedFile

variable {output path : Path} {f : GeneratedFile} {files : List GeneratedFile} {m : Memory}

/-- The directory of a file is made, or making it has been told to fail. -/
theorem exec_makeParent_cases (path : Path) (m : Memory) :
    (∃ m', exec (makeParent path) m = (.ok (), m') ∧ m.MakesParent path m' ∧
      ∀ parent, path.parent? = some parent → m.fails .makeDirectories parent = false) ∨
    ∃ e, exec (makeParent path) m = (.error e, m) ∧ m.Hinders path e := by
  unfold makeParent Memory.MakesParent
  cases hparent : path.parent? with
  | none => exact Or.inl ⟨m, rfl, rfl, nofun⟩
  | some parent =>
    simp only [Memory.exec_makeDirectories]
    cases hfails : m.fails .makeDirectories parent with
    | true =>
      refine Or.inr ⟨_, ?_, .directory hparent hfails⟩
      rw [Memory.makeDirectories, if_pos hfails]
      rfl
    | false =>
      refine Or.inl ⟨_, ?_, if_neg (ne_true_of_eq_false hfails), ?_⟩
      · rw [Memory.makeDirectories, if_neg (ne_true_of_eq_false hfails)]
        rfl
      · rintro _ ⟨⟩
        exact hfails

/-- A file is delivered when nothing hinders it. Otherwise there is at most a new directory. -/
theorem exec_deliver_cases (output : Path) (f : GeneratedFile) (m : Memory) :
    (∃ m', exec (deliver output f) m = (.ok (output.join f.path), m') ∧ m.FailsLike m' ∧
      ∀ e, ¬m.Hinders (output.join f.path) e) ∨
    ∃ e m', exec (deliver output f) m = (.error e, m') ∧ m.Hinders (output.join f.path) e ∧
      (m' = m ∨ m.MakesParent (output.join f.path) m') := by
  rcases exec_makeParent_cases (output.join f.path) m with
    ⟨m₁, hmake, hmakes, hdirectory⟩ | ⟨e, hmake, hinders⟩
  · obtain ⟨-, hlike, hhas⟩ := hmakes.spec
    rcases Memory.write_cases hhas f.contents with
      ⟨hwrite, hfails, hrefused⟩ | ⟨fault, hwrite, hinders⟩
    · refine Or.inl ⟨m₁.addFile (output.join f.path) f.contents, ?_, hlike.trans ⟨rfl, rfl⟩, ?_⟩
      · rw [deliver, exec_bind, hmake]
        simp only [exec_bind, Memory.exec_write, hwrite]
        rfl
      · rintro e (⟨hparent, h⟩ | h | h)
        · exact absurd ((hdirectory _ hparent).symm.trans h) Bool.false_ne_true
        · exact absurd (hfails.symm.trans ((hlike.fails _ _).trans h)) Bool.false_ne_true
        · exact hrefused (hlike.refused? ▸ h)
    · refine Or.inr ⟨_, _, ?_, hlike.symm.hinders hinders, Or.inr hmakes⟩
      rw [deliver, exec_bind, hmake]
      simp only [exec_bind, Memory.exec_write, hwrite]
      rfl
  · refine Or.inr ⟨e, m, ?_, hinders, Or.inl rfl⟩
    rw [deliver, exec_bind, hmake]

/-- Files are delivered one after the other as long as nothing hinders them. -/
theorem exec_deliverAll_cases (output : Path) (files : List GeneratedFile) (m : Memory) :
    (∃ m', exec (deliverAll output files) m = (.ok (files.map (output.join ·.path)), m') ∧
      ∀ f ∈ files, ∀ e, ¬m.Hinders (output.join f.path) e) ∨
    ∃ done f rest e m₁ m', files = done ++ f :: rest ∧
      exec (deliverAll output files) m = (.error e, m') ∧ m.Hinders (output.join f.path) e ∧
      exec (deliverAll output done) m = (.ok (done.map (output.join ·.path)), m₁) ∧
      (m' = m₁ ∨ m₁.MakesParent (output.join f.path) m') := by
  induction files generalizing m with
  | nil => exact Or.inl ⟨m, rfl, by simp⟩
  | cons f files ih =>
    rcases exec_deliver_cases output f m with
      ⟨m₁, hdeliver, hlike, hfree⟩ | ⟨e, m', hdeliver, hinders, hleft⟩
    · rcases ih m₁ with ⟨m', hrest, hfrees⟩ |
        ⟨done, g, rest, e, m₂, m', rfl, hfail, hinders, hdone, hleft⟩
      · refine Or.inl ⟨m', ?_, List.forall_mem_cons.mpr ⟨hfree, fun g hg e h => ?_⟩⟩
        · simp only [deliverAll, exec_bind, hdeliver, hrest]
          rfl
        · exact hfrees g hg e (hlike.hinders h)
      · refine Or.inr ⟨f :: done, g, rest, e, m₂, m', rfl, ?_, hlike.symm.hinders hinders, ?_,
          hleft⟩
        · simp only [deliverAll, exec_bind, hdeliver, hfail]
        · simp only [deliverAll, exec_bind, hdeliver, hdone]
          rfl
    · refine Or.inr ⟨[], f, files, e, m, m', rfl, ?_, hinders, rfl, hleft⟩
      simp only [deliverAll, exec_bind, hdeliver]

/-- Either all files are written, each place holding what the last of them put there, or the first
file that something hinders ends it: the files before it are written, at most its directory is
made, and no other file has changed. That a directory is missing is never the reason. -/
theorem deliverAll_stops (output : Path) (files : List GeneratedFile) (m : Memory) :
    (∃ m', exec (deliverAll output files) m = (.ok (files.map (output.join ·.path)), m') ∧
      (∀ f ∈ files, ∀ e, ¬m.Hinders (output.join f.path) e) ∧
      ∀ q, m'.tree.file? q = (lastAt? output files q).or (m.tree.file? q)) ∨
    ∃ done f rest e m₁ m', files = done ++ f :: rest ∧
      exec (deliverAll output files) m = (.error e, m') ∧
      (∀ g ∈ done, ∀ e, ¬m.Hinders (output.join g.path) e) ∧
      m.Hinders (output.join f.path) e ∧
      (∀ p q, e ≠ .notWritten p ⟨q, .missingParent⟩) ∧
      exec (deliverAll output done) m = (.ok (done.map (output.join ·.path)), m₁) ∧
      (m' = m₁ ∨ m₁.MakesParent (output.join f.path) m') ∧
      ∀ q, m'.tree.file? q = (lastAt? output done q).or (m.tree.file? q) := by
  rcases exec_deliverAll_cases output files m with
    ⟨m', hall, hfree⟩ | ⟨done, f, rest, e, m₁, m', rfl, hfail, hinders, hdone, hleft⟩
  · exact Or.inl ⟨m', hall, hfree, (file?_of_deliverAll hall).2⟩
  · refine Or.inr ⟨done, f, rest, e, m₁, m', rfl, hfail, ?_, hinders, hinders.ne_missingParent,
      hdone, hleft, fun q => ?_⟩
    · rcases exec_deliverAll_cases output done m with ⟨m₂, -, hfree⟩ | ⟨_, _, _, e, _, m₂, -, h, -⟩
      · exact hfree
      · cases hdone.symm.trans h
    · have hfiles : m'.tree.file? q = m₁.tree.file? q := by
        rcases hleft with rfl | hmakes
        · rfl
        · exact hmakes.spec.1.files q
      rw [hfiles, (file?_of_deliverAll hdone).2]

/-- The second of three files is refused, by another path to its place. -/
example :
    let file (name : Text) : GeneratedFile := ⟨name, ⟨name⟩, name⟩
    let m : Memory := { refused? := some ⟨"web/../out/b".toList⟩ }
    let run := exec (deliverAll ⟨"out".toList⟩ (["a".toList, "b".toList, "c".toList].map file)) m
    run.1 = .error (.notWritten ⟨"out/b".toList⟩ ⟨⟨"out/b".toList⟩, .writeRefused⟩) ∧
      run.2.tree.files = [(⟨false, ["out".toList, "a".toList]⟩, "a".toList)] := by
  decide +kernel

end GeneratedFile

end InterfaceGen
