import InterfaceGen.Proofs.Conversion.Execution

/-! What preparing its directories can destroy. Of all that a conversion does, clearing the output
directory is the only step that takes anything away. It takes away nothing outside of that
directory, and nothing at all unless the directory has been found, the working directory has been
found elsewhere, and the removal succeeds. -/

namespace InterfaceGen

/-- The conversion stops because of its configuration, and says so. -/
def ConversionError.IsConfiguration (e : ConversionError) : Prop :=
  "Configuration error: ".toList <+: e.message

namespace ConversionError

theorem isConfiguration_directoryMessage (what : String) (dir : Path) (cause : StorageError) :
    "Configuration error: ".toList <+: directoryMessage what dir cause := by
  have h : "Configuration error: ".toList <+: "Configuration error: cannot ".toList := by decide
  exact h.trans (List.prefix_append _ _)

theorem isConfiguration_outputHoldsWorking (output working : Path) :
    (outputHoldsWorking output working).IsConfiguration := by
  have h : "Configuration error: ".toList <+:
      "Configuration error: refusing to clear convert directory ".toList := by decide
  exact h.trans (List.prefix_append _ _)

end ConversionError

namespace Plan

variable {plan : Plan} {m m' : Memory}

section Errors

variable {σ : Type} [Storage (StateM σ)] {s t : σ} {e : ConversionError}

omit [Storage (StateM σ)] in
/-- Any directory that cannot be used is a matter of the configuration. -/
theorem isConfiguration_of_attempt {α : Type} {operation : StateM σ (Except StorageError α)}
    {meaning : StorageError → ConversionError} {what : String} {dir : Path}
    (hmeaning : ∀ cause, (meaning cause).message = ConversionError.directoryMessage what dir cause)
    (h : exec (attempt operation meaning) s = (.error e, t)) : e.IsConfiguration := by
  obtain ⟨cause, rfl⟩ := exec_attempt_eq_error h
  rw [ConversionError.IsConfiguration, hmeaning]
  exact ConversionError.isConfiguration_directoryMessage what dir cause

theorem isConfiguration_of_ensureWorking
    (h : exec (plan.ensureWorking : ExceptT _ (StateM σ) _) s = (.error e, t)) :
    e.IsConfiguration := by
  unfold ensureWorking at h
  obtain h | ⟨there, u, -, h⟩ := exec_bind_eq_error_iff.mp h
  · cases h
  · split_ifs at h
    · cases h
    · exact isConfiguration_of_attempt (fun _ => rfl) h

theorem isConfiguration_of_clearOutput
    (h : exec (plan.clearOutput : ExceptT _ (StateM σ) _) s = (.error e, t)) :
    e.IsConfiguration := by
  unfold clearOutput at h
  obtain h | ⟨there, u, -, h⟩ := exec_bind_eq_error_iff.mp h
  · cases h
  · split_ifs at h
    · obtain h | ⟨working, u, -, h⟩ := exec_bind_eq_error_iff.mp h
      · exact isConfiguration_of_attempt (fun _ => rfl) h
      obtain h | ⟨output, u, -, h⟩ := exec_bind_eq_error_iff.mp h
      · exact isConfiguration_of_attempt (fun _ => rfl) h
      split_ifs at h
      · obtain rfl := Except.error.inj (Prod.mk.inj h).1
        exact ConversionError.isConfiguration_outputHoldsWorking _ _
      · exact isConfiguration_of_attempt (fun _ => rfl) h
    · cases h

/-- Whatever goes wrong in the preparation is a matter of the configuration. -/
theorem isConfiguration_of_prepare
    (h : exec (plan.prepare : ExceptT _ (StateM σ) _) s = (.error e, t)) : e.IsConfiguration := by
  unfold prepare at h
  obtain h | ⟨-, u, -, h⟩ := exec_bind_eq_error_iff.mp h
  · exact isConfiguration_of_ensureWorking h
  obtain h | ⟨-, v, -, h⟩ := exec_bind_eq_error_iff.mp h
  · split_ifs at h
    · exact isConfiguration_of_clearOutput h
    · cases h
  · exact isConfiguration_of_attempt (fun _ => rfl) h

end Errors

/-- Prepares the directories of a plan in memory. -/
def prepareIn (plan : Plan) (m : Memory) : Except ConversionError Unit × Memory :=
  exec plan.prepare m

/-- The memory once the working directory has been looked for and, if it was missing, made. -/
def withWorking (plan : Plan) (m : Memory) : Memory :=
  (exec (plan.ensureWorking : ExceptT _ (StateM Memory) _) m).2

theorem keeps_withWorking (plan : Plan) (m : Memory) : m.tree.Keeps (plan.withWorking m).tree := by
  unfold withWorking ensureWorking
  rw [Memory.exec_pathExists]
  split_ifs
  · exact .refl m.tree
  · exact Memory.keeps_makeDirectories

/-- There is no output directory, or clearing it stops before it has changed anything, or it is
removed. -/
theorem exec_clearOutput_cases (plan : Plan) (m : Memory) :
    (m.pathExists plan.output = false ∧
      exec (plan.clearOutput : ExceptT _ (StateM Memory) _) m = (.ok (), m)) ∨
    (∃ e, exec (plan.clearOutput : ExceptT _ (StateM Memory) _) m = (.error e, m)) ∨
    ∃ m', exec (plan.clearOutput : ExceptT _ (StateM Memory) _) m = (.ok (), m') ∧
      (Place.ofPath plan.working).isWithin (.ofPath plan.output) = false ∧
      (m.locate plan.working).isOk = true ∧ (m.locate plan.output).isOk = true ∧
      m.removeTree plan.output = .ok m' := by
  unfold clearOutput locate
  rw [Memory.exec_pathExists]
  split_ifs with hexists
  · rw [exec_bind, Memory.exec_locate]
    cases hw : m.locate plan.working with
    | error fault => exact Or.inr (Or.inl ⟨_, rfl⟩)
    | ok w =>
      simp only [Except.mapError]
      rw [exec_bind, Memory.exec_locate]
      cases ho : m.locate plan.output with
      | error fault => exact Or.inr (Or.inl ⟨_, rfl⟩)
      | ok o =>
        simp only [Except.mapError]
        split_ifs with hwithin
        · exact Or.inr (Or.inl ⟨_, rfl⟩)
        · rw [Memory.exec_removeTree]
          cases hremove : m.removeTree plan.output with
          | error fault => exact Or.inr (Or.inl ⟨_, rfl⟩)
          | ok m' =>
            rw [Memory.eq_ofPath_of_locate hw, Memory.eq_ofPath_of_locate ho] at hwithin
            exact Or.inr (Or.inr ⟨m', rfl, by simpa using hwithin, rfl, rfl, rfl⟩)
  · exact Or.inl ⟨by simpa using hexists, rfl⟩

theorem clearOutput_spares (plan : Plan) (m : Memory) : Tree.Spares (.ofPath plan.output) m.tree
    (exec (plan.clearOutput : ExceptT _ (StateM Memory) _) m).2.tree := by
  rcases plan.exec_clearOutput_cases m with ⟨-, h⟩ | ⟨e, h⟩ | ⟨m', h, -, -, -, hremove⟩
  · rw [h]
    exact (Tree.Keeps.refl m.tree).spares _
  · rw [h]
    exact (Tree.Keeps.refl m.tree).spares _
  · rw [h]
    exact Memory.removeTree_spares hremove

/-- Nothing is removed when the working directory lies in the output directory, nor when one of the
two cannot be found or the removal fails. -/
def Withholds (plan : Plan) (m : Memory) : Prop :=
  (Place.ofPath plan.working).isWithin (.ofPath plan.output) = true ∨
    (m.locate plan.working).isOk = false ∨ (m.locate plan.output).isOk = false ∨
    (m.removeTree plan.output).isOk = false

theorem clearOutput_keeps (h : plan.Withholds m) : m.tree.Keeps
    (exec (plan.clearOutput : ExceptT _ (StateM Memory) _) m).2.tree := by
  rcases plan.exec_clearOutput_cases m with ⟨-, h'⟩ | ⟨e, h'⟩ | ⟨m', h', hwithin, hw, ho, hremove⟩
  · rw [h']
    exact .refl m.tree
  · rw [h']
    exact .refl m.tree
  · exfalso
    rcases h with h | h | h | h
    · rw [hwithin] at h
      cases h
    · rw [hw] at h
      cases h
    · rw [ho] at h
      cases h
    · rw [hremove] at h
      cases h

/-- What preparing the directories does to the files and directories is related by `R` if clearing
and adding directories are. -/
theorem prepareIn_related {R : Tree Text → Tree Text → Prop}
    (htrans : ∀ {a b c}, R a b → R b c → R a c) (hkeeps : ∀ {t u : Tree Text}, t.Keeps u → R t u)
    (hclear : plan.clean = true → R (plan.withWorking m).tree
      (exec (plan.clearOutput : ExceptT _ (StateM Memory) _) (plan.withWorking m)).2.tree) :
    R m.tree (plan.prepareIn m).2.tree := by
  unfold prepareIn prepare
  refine exec_bind_related (R := fun s t : Memory => R s.tree t.tree) htrans
    (hkeeps (keeps_withWorking plan m)) fun _ m₁ h₁ => ?_
  refine exec_bind_related (R := fun s t : Memory => R s.tree t.tree) htrans ?_
    fun _ m₂ _ => hkeeps Memory.keeps_makeDirectories
  rw [withWorking, h₁] at hclear
  split_ifs with hclean
  · exact hclear hclean
  · exact hkeeps (.refl m₁.tree)

/-- An output directory that holds the working directory is not cleared. -/
theorem exec_clearOutput_ne_ok (hexists : m.pathExists plan.output = true)
    (hwithin : (Place.ofPath plan.working).isWithin (.ofPath plan.output) = true) {u : Unit} :
    exec (plan.clearOutput : ExceptT _ (StateM Memory) _) m ≠ (.ok u, m') := by
  intro h
  rcases plan.exec_clearOutput_cases m with ⟨hfree, -⟩ | ⟨e, h'⟩ | ⟨m', -, hapart, -⟩
  · rw [hexists] at hfree
    cases hfree
  · rw [h] at h'
    cases h'
  · rw [hwithin] at hapart
    cases hapart

theorem exists_error_of_isWithin (hclean : plan.clean = true)
    (hwithin : (Place.ofPath plan.working).isWithin (.ofPath plan.output) = true)
    (hexists : (plan.withWorking m).pathExists plan.output = true) :
    ∃ e, (plan.prepareIn m).1 = .error e ∧ e.IsConfiguration := by
  cases hr : plan.prepareIn m with
  | mk result m' =>
  cases result with
  | error e => exact ⟨e, rfl, isConfiguration_of_prepare hr⟩
  | ok u =>
    exfalso
    unfold prepareIn prepare at hr
    obtain ⟨⟨⟩, m₁, h₁, hr⟩ := exec_bind_eq_ok_iff.mp hr
    obtain ⟨⟨⟩, m₂, h₂, -⟩ := exec_bind_eq_ok_iff.mp hr
    rw [withWorking, h₁] at hexists
    rw [if_pos hclean] at h₂
    exact exec_clearOutput_ne_ok hexists hwithin h₂

theorem spares_prepareIn (plan : Plan) (m : Memory) :
    Tree.Spares (.ofPath plan.output) m.tree (plan.prepareIn m).2.tree :=
  prepareIn_related Tree.Spares.trans (Tree.Keeps.spares · _) fun _ => clearOutput_spares plan _

theorem keeps_prepareIn (h : plan.clean = false ∨ plan.Withholds (plan.withWorking m)) :
    m.tree.Keeps (plan.prepareIn m).2.tree := by
  refine prepareIn_related Tree.Keeps.trans id fun hclean => ?_
  rcases h with h | h
  · rw [hclean] at h
    cases h
  · exact clearOutput_keeps h

/-- Preparing the directories destroys nothing outside of the output directory, whether it succeeds
or not. No file is made or changed, and nothing at all is removed when clearing is not asked for or
withheld. Where the output directory holds the working directory, clearing it is an error of the
configuration. -/
theorem prepareIn_confined (plan : Plan) (m : Memory) :
    Tree.Spares (.ofPath plan.output) m.tree (plan.prepareIn m).2.tree ∧
    (plan.clean = false ∨ plan.Withholds (plan.withWorking m) →
      m.tree.Keeps (plan.prepareIn m).2.tree) ∧
    (plan.clean = true → (Place.ofPath plan.working).isWithin (.ofPath plan.output) = true →
      (plan.withWorking m).pathExists plan.output = true →
      ∃ e, (plan.prepareIn m).1 = .error e ∧ e.IsConfiguration) :=
  ⟨spares_prepareIn plan m, keeps_prepareIn, exists_error_of_isWithin⟩

/-- Files of a small project in memory: a class file, and beside it a directory with an older
interface file. -/
def shelf : Memory where
  tree :=
    { dirs := [.root, ⟨true, ["app".toList]⟩, ⟨true, ["app".toList, "models".toList]⟩,
        ⟨true, ["app".toList, "web".toList]⟩, ⟨true, ["app".toList, "web".toList, "old".toList]⟩]
      files :=
        [(⟨true, ["app".toList, "models".toList, "user.cs".toList]⟩, "public int Age;\n".toList),
          (⟨true, ["app".toList, "web".toList, "old".toList, "tag.ts".toList]⟩, [])] }

/-- A detour to the output directory does not matter, and one that ends above the working directory
is noticed. -/
theorem shelf_prepareIn_confined :
    let user : Place := ⟨true, ["app".toList, "models".toList, "user.cs".toList]⟩
    let tag : Place := ⟨true, ["app".toList, "web".toList, "old".toList, "tag.ts".toList]⟩
    let beside : Plan :=
      ⟨⟨"/app/models".toList⟩, ⟨"/app//models/../web/".toList⟩, true, {}, true, {}⟩
    let above : Plan := ⟨⟨"/app/models".toList⟩, ⟨"/app/models/..".toList⟩, true, {}, true, {}⟩
    ((beside.prepareIn shelf).1.isOk = true ∧ (beside.prepareIn shelf).2.tree.file? tag = none ∧
      (beside.prepareIn shelf).2.tree.file? user = some "public int Age;\n".toList) ∧
    shelf.tree.Keeps (above.prepareIn shelf).2.tree ∧
    ∃ e, (above.prepareIn shelf).1 = .error e ∧ e.IsConfiguration := by
  intro user tag beside above
  have hok : (beside.prepareIn shelf).1.isOk = true := by decide +kernel
  have htag : (beside.prepareIn shelf).2.tree.file? tag = none := by decide +kernel
  obtain ⟨hspares, -, -⟩ := prepareIn_confined beside shelf
  obtain ⟨-, hkeeps, hrefuses⟩ := prepareIn_confined above shelf
  have hwithin : (Place.ofPath above.working).isWithin (.ofPath above.output) = true := by
    decide +kernel
  refine ⟨⟨hok, htag, ?_⟩, hkeeps (Or.inr (Or.inl hwithin)), hrefuses rfl hwithin ?_⟩
  · rw [hspares.files user (by decide +kernel)]
    decide +kernel
  · decide +kernel

end Plan

end InterfaceGen
