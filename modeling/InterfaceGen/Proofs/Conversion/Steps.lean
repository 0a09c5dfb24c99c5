import InterfaceGen.Proofs.Conversion.Execution
import InterfaceGen.Proofs.Storage.Disk.Removal
import InterfaceGen.Proofs.Storage.Disk.Writing

/-! What each step of a conversion does to a disk when it succeeds. -/

namespace InterfaceGen

variable {d d' : Disk} {u : Unit}

namespace GeneratedFile

/-- Where a file is to be written, and its bytes. -/
def target (output : Path) (f : GeneratedFile) : Path × ByteArray :=
  (output.join f.path, (String.ofList f.contents).toUTF8)

theorem exec_makeParent_eq_ok_iff {p : Path} :
    exec (makeParent (m := StateM Disk) p) d = (.ok u, d') ↔ d.makeParent p = (.ok (), d') := by
  unfold makeParent Disk.makeParent
  cases p.parent? with
  | none =>
    rw [exec_pure_eq_ok_iff]
    simp [eq_comm]
  | some q => exact exec_makeDirectories_eq_ok_iff

theorem exec_deliver_eq_ok_iff {output p : Path} {f : GeneratedFile} :
    exec (deliver (m := StateM Disk) output f) d = (.ok p, d') ↔
      p = output.join f.path ∧ d.Puts (f.target output).1 (f.target output).2 d' := by
  unfold deliver Disk.Puts target
  simp only [exec_bind_eq_ok_iff, exec_makeParent_eq_ok_iff, exec_write_eq_ok_iff,
    exec_pure_eq_ok_iff]
  constructor
  · rintro ⟨-, e, hmake, -, d₁, hwrite, rfl, rfl⟩
    exact ⟨rfl, e, hmake, hwrite⟩
  · rintro ⟨rfl, e, hmake, hwrite⟩
    exact ⟨(), e, hmake, (), d', hwrite, rfl, rfl⟩

theorem exec_deliverAll_eq_ok_iff {output : Path} {files : List GeneratedFile} {paths : List Path} :
    exec (deliverAll (m := StateM Disk) output files) d = (.ok paths, d') ↔
      paths = files.map (output.join ·.path) ∧ d.PutsAll (files.map (target output)) d' := by
  induction files generalizing d d' paths with
  | nil =>
    rw [deliverAll, exec_pure_eq_ok_iff]
    simp [Disk.PutsAll, eq_comm]
  | cons f files ih =>
    simp only [deliverAll, exec_bind_eq_ok_iff, exec_deliver_eq_ok_iff, ih, exec_pure_eq_ok_iff]
    constructor
    · rintro ⟨-, e, ⟨rfl, hput⟩, -, d₁, ⟨rfl, hall⟩, rfl, rfl⟩
      exact ⟨rfl, e, hput, hall⟩
    · rintro ⟨rfl, e, hput, hall⟩
      exact ⟨_, e, ⟨rfl, hput⟩, _, d', ⟨rfl, hall⟩, rfl, rfl⟩

end GeneratedFile

namespace Plan

variable {plan : Plan}

theorem exec_ensureWorking_eq_ok_iff :
    exec (plan.ensureWorking : ExceptT _ (StateM Disk) _) d = (.ok u, d') ↔
      if d.pathExists plan.working = true then d' = d
      else d.makeDirectories plan.working = (.ok (), d') := by
  unfold ensureWorking
  rw [exec_pathExists]
  split_ifs
  · rw [exec_pure_eq_ok_iff]
    simp
  · exact exec_makeDirectories_eq_ok_iff

theorem exec_clearOutput_eq_ok_iff :
    exec (plan.clearOutput : ExceptT _ (StateM Disk) _) d = (.ok u, d') ↔
      if d.pathExists plan.output = true then
        ∃ w o, d.locate plan.working = .ok w ∧ d.locate plan.output = .ok o ∧
          w.isWithin o = false ∧ d.removeTree plan.output = (.ok (), d')
      else d' = d := by
  unfold clearOutput
  rw [exec_pathExists]
  split_ifs
  · simp only [exec_bind_eq_ok_iff, locate, exec_locate_eq_ok_iff]
    constructor
    · rintro ⟨w, d₁, ⟨hw, rfl⟩, o, d₂, ⟨ho, rfl⟩, h⟩
      split_ifs at h with hwithin
      · cases h
      · exact ⟨w, o, hw, ho, by simpa using hwithin, exec_removeTree_eq_ok_iff.mp h⟩
    · rintro ⟨w, o, hw, ho, hwithin, hremove⟩
      refine ⟨w, d, ⟨hw, rfl⟩, o, d, ⟨ho, rfl⟩, ?_⟩
      rw [if_neg (by simp [hwithin])]
      exact exec_removeTree_eq_ok_iff.mpr hremove
  · rw [exec_pure_eq_ok_iff]
    simp

theorem exec_prepare_eq_ok_iff :
    exec (plan.prepare : ExceptT _ (StateM Disk) _) d = (.ok u, d') ↔
      ∃ d₁ d₂, exec (plan.ensureWorking : ExceptT _ (StateM Disk) _) d = (.ok (), d₁) ∧
        (if plan.clean = true then
            exec (plan.clearOutput : ExceptT _ (StateM Disk) _) d₁ = (.ok (), d₂)
          else d₂ = d₁) ∧
        d₂.makeDirectories plan.output = (.ok (), d') := by
  unfold prepare
  simp only [exec_bind_eq_ok_iff, exec_makeDirectories_eq_ok_iff]
  constructor
  · rintro ⟨⟨⟩, d₁, hensure, ⟨⟩, d₂, hclear, hmake⟩
    refine ⟨d₁, d₂, hensure, ?_, hmake⟩
    split_ifs at hclear ⊢
    · exact hclear
    · exact (exec_pure_eq_ok_iff.mp hclear).2
  · rintro ⟨d₁, d₂, hensure, hclear, hmake⟩
    refine ⟨(), d₁, hensure, (), d₂, ?_, hmake⟩
    split_ifs at hclear ⊢
    · exact hclear
    · exact exec_pure_eq_ok_iff.mpr ⟨rfl, hclear⟩

end Plan

end InterfaceGen
