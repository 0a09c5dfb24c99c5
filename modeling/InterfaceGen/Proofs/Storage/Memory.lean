import InterfaceGen.Proofs.Path.Lineage
import InterfaceGen.Proofs.Storage.Tree
import InterfaceGen.Storage.Memory

/-! What the operations on files in memory leave as it is. Making directories takes nothing away and
touches no file, a removal is confined to one place and what lies within it, and a file that is
written changes no other. -/

namespace InterfaceGen

namespace Tree

variable {α : Type} {t u v : Tree α} {o : Place}

/-- Nothing has been taken away, and the files are the same. -/
structure Keeps (t u : Tree α) : Prop where
  dirs : ∀ q, t.hasDir q = true → u.hasDir q = true
  files : ∀ q, u.file? q = t.file? q

/-- Whatever lies outside of `o` is still there, and there is no file that was not there before with
the same contents. -/
structure Spares (o : Place) (t u : Tree α) : Prop where
  dirs : ∀ q, q.isWithin o = false → t.hasDir q = true → u.hasDir q = true
  files : ∀ q, q.isWithin o = false → u.file? q = t.file? q
  old : ∀ q c, u.file? q = some c → t.file? q = some c

namespace Keeps

theorem refl (t : Tree α) : t.Keeps t := ⟨fun _ h => h, fun _ => rfl⟩

theorem trans (h : t.Keeps u) (h' : u.Keeps v) : t.Keeps v :=
  ⟨fun q hq => h'.dirs q (h.dirs q hq), fun q => (h'.files q).trans (h.files q)⟩

theorem spares (h : t.Keeps u) (o : Place) : Spares o t u :=
  ⟨fun q _ => h.dirs q, fun q _ => h.files q, fun q c hq => by rwa [← h.files q]⟩

theorem contains (h : t.Keeps u) {q : Place} (hq : t.contains q = true) : u.contains q = true := by
  rw [contains_iff] at hq ⊢
  rw [h.files]
  exact hq.imp_left (h.dirs q)

end Keeps

theorem Spares.trans (h : Spares o t u) (h' : Spares o u v) : Spares o t v :=
  ⟨fun q hq hdir => h'.dirs q hq (h.dirs q hq hdir),
    fun q hq => (h'.files q hq).trans (h.files q hq), fun q c hq => h.old q c (h'.old q c hq)⟩

theorem keeps_addDir (t : Tree α) (p : Place) : t.Keeps (t.addDir p) :=
  ⟨fun q hq => by simp [hq], fun q => file?_addDir⟩

theorem keeps_foldl_addDir (l : List Place) (t : Tree α) : t.Keeps (l.foldl addDir t) := by
  induction l generalizing t with
  | nil => exact .refl t
  | cons p l ih => exact (keeps_addDir t p).trans (ih (t.addDir p))

theorem hasDir_foldl_addDir {l : List Place} {q : Place} :
    (l.foldl addDir t).hasDir q = true ↔ t.hasDir q = true ∨ q ∈ l := by
  induction l generalizing t with
  | nil => simp
  | cons p l ih => simp [ih, or_assoc]

theorem contains_foldl_addDir {l : List Place} {q : Place} :
    (l.foldl addDir t).contains q = true ↔ t.contains q = true ∨ q ∈ l := by
  induction l generalizing t with
  | nil => simp
  | cons p l ih => simp [ih, or_assoc]

theorem spares_remove (t : Tree α) (o : Place) : Spares o t (t.remove (·.isWithin o)) := by
  refine ⟨fun q hq hdir => by simp [hq, hdir], fun q hq => by simp [hq], fun q c hq => ?_⟩
  rw [file?_remove] at hq
  split_ifs at hq
  exact hq

end Tree

namespace Memory

variable {m m' m'' : Memory} {p : Path} {contents : Text}

/-- Both memories have been told to fail in the same way. -/
structure FailsLike (m m' : Memory) : Prop where
  faults : m'.faults = m.faults
  refused? : m'.refused? = m.refused?

namespace FailsLike

theorem refl (m : Memory) : m.FailsLike m := ⟨rfl, rfl⟩

theorem trans (h : m.FailsLike m') (h' : m'.FailsLike m'') : m.FailsLike m'' :=
  ⟨h'.faults.trans h.faults, h'.refused?.trans h.refused?⟩

theorem symm (h : m.FailsLike m') : m'.FailsLike m := ⟨h.faults.symm, h.refused?.symm⟩

theorem fails (h : m.FailsLike m') (op : Operation) (p : Path) : m'.fails op p = m.fails op p := by
  rw [Memory.fails, h.faults, Memory.fails]

end FailsLike

theorem makeDirectories_eq_ok (h : m.makeDirectories p = .ok m') :
    m' = { m with tree := (Place.ofPath p).lineage.foldl Tree.addDir m.tree } := by
  unfold makeDirectories at h
  split_ifs at h
  exact (Except.ok.inj h).symm

theorem makeDirectories_keeps (h : m.makeDirectories p = .ok m') : m.tree.Keeps m'.tree := by
  rw [makeDirectories_eq_ok h]
  exact Tree.keeps_foldl_addDir _ _

theorem makeDirectories_failsLike (h : m.makeDirectories p = .ok m') : m.FailsLike m' := by
  rw [makeDirectories_eq_ok h]
  exact ⟨rfl, rfl⟩

/-- Where the parent of a path has been made, something can be put at the path. -/
theorem hasParent_of_makeDirectories {parent : Path} (hparent : p.parent? = some parent)
    (h : m.makeDirectories parent = .ok m') : m'.hasParent (.ofPath p) = true := by
  rw [makeDirectories_eq_ok h, hasParent]
  cases hq : (Place.ofPath p).parent? with
  | none => rfl
  | some q => exact Tree.hasDir_foldl_addDir.mpr (Or.inr (Place.mem_lineage_of_parent? hparent hq))

theorem hasParent_of_parent?_eq_none (h : p.parent? = none) : m.hasParent (.ofPath p) = true := by
  rw [hasParent, Place.parent?_eq_none_of_parent?_eq_none h]

theorem hasParent_iff {q : Place} :
    m.hasParent q = true ↔ ∀ r, q.parent? = some r → m.tree.hasDir r = true := by
  unfold hasParent
  cases q.parent? <;> simp

theorem removeTree_eq_ok (h : m.removeTree p = .ok m') :
    m' = { m with tree := m.tree.remove (·.isWithin (.ofPath p)) } := by
  unfold removeTree at h
  split_ifs at h
  exact (Except.ok.inj h).symm

theorem removeTree_failsLike (h : m.removeTree p = .ok m') : m.FailsLike m' := by
  rw [removeTree_eq_ok h]
  exact ⟨rfl, rfl⟩

theorem removeTree_spares (h : m.removeTree p = .ok m') :
    Tree.Spares (.ofPath p) m.tree m'.tree := by
  rw [removeTree_eq_ok h]
  exact Tree.spares_remove _ _

theorem eq_ofPath_of_locate {q : Place} (h : m.locate p = .ok q) : q = .ofPath p := by
  unfold locate at h
  split_ifs at h
  exact (Except.ok.inj h).symm

theorem write_eq_ok (h : m.write p contents = .ok m') :
    m.hasParent (.ofPath p) = true ∧ m' = m.addFile p contents := by
  unfold write at h
  split_ifs at h with hfails hrefused hparent
  exact ⟨hparent, (Except.ok.inj h).symm⟩

theorem file?_of_write (h : m.write p contents = .ok m') (q : Place) :
    m'.tree.file? q = if q = .ofPath p then some contents else m.tree.file? q := by
  rw [(write_eq_ok h).2]
  exact Tree.file?_addFile

end Memory

end InterfaceGen
