import InterfaceGen.Proofs.Path.NormalForm
import InterfaceGen.Proofs.Storage.Memory

/-! Calls of the operations on files in memory, one after the other. Only three operations change
anything, and each of them keeps the files a tree: directories are made together with all above
them, whatever lies within a place goes with it, and a file is put only where its directory is. So
the files stay a tree in any run, whichever of its calls fail. -/

namespace InterfaceGen

namespace Tree

variable {α : Type} {t : Tree α} {p : Place}

/-- Every place is normal, and it lies in a directory that is there. -/
structure Coherent (t : Tree α) : Prop where
  normal : ∀ p, t.contains p = true → p.IsNormal
  closed : t.Closed

theorem coherent_iff : t.Coherent ↔ (∀ p ∈ t.places, p.IsNormal) ∧ t.Closed :=
  ⟨fun h => ⟨fun p hp => h.normal p (contains_iff_mem.mpr hp), h.closed⟩,
    fun h => ⟨fun p hp => h.1 p (contains_iff_mem.mp hp), h.2⟩⟩

instance (t : Tree α) : Decidable t.Coherent := decidable_of_iff _ coherent_iff.symm

namespace Coherent

/-- The places above a normal place can be made directories together. -/
theorem foldl_addDir (h : t.Coherent) (hp : p.IsNormal) :
    (p.lineage.foldl Tree.addDir t).Coherent := by
  refine ⟨fun q hq => ?_, fun q hq r hr => ?_⟩
  · rcases contains_foldl_addDir.mp hq with hq | hq
    · exact h.normal q hq
    · exact hp.of_isPrefix (Place.mem_lineage.mp hq).2.2
  · rcases contains_foldl_addDir.mp hq with hq | hq
    · exact hasDir_foldl_addDir.mpr (Or.inl (h.closed q hq r hr))
    · obtain ⟨-, hrooted, hnames⟩ := Place.mem_lineage.mp hq
      obtain ⟨-, hne, rfl⟩ := Place.parent?_eq_some_iff.mp hr
      refine hasDir_foldl_addDir.mpr (Or.inr (Place.mem_lineage.mpr ⟨hne, hrooted, ?_⟩))
      exact (List.dropLast_prefix _).trans hnames

/-- What lies in a directory goes with it, so nothing that stays has lost its directory. -/
theorem remove (h : t.Coherent) (o : Place) : (t.remove (·.isWithin o)).Coherent := by
  have hcases : ∀ q, (t.remove (·.isWithin o)).contains q = true →
      t.contains q = true ∧ q.isWithin o = false := by
    intro q hq
    simpa using hq
  refine ⟨fun q hq => h.normal q (hcases q hq).1, fun q hq r hr => ?_⟩
  obtain ⟨hq, hout⟩ := hcases q hq
  have hdir := h.closed q hq r hr
  obtain ⟨-, -, rfl⟩ := Place.parent?_eq_some_iff.mp hr
  have habove : q.above.isWithin o = false := by
    by_contra hw
    rw [Place.isWithin_above_of_isWithin (by simpa using hw)] at hout
    cases hout
  simp [hdir, habove]

/-- A file can be put at a normal place whose directory is there. -/
theorem addFile (h : t.Coherent) (hp : p.IsNormal)
    (hparent : ∀ r, p.parent? = some r → t.hasDir r = true) (c : α) : (t.addFile p c).Coherent := by
  have hcases : ∀ q, (t.addFile p c).contains q = true → t.contains q = true ∨ q = p := by
    intro q hq
    simpa using hq
  refine ⟨fun q hq => ?_, fun q hq r hr => ?_⟩
  · rcases hcases q hq with hq | rfl
    · exact h.normal q hq
    · exact hp
  · rw [hasDir_addFile]
    rcases hcases q hq with hq | rfl
    · exact h.closed q hq r hr
    · exact hparent r hr

end Coherent

end Tree

/-- A call of one of the operations on files. -/
inductive Call
  | pathExists (p : Path)
  | makeDirectories (p : Path)
  | removeTree (p : Path)
  | write (p : Path) (contents : Text)
  | locate (p : Path)

/-- What a call that does not fail gives back. -/
inductive Answer
  | there (b : Bool)
  | done
  | place (p : Place)
deriving DecidableEq

def Call.perform {m : Type → Type} [Monad m] [Storage m] :
    Call → m (Except StorageError Answer)
  | .pathExists p => return .ok (.there (← Storage.pathExists p))
  | .makeDirectories p => return (← Storage.makeDirectories p).map fun _ => .done
  | .removeTree p => return (← Storage.removeTree p).map fun _ => .done
  | .write p contents => return (← Storage.write p contents).map fun _ => .done
  | .locate p => return (← Storage.locate p).map .place

namespace Memory

variable {m m' : Memory} {c : Call}

/-- A call on files in memory, and the memory that it leaves. -/
def perform (m : Memory) (c : Call) : Except StorageError Answer × Memory :=
  (c.perform : StateM Memory _).run m

/-- The memory after some calls, failed ones included. -/
def after (m : Memory) (calls : List Call) : Memory := calls.foldl (fun m c => (m.perform c).2) m

/-- The calls that change something, with what they make of the memory. -/
inductive Changes (m : Memory) : Call → Memory → Prop
  | makeDirectories {p : Path} {m' : Memory} (h : m.makeDirectories p = .ok m') :
    m.Changes (.makeDirectories p) m'
  | removeTree {p : Path} {m' : Memory} (h : m.removeTree p = .ok m') :
    m.Changes (.removeTree p) m'
  | write {p : Path} {contents : Text} {m' : Memory} (h : m.write p contents = .ok m') :
    m.Changes (.write p contents) m'

/-- An operation that may fail leaves the memory as it was or does what it is meant to do. -/
theorem perform_settled {p : Path} {r : Except Fault Memory}
    (h : m.perform c = ((settle p m r).1.map fun _ => .done, (settle p m r).2)) :
    (m.perform c).2 = m ∨ ∃ m', m.perform c = (.ok .done, m') ∧ r = .ok m' := by
  cases r with
  | error fault => exact Or.inl (congrArg Prod.snd h)
  | ok m' => exact Or.inr ⟨m', h, rfl⟩

/-- Asking changes nothing, and neither does a call that fails. -/
theorem perform_cases (m : Memory) (c : Call) :
    (m.perform c).2 = m ∨ ∃ m', m.perform c = (.ok .done, m') ∧ m.Changes c m' := by
  cases c with
  | pathExists p => exact Or.inl rfl
  | makeDirectories p =>
    refine (perform_settled (r := m.makeDirectories p) rfl).imp_right ?_
    exact fun ⟨m', h, hr⟩ => ⟨m', h, .makeDirectories hr⟩
  | removeTree p =>
    refine (perform_settled (r := m.removeTree p) rfl).imp_right ?_
    exact fun ⟨m', h, hr⟩ => ⟨m', h, .removeTree hr⟩
  | write p contents =>
    refine (perform_settled (r := m.write p contents) rfl).imp_right ?_
    exact fun ⟨m', h, hr⟩ => ⟨m', h, .write hr⟩
  | locate p => exact Or.inl rfl

theorem eq_of_perform_eq_error {e : StorageError} (h : m.perform c = (.error e, m')) : m' = m := by
  rcases m.perform_cases c with hsame | ⟨m₁, hdone, -⟩
  · rw [h] at hsame
    exact hsame
  · rw [h] at hdone
    cases hdone

/-- A file that has been written holds what was written, and no other has changed. -/
theorem file?_of_perform_write {p : Path} {contents : Text} {a : Answer}
    (h : m.perform (.write p contents) = (.ok a, m')) (q : Place) :
    m'.tree.file? q = if q = .ofPath p then some contents else m.tree.file? q := by
  have hperform : m.perform (.write p contents) = ((settle p m (m.write p contents)).1.map
      fun _ => .done, (settle p m (m.write p contents)).2) := rfl
  rw [hperform] at h
  cases hwrite : m.write p contents with
  | error fault =>
    rw [hwrite] at h
    cases h
  | ok m₁ =>
    rw [hwrite] at h
    obtain ⟨-, rfl⟩ := Prod.mk.inj h
    exact file?_of_write hwrite q

theorem Changes.coherent (h : m.Changes c m') (hm : m.tree.Coherent) : m'.tree.Coherent := by
  cases h with
  | makeDirectories h =>
    rw [makeDirectories_eq_ok h]
    exact hm.foldl_addDir (Place.isNormal_ofPath _)
  | removeTree h =>
    rw [removeTree_eq_ok h]
    exact hm.remove _
  | write h =>
    obtain ⟨hparent, rfl⟩ := write_eq_ok h
    exact hm.addFile (Place.isNormal_ofPath _) (hasParent_iff.mp hparent) _

theorem coherent_perform (h : m.tree.Coherent) (c : Call) : (m.perform c).2.tree.Coherent := by
  rcases m.perform_cases c with hsame | ⟨m', hdone, hchanges⟩
  · rwa [hsame]
  · rw [hdone]
    exact hchanges.coherent h

theorem coherent_after (h : m.tree.Coherent) (calls : List Call) :
    (m.after calls).tree.Coherent := by
  induction calls generalizing m with
  | nil => exact h
  | cons c calls ih => exact ih (coherent_perform h c)

/-- Files in memory that are a tree stay one, whatever is called and whatever has been told to fail.
At any time, a call that fails leaves all as it was; and a file that has been written can be read by
each path to its place, while no other file has changed. -/
theorem calls_keep_tree (h : m.tree.Coherent) (calls : List Call) :
    (m.after calls).tree.Coherent ∧
    (∀ c e m', (m.after calls).perform c = (.error e, m') → m' = m.after calls) ∧
    ∀ p contents a m', (m.after calls).perform (.write p contents) = (.ok a, m') →
      (∀ q : Path, q.normalize = p.normalize → m'.read? q = some contents) ∧
      ∀ q, q ≠ .ofPath p → m'.tree.file? q = (m.after calls).tree.file? q := by
  refine ⟨coherent_after h calls, fun c e m' => eq_of_perform_eq_error, ?_⟩
  intro p contents a m' hwrite
  have hfile := file?_of_perform_write hwrite
  constructor
  · intro q hq
    rw [read?, hfile, if_pos (Path.normalize_eq_iff.mp hq)]
  · intro q hq
    rw [hfile, if_neg hq]

/-- Two directories are made on an empty storage, and a removal that reaches neither by its name and
one that has been told to fail follow. The refused file is refused by another path, too. -/
theorem empty_calls_keep_tree :
    let m : Memory :=
      { refused? := some ⟨"/out/bad.ts".toList⟩, faults := [(.removeTree, ⟨"/out".toList⟩)] }
    let calls : List Call := [.makeDirectories ⟨"/out/a/../web//b".toList⟩,
      .write ⟨"/out/web/b/./tag.ts".toList⟩ "tag".toList, .removeTree ⟨"/out/we".toList⟩,
      .removeTree ⟨"/out".toList⟩, .write ⟨"/lib/tag.ts".toList⟩ []]
    m.tree.Coherent ∧ (m.after calls).tree.Coherent ∧
    (m.after calls).tree.places = [.root, ⟨true, ["out".toList]⟩,
      ⟨true, ["out".toList, "web".toList]⟩, ⟨true, ["out".toList, "web".toList, "b".toList]⟩,
      ⟨true, ["out".toList, "web".toList, "b".toList, "tag.ts".toList]⟩] ∧
    ((m.after calls).perform (.write ⟨"/out/web/../bad.ts".toList⟩ [])).2 = m.after calls ∧
    ∃ m', (m.after calls).perform (.write ⟨"/out/user.ts".toList⟩ "user".toList) =
        (.ok .done, m') ∧
      m'.read? ⟨"//out/web/.././user.ts/".toList⟩ = some "user".toList ∧
      m'.read? ⟨"/out/web/b/tag.ts".toList⟩ = some "tag".toList := by
  intro m calls
  have hstart : m.tree.Coherent := by decide
  obtain ⟨hcoherent, hfailed, hwritten⟩ := calls_keep_tree hstart calls
  have hrefused : ((m.after calls).perform (.write ⟨"/out/web/../bad.ts".toList⟩ [])).1 =
      .error ⟨⟨"/out/web/../bad.ts".toList⟩, .writeRefused⟩ := by decide +kernel
  have hdone : ((m.after calls).perform (.write ⟨"/out/user.ts".toList⟩ "user".toList)).1 =
      .ok .done := by decide +kernel
  have hplaces : (m.after calls).tree.places = [.root, ⟨true, ["out".toList]⟩,
      ⟨true, ["out".toList, "web".toList]⟩, ⟨true, ["out".toList, "web".toList, "b".toList]⟩,
      ⟨true, ["out".toList, "web".toList, "b".toList, "tag.ts".toList]⟩] := by decide +kernel
  have htag : (m.after calls).tree.file? (.ofPath ⟨"/out/web/b/tag.ts".toList⟩) =
      some "tag".toList := by decide +kernel
  generalize m.after calls = t at *
  obtain ⟨hread, hothers⟩ := hwritten _ _ _ _ (Prod.ext hdone rfl)
  refine ⟨hstart, hcoherent, hplaces, hfailed _ _ _ (Prod.ext hrefused rfl), _,
    Prod.ext hdone rfl, hread _ (by decide +kernel), ?_⟩
  rw [read?, hothers _ (by decide +kernel), htag]

end Memory

end InterfaceGen
