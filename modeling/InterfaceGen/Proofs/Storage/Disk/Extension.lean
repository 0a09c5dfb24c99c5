import InterfaceGen.Proofs.Storage.Disk.Locate

/-! Disks of which one has all directories and files of the other. Whatever path leads to a
directory on the one does so on the other, and what is a directory on the other is none but that on
the one. -/

namespace InterfaceGen.Disk

/-- Every directory and every file of the first disk is one of the second, where a file may hold
something else. -/
structure PartOf (d e : Disk) : Prop where
  current : d.current = e.current
  dirs : ∀ q, d.tree.hasDir q = true → e.tree.hasDir q = true
  files : ∀ q, (d.tree.file? q).isSome = true → (e.tree.file? q).isSome = true

/-- The second disk has more directories than the first, and the same files and locks. -/
structure Grows (d e : Disk) : Prop where
  current : d.current = e.current
  dirs : ∀ q, d.tree.hasDir q = true → e.tree.hasDir q = true
  files : ∀ q, e.tree.file? q = d.tree.file? q
  locked : ∀ q, e.tree.isLocked q = d.tree.isLocked q

variable {d e t : Disk} {p q : Path} {dir : Place} {segments : List Text}

namespace Grows

theorem refl (d : Disk) : d.Grows d := ⟨rfl, fun _ h => h, fun _ => rfl, fun _ => rfl⟩

theorem trans (h : d.Grows e) (h' : e.Grows t) : d.Grows t :=
  ⟨h.current.trans h'.current, fun q hq => h'.dirs q (h.dirs q hq),
    fun q => (h'.files q).trans (h.files q), fun q => (h'.locked q).trans (h.locked q)⟩

theorem partOf (h : d.Grows e) : d.PartOf e :=
  ⟨h.current, h.dirs, fun q hq => by rwa [h.files q]⟩

end Grows

theorem origin_congr (h : d.current = e.current) (p : Path) : d.origin p = e.origin p := by
  rw [origin, origin, h]

theorem place_congr (h : d.current = e.current) (p : Path) : d.place p = e.place p := by
  rw [place, place, origin_congr h]

theorem Leads.mono (hdirs : ∀ q, d.tree.hasDir q = true → e.tree.hasDir q = true)
    (hl : d.Leads dir segments) : e.Leads dir segments :=
  ⟨hl.fits, fun q hq => hdirs q (hl.dirs q hq)⟩

namespace PartOf

theorem refl (d : Disk) : d.PartOf d := (Grows.refl d).partOf

theorem trans (h : d.PartOf e) (h' : e.PartOf t) : d.PartOf t :=
  ⟨h.current.trans h'.current, fun q hq => h'.dirs q (h.dirs q hq),
    fun q hq => h'.files q (h.files q hq)⟩

/-- What is a directory on the larger disk is no file on the smaller one. -/
theorem hasDir_of_contains (h : d.PartOf e) (he : e.tree.WellFormed) {q : Place}
    (hq : d.tree.contains q = true) (hdir : e.tree.hasDir q = true) : d.tree.hasDir q = true := by
  rcases Tree.contains_iff.mp hq with hq | hq
  · exact hq
  · have hfile := h.files q hq
    rw [he.disjoint q hdir] at hfile
    cases hfile

theorem isDirectory (h : d.PartOf e) (hp : d.isDirectory p = true) : e.isDirectory p = true := by
  obtain ⟨hf, hl⟩ := isDirectory_iff.mp hp
  rw [origin_congr h.current] at hl
  exact isDirectory_iff.mpr ⟨hf, hl.mono h.dirs⟩

theorem holder (h : d.PartOf e) {n : Text} (hp : d.holder p = .ok (dir, .name n)) :
    e.holder p = .ok (dir, .name n) := by
  obtain ⟨above, he, hn, hf, hl, hdir⟩ := holder_eq_name_iff.mp hp
  rw [origin_congr h.current] at hl hdir
  exact holder_eq_name_iff.mpr ⟨above, he, hn, hf, hl.mono h.dirs, hdir⟩

end PartOf

end InterfaceGen.Disk
