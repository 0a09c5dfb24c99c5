import InterfaceGen.Proofs.Conversion.Clearing
import InterfaceGen.Proofs.Path.NormalForm

/-! Paths that are spelled in different ways. Files in memory are found by normal forms, so a path
can be replaced by another one to the same place: each operation has the same outcome, and so has
preparing the directories of a conversion, with its refusal to clear a directory that holds the
working directory. Only the paths that the errors quote are spelled as they were given. -/

namespace InterfaceGen

def StorageError.mapPath (f : Path → Path) (e : StorageError) : StorageError := ⟨f e.path, e.fault⟩

def SourceError.mapPath (f : Path → Path) : SourceError → SourceError
  | .missingRoot root => .missingRoot (f root)
  | .unlisted root dir fault => .unlisted (f root) (f dir) fault
  | .unreadable path fault => .unreadable (f path) fault

/-- The error with each path that it quotes replaced. -/
def ConversionError.mapPaths (f : Path → Path) : ConversionError → ConversionError
  | .workingNotCreated dir e => .workingNotCreated (f dir) (e.mapPath f)
  | .notLocated dir e => .notLocated (f dir) (e.mapPath f)
  | .outputHoldsWorking output working => .outputHoldsWorking (f output) (f working)
  | .outputNotCleared dir e => .outputNotCleared (f dir) (e.mapPath f)
  | .outputNotCreated dir e => .outputNotCreated (f dir) (e.mapPath f)
  | .source e => .source (e.mapPath f)
  | .notWritten path e => .notWritten (f path) (e.mapPath f)

namespace Memory

variable {m m' : Memory} {p q : Path}

/-- Two paths to one place, on both of which the memory has been told to fail or on neither. -/
structure Respells (m : Memory) (p q : Path) : Prop where
  normalize : p.normalize = q.normalize
  fails : ∀ op, m.fails op p = m.fails op q

/-- No operation tells the two paths apart. -/
structure TreatsAlike (m : Memory) (p q : Path) : Prop where
  pathExists : m.pathExists p = m.pathExists q
  makeDirectories : m.makeDirectories p = m.makeDirectories q
  removeTree : m.removeTree p = m.removeTree q
  write : ∀ contents, m.write p contents = m.write q contents
  locate : m.locate p = m.locate q

/-- Where no operation has been told to fail, the normal form is all that counts. -/
theorem respells_of_faults_eq_nil (hfaults : m.faults = []) (h : p.normalize = q.normalize) :
    m.Respells p q :=
  ⟨h, fun op => by simp [Memory.fails, hfaults]⟩

namespace Respells

theorem of_failsLike (h : m.Respells p q) (hlike : m.FailsLike m') : m'.Respells p q :=
  ⟨h.normalize, fun op => by rw [hlike.fails, hlike.fails, h.fails]⟩

theorem treatsAlike (h : m.Respells p q) : m.TreatsAlike p q := by
  have hplace : Place.ofPath p = .ofPath q := Path.normalize_eq_iff.mp h.normalize
  refine ⟨?_, ?_, ?_, fun contents => ?_, ?_⟩
  · rw [pathExists, pathExists, hplace]
  · rw [makeDirectories, makeDirectories, hplace, h.fails]
  · rw [removeTree, removeTree, hplace, h.fails]
  · rw [write, write, addFile, addFile, hplace, h.fails]
  · rw [locate, locate, pathExists, pathExists, hplace, h.fails]

end Respells

end Memory

section Agreement

variable {ε ε' σ α β : Type}

/-- Two runs end in the same state and with the same result, up to what `f` does to their errors. -/
structure Agree (f : ε → ε') (y y' : Except ε α × σ) : Prop where
  result : y.1.mapError f = y'.1.mapError f
  state : y.2 = y'.2

theorem Agree.refl (f : ε → ε') (y : Except ε α × σ) : Agree f y y := ⟨rfl, rfl⟩

/-- Two computations agree if their first steps do, and what follows agrees wherever these succeed.
-/
theorem agree_bind {f : ε → ε'} {x x' : ExceptT ε (StateM σ) α} {g g' : α → ExceptT ε (StateM σ) β}
    {s : σ} (hx : Agree f (exec x s) (exec x' s))
    (hg : ∀ a t, exec x s = (.ok a, t) → Agree f (exec (g a) t) (exec (g' a) t)) :
    Agree f (exec (x >>= g) s) (exec (x' >>= g') s) := by
  rw [exec_bind, exec_bind]
  rcases h : exec x s with ⟨e | a, t⟩ <;> rcases h' : exec x' s with ⟨e' | a', t'⟩ <;>
    rw [h, h'] at hx <;> obtain ⟨hresult, rfl⟩ := hx
  · exact ⟨congrArg Except.error (Except.error.inj hresult), rfl⟩
  · cases hresult
  · cases hresult
  · obtain rfl := Except.ok.inj hresult
    exact hg a t h

end Agreement

/-- Errors with their paths in normal form. -/
def ConversionError.normalize : ConversionError → ConversionError := mapPaths Path.normalize

section Steps

variable {m : Memory} {p q : Path} {kind : Path → StorageError → ConversionError}
  (hkind : ∀ f dir e, (kind dir e).mapPaths f = kind (f dir) (e.mapPath f))

include hkind

theorem normalize_kind (h : p.normalize = q.normalize) (fault : Fault) :
    (kind p ⟨p, fault⟩).normalize = (kind q ⟨q, fault⟩).normalize := by
  rw [ConversionError.normalize, hkind, hkind, StorageError.mapPath, StorageError.mapPath, h]

theorem agree_ending (h : p.normalize = q.normalize) (r : Except Fault Memory) :
    Agree ConversionError.normalize (m.ending p (kind p) r) (m.ending q (kind q) r) := by
  cases r with
  | ok m' => exact .refl _ _
  | error fault => exact ⟨congrArg Except.error (normalize_kind hkind h fault), rfl⟩

variable (h : m.Respells p q)

include h

theorem agree_makeDirectories : Agree ConversionError.normalize
    (exec (attempt (m := StateM Memory) (Storage.makeDirectories p) (kind p)) m)
    (exec (attempt (m := StateM Memory) (Storage.makeDirectories q) (kind q)) m) := by
  rw [Memory.exec_makeDirectories, Memory.exec_makeDirectories, h.treatsAlike.makeDirectories]
  exact agree_ending hkind h.normalize _

theorem agree_removeTree : Agree ConversionError.normalize
    (exec (attempt (m := StateM Memory) (Storage.removeTree p) (kind p)) m)
    (exec (attempt (m := StateM Memory) (Storage.removeTree q) (kind q)) m) := by
  rw [Memory.exec_removeTree, Memory.exec_removeTree, h.treatsAlike.removeTree]
  exact agree_ending hkind h.normalize _

theorem agree_locate : Agree ConversionError.normalize
    (exec (attempt (m := StateM Memory) (Storage.locate p) (kind p)) m)
    (exec (attempt (m := StateM Memory) (Storage.locate q) (kind q)) m) := by
  rw [Memory.exec_locate, Memory.exec_locate, h.treatsAlike.locate]
  refine ⟨?_, rfl⟩
  cases m.locate q with
  | ok place => rfl
  | error fault => exact congrArg Except.error (normalize_kind hkind h.normalize fault)

end Steps

namespace Plan

variable {plan plan' : Plan} {m t : Memory} {u : Unit}

/-- Two plans for the same directories, which they may spell in different ways. -/
structure Respells (m : Memory) (plan plan' : Plan) : Prop where
  working : m.Respells plan.working plan'.working
  output : m.Respells plan.output plan'.output
  clean : plan.clean = plan'.clean

theorem Respells.of_failsLike (h : plan.Respells m plan') (hlike : m.FailsLike t) :
    plan.Respells t plan' :=
  ⟨h.working.of_failsLike hlike, h.output.of_failsLike hlike, h.clean⟩

theorem failsLike_of_ensureWorking
    (h : exec (plan.ensureWorking : ExceptT _ (StateM Memory) _) m = (.ok u, t)) :
    m.FailsLike t := by
  unfold ensureWorking at h
  rw [Memory.exec_pathExists] at h
  split_ifs at h
  · obtain ⟨-, rfl⟩ := exec_pure_eq_ok_iff.mp h
    exact .refl _
  · rw [Memory.exec_makeDirectories, Memory.ending_eq_ok_iff] at h
    exact Memory.makeDirectories_failsLike h

theorem failsLike_of_clearOutput
    (h : exec (plan.clearOutput : ExceptT _ (StateM Memory) _) m = (.ok u, t)) :
    m.FailsLike t := by
  rcases plan.exec_clearOutput_cases m with ⟨-, h'⟩ | ⟨e, h'⟩ | ⟨m', h', -, -, -, hremove⟩
  · obtain ⟨-, rfl⟩ := Prod.mk.inj (h.symm.trans h')
    exact .refl _
  · cases h.symm.trans h'
  · obtain ⟨-, rfl⟩ := Prod.mk.inj (h.symm.trans h')
    exact Memory.removeTree_failsLike hremove

variable (h : plan.Respells m plan')

include h

theorem agree_ensureWorking : Agree ConversionError.normalize
    (exec (plan.ensureWorking : ExceptT _ (StateM Memory) _) m)
    (exec (plan'.ensureWorking : ExceptT _ (StateM Memory) _) m) := by
  unfold ensureWorking
  rw [Memory.exec_pathExists, Memory.exec_pathExists, h.working.treatsAlike.pathExists]
  split_ifs
  · exact .refl _ _
  · exact agree_makeDirectories (fun _ _ _ => rfl) h.working

/-- The output directory is cleared, left or refused alike. -/
theorem agree_clearOutput : Agree ConversionError.normalize
    (exec (plan.clearOutput : ExceptT _ (StateM Memory) _) m)
    (exec (plan'.clearOutput : ExceptT _ (StateM Memory) _) m) := by
  unfold clearOutput locate
  rw [Memory.exec_pathExists, Memory.exec_pathExists, h.output.treatsAlike.pathExists]
  split_ifs
  · refine agree_bind (agree_locate (fun _ _ _ => rfl) h.working) fun working t hw => ?_
    obtain ⟨-, rfl⟩ := Prod.mk.inj (Memory.exec_locate.symm.trans hw)
    refine agree_bind (agree_locate (fun _ _ _ => rfl) h.output) fun output t ho => ?_
    obtain ⟨-, rfl⟩ := Prod.mk.inj (Memory.exec_locate.symm.trans ho)
    split_ifs
    · have hrefusal : (ConversionError.outputHoldsWorking plan.output plan.working).normalize =
          (ConversionError.outputHoldsWorking plan'.output plan'.working).normalize := by
        simp [ConversionError.normalize, ConversionError.mapPaths, h.working.normalize,
          h.output.normalize]
      exact ⟨congrArg Except.error hrefusal, rfl⟩
    · exact agree_removeTree (fun _ _ _ => rfl) h.output
  · exact .refl _ _

theorem agree_prepareIn :
    Agree ConversionError.normalize (plan.prepareIn m) (plan'.prepareIn m) := by
  unfold prepareIn prepare
  refine agree_bind (agree_ensureWorking h) fun _ t ht => ?_
  replace h := h.of_failsLike (failsLike_of_ensureWorking ht)
  rw [h.clean]
  refine agree_bind ?_ fun _ u hu => ?_
  · split_ifs
    · exact agree_clearOutput h
    · exact .refl _ _
  · have hlike : t.FailsLike u := by
      split_ifs at hu
      · exact failsLike_of_clearOutput hu
      · obtain ⟨-, rfl⟩ := exec_pure_eq_ok_iff.mp hu
        exact .refl _
    exact agree_makeDirectories (fun _ _ _ => rfl) (h.of_failsLike hlike).output

end Plan

/-- The normal form of a path is its own, and holds no dot and no double dot. A join leads to one
place however its first path is spelled, and goes down from there if the second consists of names.
So two paths with one normal form are treated alike, by the operations on files in memory as well as
by the preparation of directories, which refuses to clear the one whenever it refuses the other. -/
theorem normalize_compositional (a b : Path) :
    (∀ c ∈ a.normalize.components, c ≠ .here ∧ c ≠ .up) ∧
    a.normalize.normalize = a.normalize ∧
    (a.join b).normalize = (a.normalize.join b).normalize ∧
    ((∀ c ∈ b.components, ∃ n, c = .name n) →
      a.normalize.components <+: (a.join b).normalize.components) ∧
    (∀ (m : Memory) (a' : Path), m.Respells a a' → m.TreatsAlike a a') ∧
    ∀ (m : Memory) (plan plan' : Plan), plan.Respells m plan' →
      Agree ConversionError.normalize (plan.prepareIn m) (plan'.prepareIn m) := by
  refine ⟨fun c hc => ?_, Path.normalize_normalize a, Path.normalize_join a b,
    Path.components_normalize_join a, fun m a' h => h.treatsAlike,
    fun m plan plan' h => Plan.agree_prepareIn h⟩
  rcases Path.exists_of_mem_components_normalize hc with rfl | ⟨n, rfl⟩
  · exact ⟨nofun, nofun⟩
  · exact ⟨nofun, nofun⟩

/-- Two spellings of the output directory of the shelf: a file below it is found from either, and
with both directories spelled anew the same is cleared. -/
theorem shelf_normalize_compositional :
    let web : Path := ⟨"/app/web".toList⟩
    let detour : Path := ⟨"/app/./models/..//web/".toList⟩
    let tag : Path := ⟨"old//tag.ts".toList⟩
    let plan : Plan := ⟨⟨"/app/models".toList⟩, web, true, {}, true, {}⟩
    let plan' : Plan := ⟨⟨"/app/web/../models".toList⟩, detour, true, {}, true, {}⟩
    (∀ c ∈ tag.components, ∃ n, c = .name n) ∧
    detour.normalize.components <+: (detour.join tag).normalize.components ∧
    Plan.shelf.Respells detour web ∧ Plan.shelf.locate detour = Plan.shelf.locate web ∧
    plan.Respells Plan.shelf plan' ∧
    (plan'.prepareIn Plan.shelf).2.tree.file? (.ofPath (web.join tag)) = none := by
  intro web detour tag plan plan'
  have hnames : ∀ c ∈ tag.components, ∃ n, c = .name n := by
    have hcomponents : tag.components = [.name "old".toList, .name "tag.ts".toList] := by decide
    simp [hcomponents]
  have hweb : Plan.shelf.Respells detour web :=
    Memory.respells_of_faults_eq_nil rfl (by decide +kernel)
  have hplans : plan.Respells Plan.shelf plan' :=
    ⟨Memory.respells_of_faults_eq_nil rfl (by decide +kernel),
      Memory.respells_of_faults_eq_nil rfl (by decide +kernel), rfl⟩
  obtain ⟨-, -, -, hprefix, halike, hprepare⟩ := normalize_compositional detour tag
  refine ⟨hnames, hprefix hnames, hweb, (halike _ _ hweb).locate, hplans, ?_⟩
  rw [← (hprepare _ _ _ hplans).state]
  decide +kernel

end InterfaceGen
