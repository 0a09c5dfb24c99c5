import InterfaceGen.Conversion.Run
import InterfaceGen.Proofs.Storage.Memory
import Mathlib.Tactic

/-! Runs of a computation that changes a state and may stop. A run that succeeds is made of the runs
of its steps, each of which succeeds. -/

namespace InterfaceGen

section Execution

variable {ε σ α β : Type}

/-- Runs a computation from the state `s`. What was done before a failure stays done. -/
def exec (x : ExceptT ε (StateM σ) α) (s : σ) : Except ε α × σ := x.run.run s

variable {x : ExceptT ε (StateM σ) α} {f : α → ExceptT ε (StateM σ) β} {s t : σ} {b : β}

theorem exists_eq_ok {y : Except ε α × σ} (h : y.1.isOk = true) : ∃ a, y = (.ok a, y.2) := by
  obtain ⟨_ | a, s⟩ := y
  · cases h
  · exact ⟨a, rfl⟩

/-- What has been computed of the result shows that there is one. -/
theorem exists_eq_ok_of_map {y : Except ε α × σ} {f : α → β} (h : y.1.toOption.map f = some b) :
    ∃ a, y = (.ok a, y.2) ∧ f a = b := by
  obtain ⟨_ | a, s⟩ := y
  · cases h
  · exact ⟨a, rfl, Option.some.inj h⟩

theorem exec_bind : exec (x >>= f) s =
    match exec x s with
    | (.ok a, t) => exec (f a) t
    | (.error e, t) => (.error e, t) := by
  change (match x.run.run s with
    | (r, t) => (ExceptT.bindCont f r : StateM σ _).run t) = _
  unfold exec
  rcases x.run.run s with ⟨e | a, t⟩ <;> rfl

theorem exec_bind_eq_ok_iff : exec (x >>= f) s = (.ok b, t) ↔
    ∃ a u, exec x s = (.ok a, u) ∧ exec (f a) u = (.ok b, t) := by
  rw [exec_bind]
  rcases exec x s with ⟨_ | a, u⟩ <;> simp

theorem exec_bind_eq_error_iff {e : ε} : exec (x >>= f) s = (.error e, t) ↔
    exec x s = (.error e, t) ∨ ∃ a u, exec x s = (.ok a, u) ∧ exec (f a) u = (.error e, t) := by
  rw [exec_bind]
  rcases exec x s with ⟨_ | a, u⟩ <;> simp

/-- What two steps do to the state one after the other is related to where they start if both are,
whether they succeed or not. -/
theorem exec_bind_related {R : σ → σ → Prop} (htrans : ∀ {a b c}, R a b → R b c → R a c)
    (hx : R s (exec x s).2) (hf : ∀ a u, exec x s = (.ok a, u) → R u (exec (f a) u).2) :
    R s (exec (x >>= f) s).2 := by
  rw [exec_bind]
  rcases h : exec x s with ⟨e | a, u⟩
  · rwa [h] at hx
  · rw [h] at hx
    exact htrans hx (hf a u h)

theorem exec_pure_eq_ok_iff {a b : α} :
    exec (pure a : ExceptT ε (StateM σ) α) s = (.ok b, t) ↔ b = a ∧ t = s := by
  change (Except.ok a, s) = (Except.ok b, t) ↔ _
  simp [eq_comm]

/-- A step that only asks about the state leaves it as it is. -/
theorem exec_ask {γ : Type} {ask : StateM σ γ} {g : γ → ExceptT ε (StateM σ) β} {c : γ}
    (h : ask.run s = (c, s)) : exec (liftM ask >>= g) s = exec (g c) s := by
  rw [exec_bind]
  change (match (Except.ok (ask.run s).1, (ask.run s).2) with
    | (.ok a, t) => exec (g a) t
    | (.error e, t) => (.error e, t)) = _
  rw [h]

theorem exec_adapt {ε' : Type} {g : ε → ε'} :
    exec (ExceptT.adapt g x) s = ((exec x s).1.mapError g, (exec x s).2) := rfl

theorem exec_attempt {operation : StateM σ (Except StorageError α)}
    {meaning : StorageError → ConversionError} :
    exec (attempt operation meaning) s =
      ((operation.run s).1.mapError meaning, (operation.run s).2) := rfl

theorem exec_attempt_eq_error {operation : StateM σ (Except StorageError α)}
    {meaning : StorageError → ConversionError} {e : ConversionError}
    (h : exec (attempt operation meaning) s = (.error e, t)) : ∃ cause, e = meaning cause := by
  rw [exec_attempt] at h
  cases hr : (operation.run s).1 with
  | ok a => simp [hr, Except.mapError] at h
  | error cause =>
    rw [hr] at h
    exact ⟨cause, (Except.error.inj (Prod.mk.inj h).1).symm⟩

end Execution

theorem mapError_eq_ok_iff {ε ε' α : Type} {f : ε → ε'} {r : Except ε α} {a : α} :
    r.mapError f = .ok a ↔ r = .ok a := by
  cases r <;> simp [Except.mapError]

section Disk

variable {d d' : Disk} {p : Path} {meaning : StorageError → ConversionError} {u : Unit}

theorem exec_pathExists {ε β : Type} {g : Bool → ExceptT ε (StateM Disk) β} :
    exec (liftM (Storage.pathExists p : StateM Disk Bool) >>= g) d = exec (g (d.pathExists p)) d :=
  exec_ask rfl

theorem exec_settled_eq_ok_iff {operation : StateM Disk (Except StorageError Unit)}
    {o : Disk.Outcome} (h : operation.run d = Disk.settle p o) :
    exec (attempt operation meaning) d = (.ok u, d') ↔ o = (.ok (), d') := by
  rw [exec_attempt, h, Disk.settle, Prod.mk.injEq, mapError_eq_ok_iff, mapError_eq_ok_iff,
    Prod.ext_iff]

theorem exec_makeDirectories_eq_ok_iff :
    exec (attempt (m := StateM Disk) (Storage.makeDirectories p) meaning) d = (.ok u, d') ↔
      d.makeDirectories p = (.ok (), d') := exec_settled_eq_ok_iff rfl

theorem exec_removeTree_eq_ok_iff :
    exec (attempt (m := StateM Disk) (Storage.removeTree p) meaning) d = (.ok u, d') ↔
      d.removeTree p = (.ok (), d') := exec_settled_eq_ok_iff rfl

theorem run_write (p : Path) (contents : Text) :
    (Storage.write p contents : StateM Disk (Except StorageError Unit)).run d =
      match d.write p (String.ofList contents).toUTF8 with
      | .ok d' => (.ok (), d')
      | .error fault => (.error ⟨p, fault⟩, d) := rfl

theorem exec_write_eq_ok_iff {contents : Text} :
    exec (attempt (m := StateM Disk) (Storage.write p contents) meaning) d = (.ok u, d') ↔
      d.write p (String.ofList contents).toUTF8 = .ok d' := by
  rw [exec_attempt, run_write]
  cases d.write p (String.ofList contents).toUTF8 <;> simp [Except.mapError]

theorem exec_locate_eq_ok_iff {q : Place} :
    exec (attempt (m := StateM Disk) (Storage.locate p) meaning) d = (.ok q, d') ↔
      d.locate p = .ok q ∧ d' = d := by
  rw [exec_attempt]
  change (((d.locate p).mapError _).mapError meaning, d) = _ ↔ _
  rw [Prod.mk.injEq, mapError_eq_ok_iff, mapError_eq_ok_iff, eq_comm (a := d)]

end Disk

namespace Memory

variable {m : Memory} {p : Path} {meaning : StorageError → ConversionError}

theorem exec_pathExists {ε β : Type} {g : Bool → ExceptT ε (StateM Memory) β} :
    exec (liftM (Storage.pathExists p : StateM Memory Bool) >>= g) m =
      exec (g (m.pathExists p)) m := exec_ask rfl

/-- The end of an operation on `p` in memory, with the meaning of its failure. -/
def ending (m : Memory) (p : Path) (meaning : StorageError → ConversionError) :
    Except Fault Memory → Except ConversionError Unit × Memory
  | .ok m' => (.ok (), m')
  | .error fault => (.error (meaning ⟨p, fault⟩), m)

theorem exec_settled {operation : StateM Memory (Except StorageError Unit)}
    {r : Except Fault Memory} (h : operation.run m = settle p m r) :
    exec (attempt operation meaning) m = m.ending p meaning r := by
  rw [exec_attempt, h]
  cases r <;> rfl

theorem exec_makeDirectories :
    exec (attempt (m := StateM Memory) (Storage.makeDirectories p) meaning) m =
      m.ending p meaning (m.makeDirectories p) := exec_settled rfl

theorem keeps_makeDirectories : m.tree.Keeps
    (exec (attempt (m := StateM Memory) (Storage.makeDirectories p) meaning) m).2.tree := by
  rw [exec_makeDirectories]
  cases h : m.makeDirectories p with
  | ok m' => exact makeDirectories_keeps h
  | error fault => exact .refl m.tree

theorem exec_removeTree :
    exec (attempt (m := StateM Memory) (Storage.removeTree p) meaning) m =
      m.ending p meaning (m.removeTree p) := exec_settled rfl

theorem exec_write {contents : Text} :
    exec (attempt (m := StateM Memory) (Storage.write p contents) meaning) m =
      m.ending p meaning (m.write p contents) := exec_settled rfl

theorem ending_eq_ok_iff {r : Except Fault Memory} {m' : Memory} {u : Unit} :
    m.ending p meaning r = (.ok u, m') ↔ r = .ok m' := by
  cases r <;> simp [ending]

/-- Looking for the place of a path leaves the memory as it is. -/
theorem exec_locate :
    exec (attempt (m := StateM Memory) (Storage.locate p) meaning) m =
      ((m.locate p).mapError fun fault => meaning ⟨p, fault⟩, m) := by
  rw [exec_attempt]
  change (((m.locate p).mapError _).mapError meaning, m) = _
  cases m.locate p <;> rfl

end Memory

end InterfaceGen
