import ObjectStore.FileTree.Change

/-!
# Taking results apart

A sequence of operations succeeded if each of them did. These lemmas say so for plain results and
for changes of the file tree, so that proofs about an operation need not unfold how it is put
together.
-/

namespace ObjectStore

variable {ε δ α β : Type}

/-- A result that came out of two steps has a result of the first step in it. -/
theorem bind_eq_ok_iff {x : Except ε α} {f : α → Except ε β} {b : β} :
    (x >>= f) = .ok b ↔ ∃ a, x = .ok a ∧ f a = .ok b := by
  cases x with
  | error e => simp [bind, Except.bind]
  | ok a => simp [bind, Except.bind]

/-- What follows a result gets it. -/
@[simp] theorem ok_bind (a : α) (f : α → Except ε β) : (Except.ok a >>= f) = f a := rfl

/-- After an error nothing more is done. -/
@[simp] theorem error_bind (e : ε) (f : α → Except ε β) :
    ((Except.error e : Except ε α) >>= f) = .error e := rfl

/-- What follows gets the result of the first part. -/
theorem bind_of_eq_ok {x : Except ε α} {f : α → Except ε β} {a : α} (h : x = .ok a) :
    (x >>= f) = f a := by
  rw [h, ok_bind]

/-- The error of the first part is that of both. -/
theorem bind_of_eq_error {x : Except ε α} {f : α → Except ε β} {e : ε} (h : x = .error e) :
    (x >>= f) = .error e := by
  rw [h, error_bind]

/-- A value that may be missing is a result only if it is there. -/
theorem elim_eq_ok_iff {x : Option α} {e : ε} {a : α} :
    x.elim (.error e) .ok = (.ok a : Except ε α) ↔ x = some a := by
  cases x <;> simp

/-- A result is not touched by what is done to errors. -/
@[simp] theorem mapError_ok (f : ε → δ) (a : α) :
    (Except.ok a : Except ε α).mapError f = .ok a := rfl

/-- An error is turned into another one. -/
@[simp] theorem mapError_error (f : ε → δ) (e : ε) :
    (Except.error e : Except ε α).mapError f = .error (f e) := rfl

/-- Giving errors another type makes no result. -/
@[simp] theorem mapError_eq_ok_iff {x : Except ε α} {f : ε → δ} {a : α} :
    x.mapError f = .ok a ↔ x = .ok a := by
  cases x <;> simp

namespace Change

variable {x : Change ε α} {f : α → Change ε β} {t t' : FileTree}

/-- A change with a known result, and the tree it leaves. -/
theorem eq_of_fst {result : Except ε α} (h : (x t).1 = result) : x t = (result, (x t).2) :=
  Prod.ext h rfl

/-- The second change runs after one that succeeded, in the tree that it left. -/
theorem bind_of_ok {a : α} (h : x t = (.ok a, t')) : (x >>= f) t = f a t' := by
  rw [bind_apply, h]

/-- The second change does not run after one that failed. -/
theorem bind_of_error {e : ε} (h : x t = (.error e, t')) : (x >>= f) t = (.error e, t') := by
  rw [bind_apply, h]

/-- A change that looks first goes on with what it saw. -/
theorem look_bind_of_ok {g : FileTree → Except ε α} {a : α} (h : g t = .ok a) :
    (look g >>= f) t = f a t := by
  rw [bind_apply, look_apply, h]

/-- A change that looks first fails if that does. -/
theorem look_bind_of_error {g : FileTree → Except ε α} {e : ε} (h : g t = .error e) :
    (look g >>= f) t = (.error e, t) := by
  rw [bind_apply, look_apply, h]

/-- A change that succeeds is not touched by what is done to errors. -/
theorem mapError_of_ok {g : ε → δ} {a : α} (h : x t = (.ok a, t')) :
    (x.mapError g) t = (.ok a, t') := by
  rw [mapError, h]
  rfl

/-- A change that fails does so with the other error. -/
theorem mapError_of_error {g : ε → δ} {e : ε} (h : x t = (.error e, t')) :
    (x.mapError g) t = (.error (g e), t') := by
  rw [mapError, h]
  rfl

/-- Nothing is tidied after a change that succeeded. -/
theorem orTidy_of_ok {tidy : FileTree → FileTree} {a : α} (h : x t = (.ok a, t')) :
    (x.orTidy tidy) t = (.ok a, t') := by
  rw [orTidy, h]

/-- What a failed change left is tidied. -/
theorem orTidy_of_error {tidy : FileTree → FileTree} {e : ε} (h : x t = (.error e, t')) :
    (x.orTidy tidy) t = (.error e, tidy t') := by
  rw [orTidy, h]

/-- Giving errors another type leaves what is done to the tree. -/
theorem mapError_snd (x : Change ε α) (g : ε → δ) : ((x.mapError g) t).2 = (x t).2 := rfl

/-- A change followed by one that leaves the tree alone. -/
theorem bind_snd (x : Change ε α) (hf : ∀ a t, (f a t).2 = t) : ((x >>= f) t).2 = (x t).2 := by
  rw [bind_apply]
  split
  · rename_i a t' heq
    rw [heq]
    exact hf a t'
  · rename_i err t' heq
    rw [heq]

/-- Giving the result another form leaves what is done to the tree. -/
theorem bind_pure_snd (x : Change ε α) (f : α → β) :
    ((x >>= fun a => pure (f a)) t).2 = (x t).2 :=
  bind_snd x fun _ _ => rfl

/-- Only what follows the looking changes the tree. -/
theorem look_bind_snd (g : FileTree → Except ε α) (f : α → Change ε β) :
    ((look g >>= f) t).2 = match g t with
      | .ok a => (f a t).2
      | .error _ => t := by
  rw [bind_apply, look_apply]
  cases g t <;> rfl

/-- What comes of looking at the tree and then changing it. -/
theorem look_bind_fst_eq_ok_iff {g : FileTree → Except ε α} {b : β} :
    ((look g >>= f) t).1 = .ok b ↔ ∃ a, g t = .ok a ∧ (f a t).1 = .ok b := by
  rw [bind_apply, look_apply]
  cases g t <;> simp

/-- What is made of the result of a change. -/
theorem bind_pure_fst_eq_ok_iff {g : α → β} {b : β} :
    ((x >>= fun a => pure (g a)) t).1 = .ok b ↔ ∃ a, (x t).1 = .ok a ∧ g a = b := by
  rw [bind_apply]
  cases x t with
  | mk result t' => cases result <;> simp

end Change

end ObjectStore
