import TarHeader.Edit

/- What edits do to their state. A property that an edit `Preserves` holds after every run, also
   after one that ended in a fault, since that has a state too. An `Atomic` edit leaves no trace of
   a run that ended in a fault. Nothing in an edit undoes a change, so this is a matter of order:
   first the steps that can fail, which touch no state, and then changes that cannot
   (`Atomic.bind_completes`). -/
namespace TarHeader.Edit

variable {σ α β : Type} {P : σ → Prop}

/-- The state in which an edit ends, with a result or with a fault. -/
def after (m : Edit σ α) (s : σ) : σ :=
  match m s with
  | .ok _ s' => s'
  | .error _ s' => s'

/-- Every run from a state with the property ends in one. -/
def Preserves (P : σ → Prop) (m : Edit σ α) : Prop := ∀ s, P s → P (after m s)

namespace Preserves

theorem modify' {f : σ → σ} (h : ∀ s, P s → P (f s)) : Preserves P (modify f : Edit σ Unit) := h

theorem pure' (a : α) : Preserves P (pure a : Edit σ α) := fun _ hs => hs

/-- Work that touches no state ends the edit or hands on its result. -/
theorem lift_bind {x : Except Fault α} {k : α → Edit σ β}
    (h : ∀ a, x = .ok a → Preserves P (k a)) : Preserves P ((liftM x : Edit σ α) >>= k) := by
  cases x with
  | error fault => exact fun _ hs => hs
  | ok a => exact h a rfl

theorem bind {m : Edit σ α} {k : α → Edit σ β} (hm : Preserves P m)
    (hk : ∀ a, Preserves P (k a)) : Preserves P (m >>= k) := by
  intro s hs
  -- A fault in the first edit leaves its own state behind, which has the property as well.
  have hm := hm s hs
  unfold after at hm ⊢
  simp only [Bind.bind, EStateM.bind]
  cases hr : m s with
  | ok a s' =>
    rw [hr] at hm
    exact hk a s' hm
  | error fault s' =>
    rw [hr] at hm
    exact hm

theorem get_bind {k : σ → Edit σ β} (h : ∀ s, P s → P (after (k s) s)) :
    Preserves P (get >>= k) := fun s hs => h s hs

/-- A state that is replaced by one computed from it. -/
theorem replace {f : σ → Except Fault σ} (h : ∀ s s', P s → f s = .ok s' → P s') :
    Preserves P (do set (← liftM (f (← get))) : Edit σ Unit) := by
  apply get_bind
  intro s hs
  cases hf : f s with
  | error fault => exact hs
  | ok s' => exact h s s' hs hf

end Preserves

/-- Every run ends with a result. -/
def Completes (m : Edit σ α) : Prop := ∀ s, ∃ a s', m s = .ok a s'

theorem completes_modify (f : σ → σ) : Completes (modify f : Edit σ Unit) := fun s => ⟨(), f s, rfl⟩

theorem completes_pure (a : α) : Completes (pure a : Edit σ α) := fun s => ⟨a, s, rfl⟩

/-- A run that ends in a fault leaves the state as it was. -/
def Atomic (m : Edit σ α) : Prop := ∀ s fault s', m s = .error fault s' → s' = s

namespace Atomic

theorem of_completes {m : Edit σ α} (h : Completes m) : Atomic m := by
  intro s fault s' hfault
  obtain ⟨a, s'', hok⟩ := h s
  rw [hok] at hfault
  cases hfault

theorem lift_bind {x : Except Fault α} {k : α → Edit σ β} (h : ∀ a, x = .ok a → Atomic (k a)) :
    Atomic ((liftM x : Edit σ α) >>= k) := by
  cases x with
  | error fault =>
    intro s fault' s' hfault
    cases hfault
    rfl
  | ok a => exact h a rfl

theorem get_bind {k : σ → Edit σ β} (h : ∀ s, Atomic (k s)) : Atomic (get >>= k) :=
  fun s => h s s

/-- After the last step that can fail the state may change. -/
theorem bind_completes {m : Edit σ α} {k : α → Edit σ β} (hm : Atomic m)
    (hk : ∀ a, Completes (k a)) : Atomic (m >>= k) := by
  intro s fault s' hfault
  simp only [Bind.bind, EStateM.bind] at hfault
  cases hr : m s with
  | ok a s₁ =>
    rw [hr] at hfault
    obtain ⟨b, s₂, hok⟩ := hk a s₁
    simp only [hok] at hfault
    cases hfault
  | error fault' s₁ =>
    rw [hr] at hfault
    cases hfault
    exact hm s fault s' hr

/-- A state that is replaced by one computed from it. -/
theorem replace (f : σ → Except Fault σ) :
    Atomic (do set (← liftM (f (← get))) : Edit σ Unit) :=
  get_bind fun _ => lift_bind fun s' _ => of_completes fun _ => ⟨(), s', rfl⟩

/-- The order matters: a change made before a step that fails stays. -/
example : ¬ Atomic (do modify (· + 1); throw (.missingKey "size") : Edit Nat Unit) :=
  fun h => absurd (h 0 (.missingKey "size") 1 rfl) (by decide)

end Atomic

/-- Work that succeeds hands on its result. -/
theorem lift_ok_bind (a : α) (k : α → Edit σ β) :
    ((liftM (.ok a : Except Fault α) : Edit σ α) >>= k) = k a := rfl

/-- Work that touches no state has succeeded before the edit goes on. -/
theorem lift_bind_eq_ok_iff {x : Except Fault α} {k : α → Edit σ β} {s s' : σ} {b : β} :
    ((liftM x : Edit σ α) >>= k) s = .ok b s' ↔ ∃ a, x = .ok a ∧ k a s = .ok b s' := by
  cases x with
  | error fault => exact iff_of_false nofun fun ⟨a, ha, _⟩ => nomatch ha
  | ok a =>
    show k a s = .ok b s' ↔ ∃ a', Except.ok a = .ok a' ∧ k a' s = .ok b s'
    simp

/-- A replacement whose computation fails keeps the state. -/
theorem after_replace (f : σ → Except Fault σ) (s : σ) :
    after (do set (← liftM (f (← get))) : Edit σ Unit) s = (f s).toOption.getD s := by
  show after (liftM (f s) >>= set : Edit σ Unit) s = (f s).toOption.getD s
  cases f s <;> rfl

/-- A replacement ends in the fault of its computation, and changes nothing then. -/
theorem replace_of_error {f : σ → Except Fault σ} {s : σ} {fault : Fault} (h : f s = .error fault) :
    (do set (← liftM (f (← get))) : Edit σ Unit) s = .error fault s := by
  show (liftM (f s) >>= set : Edit σ Unit) s = .error fault s
  rw [h]
  rfl

/-- A replacement ends with a result just where its computation does. -/
theorem replace_eq_ok_iff {f : σ → Except Fault σ} {s s' : σ} :
    (do set (← liftM (f (← get))) : Edit σ Unit) s = .ok () s' ↔ f s = .ok s' := by
  show (liftM (f s) >>= set : Edit σ Unit) s = .ok () s' ↔ f s = .ok s'
  cases f s with
  | error fault => exact ⟨nofun, nofun⟩
  | ok s'' =>
    show EStateM.Result.ok () s'' = .ok () s' ↔ Except.ok s'' = .ok s'
    simp

end TarHeader.Edit
