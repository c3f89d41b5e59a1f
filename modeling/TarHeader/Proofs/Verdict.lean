import TarHeader.Charset.Fallback

/- Which fault ends a piece of work. Reading and writing a header mix steps that the charset can
   make fail with steps that it cannot. `Verdict stray o x` says that `x` ends as `o` says, with that
   fault or with a result, unless a fault of the kind `stray` ends it before. It is put together step
   by step: a charset's step adds nothing to the verdict (`Verdict.skip`), any other step adds its
   own fault in front (`Verdict.check`). Work with the same verdict under the charset asked for and
   under the fallback ends just as the verdict says once the fallback is tried
   (`Verdict.orFallback`). -/
namespace TarHeader

/-- The fault that ends some work, if one does. -/
def fault? {α : Type} : Except Fault α → Option Fault
  | .ok _ => none
  | .error fault => some fault

theorem fault?_eq_none_iff {α : Type} {x : Except Fault α} : fault? x = none ↔ ∃ a, x = .ok a := by
  cases x <;> simp [fault?]

theorem fault?_eq_some_iff {α : Type} {x : Except Fault α} {fault : Fault} :
    fault? x = some fault ↔ x = .error fault := by
  cases x <;> simp [fault?]

theorem fault?_map {α β : Type} (f : α → β) (x : Except Fault α) : fault? (x.map f) = fault? x := by
  cases x <;> rfl

/-- The first fault of a list is that of its head, or else the first of its tail. -/
theorem findSome?_cons_eq_or {α β : Type} (f : α → Option β) (x : α) (l : List α) :
    (x :: l).findSome? f = (f x).or (l.findSome? f) := by
  rw [List.findSome?_cons]
  cases f x <;> rfl

/-- The work ends as `o` says, unless a stray fault ends it before. -/
def Verdict {α : Type} (stray : Fault → Prop) (o : Option Fault) (x : Except Fault α) : Prop :=
  fault? x = o ∨ ∃ fault, stray fault ∧ x = .error fault

namespace Verdict

variable {α β : Type} {stray : Fault → Prop} {o : Option Fault}

theorem pure' (a : α) : Verdict stray none (pure a : Except Fault α) := .inl rfl

/-- A step whose fault counts. -/
theorem check {x : Except Fault α} {f : α → Except Fault β}
    (hf : ∀ a, x = .ok a → Verdict stray o (f a)) : Verdict stray ((fault? x).or o) (x >>= f) := by
  cases x with
  | error fault => exact .inl rfl
  | ok a => exact hf a rfl

/-- A step all of whose faults are stray. -/
theorem skip {x : Except Fault α} {f : α → Except Fault β}
    (hx : ∀ fault, x = .error fault → stray fault)
    (hf : ∀ a, x = .ok a → Verdict stray o (f a)) : Verdict stray o (x >>= f) := by
  cases x with
  | error fault => exact .inr ⟨fault, hx fault rfl, rfl⟩
  | ok a => exact hf a rfl

/-- Two pieces of work, each with a verdict, one after the other. -/
theorem bind {o' : Option Fault} {x : Except Fault α} {f : α → Except Fault β}
    (hx : Verdict stray o x) (hf : ∀ a, x = .ok a → Verdict stray o' (f a)) :
    Verdict stray (o.or o') (x >>= f) := by
  rcases hx with rfl | ⟨fault, hstray, rfl⟩
  · exact check hf
  · exact .inr ⟨fault, hstray, rfl⟩

/-- Without stray faults the verdict is final. -/
theorem final {x : Except Fault α} (h : Verdict (fun _ => False) o x) : fault? x = o := by
  rcases h with h | ⟨_, hfalse, -⟩
  · exact h
  · exact hfalse.elim

/-- With the fallback to turn to, work ends as its verdict says. -/
theorem orFallback {cs : Charset} {work : Charset → Except Fault α}
    (ho : ∀ fault, o = some fault → fault.isEncoding = false)
    (h : Verdict (·.isEncoding = true) o (work cs))
    (hback : Verdict (fun _ => False) o (work .fallback)) :
    fault? (cs.orFallback work) = o := by
  have hfinal := hback.final
  rcases h with h | ⟨fault, henc, h⟩
  · -- The work ended as the verdict says, which is no encoding fault, and is not tried again.
    unfold Charset.orFallback
    cases hw : work cs with
    | ok a => rw [← h, hw]
    | error fault =>
      rw [hw] at h
      simp only [ho fault h.symm, Bool.false_eq_true, if_false]
      exact h
  · -- The charset failed, and the fallback has no stray faults.
    unfold Charset.orFallback
    simp only [h, henc, if_true]
    cases hb : work .fallback with
    | ok a => rw [← hfinal, hb]; rfl
    | error fault' =>
      rw [hb] at hfinal
      simp only [Fault.mapError_error, Fault.escalate, ho fault' hfinal.symm, Bool.false_eq_true,
        if_false]
      exact hfinal

end Verdict

/-- The result is that of the charset asked for or, where an encoding fault kept it from giving one,
    that of the fallback. -/
theorem Charset.orFallback_eq_ok_iff {α : Type} {cs : Charset} {work : Charset → Except Fault α}
    {a : α} : cs.orFallback work = .ok a ↔
      work cs = .ok a ∨
        (∃ fault, work cs = .error fault ∧ fault.isEncoding = true) ∧ work .fallback = .ok a := by
  unfold Charset.orFallback
  cases hw : work cs with
  | ok b => simp
  | error fault =>
    cases henc : fault.isEncoding with
    | false => simp [henc]
    | true =>
      cases hb : work .fallback <;> simp [henc, Fault.mapError_ok, Fault.mapError_error]

/-- What is done to the result can be done after the fallback was tried. -/
theorem Charset.orFallback_map {α β : Type} (f : α → β) (cs : Charset)
    (work : Charset → Except Fault α) :
    cs.orFallback (fun cs => (work cs).map f) = (cs.orFallback work).map f := by
  simp only [Charset.orFallback]
  cases work cs with
  | ok a => rfl
  | error fault =>
    simp only [Except.map]
    split
    · cases work .fallback <;> rfl
    · rfl

end TarHeader
