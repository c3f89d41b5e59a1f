import TarHeader.Entry.Sparse
import TarHeader.Proofs.Edit

/- What merging an extended header does to an entry: all of it, or nothing (`atomic_mergeSparse`).
   Only the name, the real size and the marks are ever changed, and the name only where the extended
   header has one (`eq_of_mergeSparse`). -/
namespace TarHeader

open Edit (Atomic)

namespace SparseDialect

/-- The name that an extended header has for a sparse file. -/
def name? : SparseDialect → ExtendedHeader → Option Text
  | .gnu0, keys | .gnu1, keys => keys.lookup ExtendedHeader.gnuName
  | .star, _ => none

end SparseDialect

namespace Entry

variable {e e' : Entry}

theorem atomic_mergeSparse (dialect : SparseDialect) (h : ExtendedHeader) :
    Atomic (mergeSparse dialect h) := by
  cases dialect with
  | gnu0 =>
    -- The name changes after the size has changed already, which is safe as no fault can follow.
    refine Atomic.lift_bind fun t _ => Atomic.lift_bind fun realSize _ => ?_
    refine Atomic.bind_completes (Atomic.of_completes (Edit.completes_modify _)) fun _ => ?_
    cases h.lookup ExtendedHeader.gnuName with
    | none => exact Edit.completes_pure ()
    | some name => exact Edit.completes_modify _
  | gnu1 =>
    refine Atomic.lift_bind fun t _ => Atomic.lift_bind fun realSize _ => ?_
    exact Atomic.lift_bind fun name _ => Atomic.of_completes (Edit.completes_modify _)
  | star => exact Atomic.lift_bind fun realSize _ => Atomic.of_completes (Edit.completes_modify _)

theorem lookup_of_required {keys : ExtendedHeader} {key : String} {t : Text}
    (h : keys.required key = .ok t) : keys.lookup key = some t := by
  unfold ExtendedHeader.required at h
  split at h
  · next hlookup =>
    cases h
    exact hlookup
  · cases h

/-- A merge changes the marks, the real size and, where the extended header has one, the name. -/
theorem eq_of_mergeSparse {dialect : SparseDialect} {keys : ExtendedHeader}
    (h : mergeSparse dialect keys e = .ok () e') :
    ∃ realSize paxSparse starSparse, e' =
      { e with name := (dialect.name? keys).getD e.name, realSize, paxSparse, starSparse } := by
  cases dialect with
  | gnu0 =>
    obtain ⟨t, -, h⟩ := Edit.lift_bind_eq_ok_iff.mp h
    obtain ⟨realSize, -, h⟩ := Edit.lift_bind_eq_ok_iff.mp h
    refine ⟨realSize, true, e.starSparse, ?_⟩
    rw [SparseDialect.name?]
    cases hname : keys.lookup ExtendedHeader.gnuName with
    | none =>
      rw [hname] at h
      cases h
      rfl
    | some name =>
      rw [hname] at h
      cases h
      rfl
  | gnu1 =>
    obtain ⟨t, -, h⟩ := Edit.lift_bind_eq_ok_iff.mp h
    obtain ⟨realSize, -, h⟩ := Edit.lift_bind_eq_ok_iff.mp h
    obtain ⟨name, hname, h⟩ := Edit.lift_bind_eq_ok_iff.mp h
    refine ⟨realSize, true, e.starSparse, ?_⟩
    rw [SparseDialect.name?, lookup_of_required hname]
    cases h
    rfl
  | star =>
    obtain ⟨realSize, -, h⟩ := Edit.lift_bind_eq_ok_iff.mp h
    cases h
    exact ⟨realSize.getD e.realSize, e.paxSparse, true, rfl⟩

end Entry

end TarHeader
