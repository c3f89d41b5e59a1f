import TarHeader.Fault

/- Changes made in place. An `Edit σ α` starts from a state and ends in one, with a result or
   with a fault; a fault does not undo what was changed before it. Work that computes a value and
   touches no state (`Except Fault`) can be a step of it. -/
namespace TarHeader

abbrev Edit (σ : Type) := EStateM Fault σ

instance {σ : Type} : MonadLift (Except Fault) (Edit σ) where
  monadLift x := MonadExcept.ofExcept x

end TarHeader
