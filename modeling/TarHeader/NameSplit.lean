import TarHeader.Layout
import TarHeader.TextField

/- Splitting a long name over the name field and the prefix field of POSIX. The slash at which
   the two are joined again is stored in neither. Of the slashes that leave both parts non-empty
   and within their fields the leftmost is taken. -/
namespace TarHeader.NameSplit

/-- What stands before and after each slash of a text, from the left. -/
def atSlashes : Text → List (Text × Text)
  | [] => []
  | c :: rest =>
    let later := (atSlashes rest).map fun (before, after) => (c :: before, after)
    if c = '/' then ([], rest) :: later else later

/-- The two parts and the slash between them are the text. -/
theorem mem_atSlashes {t before after : Text} :
    (before, after) ∈ atSlashes t ↔ t = before ++ '/' :: after := by
  induction t generalizing before with
  | nil => simp [atSlashes]
  | cons c t ih =>
    -- The slash is the first character, or it stands in what is after the first character.
    cases before with
    | nil => by_cases hc : c = '/' <;> simp [atSlashes, hc, eq_comm]
    | cons d before =>
      by_cases hc : c = '/'
      · simp only [atSlashes, hc, if_true]
        simp [ih, eq_comm]
        exact and_comm
      · simp [atSlashes, hc, ih, eq_comm]
        exact and_comm

/-- The ways to split a name into two non-empty parts. -/
def candidates (name : Text) : List (Text × Text) :=
  (atSlashes name).filter fun (before, after) => before ≠ [] ∧ after ≠ []

/-- Whether all of a text fits a field. -/
def fits (cs : Charset) (f : Field) (t : Text) : Except Fault Bool := do
  let bs ← cs.encode t
  return bs.length ≤ f.width

/-- Whether both parts of a split fit their fields. The second is tried only if the first fits. -/
def bothFit (cs : Charset) (split : Text × Text) : Except Fault Bool := do
  if ← fits cs Layout.Posix.namePrefix split.1 then fits cs Layout.name split.2 else return false

/-- Where to split a name. `none` if it fits the name field whole, and if no split fits. -/
def find (cs : Charset) (name : Text) : Except Fault (Option (Text × Text)) := do
  if ← fits cs Layout.name name then return none
  else (candidates name).findM? (bothFit cs)

end TarHeader.NameSplit
