import TarHeader.Edit
import TarHeader.Entry
import TarHeader.Positional

/- Sparse files described by extended headers. The text of an extended header is read elsewhere;
   here its keys mark an entry as sparse and give it the size of the file and, by dialect, its
   name. What a dialect requires is looked up before anything is changed. -/
namespace TarHeader

/-- Keys of an extended header with their values. -/
abbrev ExtendedHeader := List (String × Text)

inductive SparseDialect where
  /-- The formats 0.0 and 0.1 of GNU. -/
  | gnu0
  /-- The format 1.0 of GNU. -/
  | gnu1
  | star
  deriving DecidableEq

namespace ExtendedHeader

def gnuSize : String := "GNU.sparse.size"

def gnuRealSize : String := "GNU.sparse.realsize"

def gnuName : String := "GNU.sparse.name"

def starRealSize : String := "SCHILY.realsize"

/-- Drops a plus sign from in front of a number. -/
def unsigned : Text → Text
  | '+' :: rest => rest
  | t => t

/-- The number that decimal digits denote. -/
def decimalValue (ds : Text) : Nat := Positional.ofDigits 10 (ds.map fun d => d.toNat - '0'.toNat)

/-- An unsigned 64 bit number in decimal, perhaps after a plus sign. -/
def decimal? (t : Text) : Option UInt64 :=
  let ds := unsigned t
  if ds ≠ [] ∧ ds.all Char.isDigit ∧ decimalValue ds < 0x10000000000000000 then
    some (.ofNat (decimalValue ds))
  else none

def decimal (key : String) (t : Text) : Except Fault UInt64 :=
  match decimal? t with
  | some n => .ok n
  | none => .error (.invalidValue key t)

/-- The text under a key that has to be there. -/
def required (h : ExtendedHeader) (key : String) : Except Fault Text :=
  match h.lookup key with
  | some t => .ok t
  | none => .error (.missingKey key)

/-- The number under a key that may be absent. -/
def decimalIfPresent (h : ExtendedHeader) (key : String) : Except Fault (Option UInt64) :=
  match h.lookup key with
  | some t => (decimal key t).map some
  | none => .ok none

end ExtendedHeader

namespace Entry

open ExtendedHeader

/-- In the formats 0.x of GNU the name field of the header holds a part of the sparse map, and the
    name may be among the keys. -/
def mergeGnu0 (h : ExtendedHeader) : Edit Entry Unit := do
  let realSize ← decimal gnuSize (← required h gnuSize)
  modify fun e => { e with paxSparse := true, realSize }
  if let some name := h.lookup gnuName then
    modify fun e => { e with name }

/-- In the format 1.0 of GNU size and name are both required. -/
def mergeGnu1 (h : ExtendedHeader) : Edit Entry Unit := do
  let realSize ← decimal gnuRealSize (← required h gnuRealSize)
  let name ← required h gnuName
  modify fun e => { e with paxSparse := true, realSize, name }

/-- For star the size is optional. -/
def mergeStar (h : ExtendedHeader) : Edit Entry Unit := do
  let realSize ← decimalIfPresent h starRealSize
  modify fun e => { e with starSparse := true, realSize := realSize.getD e.realSize }

def mergeSparse : SparseDialect → ExtendedHeader → Edit Entry Unit
  | .gnu0 => mergeGnu0
  | .gnu1 => mergeGnu1
  | .star => mergeStar

end Entry

end TarHeader
