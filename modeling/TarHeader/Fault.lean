import TarHeader.Text.Quoted
import TarHeader.Text.Utf8

/- What can go wrong while a header is read or written, as causes. `Fault.message` puts a cause
   into words and is the only place that does; octets are shown as lossily decoded UTF-8.
   `Fault.isEncoding` marks the faults that another character encoding can mend. -/
namespace TarHeader

/-- Why the octets of a numeric field are no number of the kind the field holds. -/
inductive Malformed where
  | tooShort (length : Nat)
  | notOctal (octet : UInt8) (field : Bytes)
  | octalTooLarge (digits : Bytes)
  | base256TooWide
  | base256TooLarge (value : Int)
  | outOfRange (value : Int)
  /-- In the words of a caller. -/
  | described (reason : Text)
  deriving DecidableEq

/-- The attributes that refuse some of the numbers given to them. -/
inductive Bounded where
  | size
  | devMajor
  | devMinor
  deriving DecidableEq

/-- Why the file behind a path cannot be reached or made. -/
inductive FileFault where
  | notFound
  | notADirectory
  | isADirectory
  | alreadyExists
  | linkLoop
  deriving DecidableEq

inductive Fault where
  | invalidField (field : String) (cause : Malformed)
  | unsupportedEncoding (charset : String) (text : Text)
  | invalidArgument (what : Bounded) (value : Int)
  | valueOutOfRange (value : Int) (width : Nat)
  | missingKey (key : String)
  | invalidValue (key : String) (value : Text)
  /-- Not even the empty text has an encoding that the field has room for. -/
  | noRoom (charset : String) (width : Nat)
  /-- A defect: something failed that never should. -/
  | internal (reason : Text)
  | file (cause : FileFault)
  deriving DecidableEq

/-- Two lower case hexadecimal digits after `0x`. -/
def hexOctet (b : UInt8) : String :=
  "0x" ++ String.ofList [Nat.digitChar (b.toNat / 16), Nat.digitChar (b.toNat % 16)]

def Malformed.message : Malformed → String
  | .tooShort n => s!"length {n} is too short"
  | .notOctal b field =>
    s!"byte {hexOctet b} is not an octal digit in {Text.quoted (Utf8.decodeLossy field)}"
  | .octalTooLarge digits =>
    let shown := String.ofList (Utf8.decodeLossy digits)
    s!"octal value {shown}: number too large to fit in target type"
  | .base256TooWide => "binary field is too wide"
  | .base256TooLarge v => s!"binary value {v} exceeds 64 bits"
  | .outOfRange v => s!"{v} is out of range"
  | .described reason => String.ofList reason

def Bounded.describe : Bounded → String
  | .size => "size"
  | .devMajor => "major device number"
  | .devMinor => "minor device number"

def FileFault.message : FileFault → String
  | .notFound => "NotFound"
  | .notADirectory => "NotADirectory"
  | .isADirectory => "IsADirectory"
  | .alreadyExists => "AlreadyExists"
  | .linkLoop => "FilesystemLoop"

namespace Fault

def message : Fault → String
  | .invalidField field cause => s!"invalid header field `{field}`: {cause.message}"
  | .unsupportedEncoding charset text =>
    s!"text {Text.quoted text} is not representable in encoding {charset}"
  | .invalidArgument what value => s!"{what.describe} is out of range: {value}"
  | .valueOutOfRange value width => s!"value {value} does not fit into a {width} byte field"
  | .missingKey key => s!"extended header lacks required key `{key}`"
  | .invalidValue key value =>
    s!"extended header key `{key}` has non-numeric value {Text.quoted value}"
  | .noRoom charset width => s!"encoding {charset} has no text for a {width} byte field"
  | .internal reason => s!"internal error: {String.ofList reason}"
  | .file cause => cause.message

/-- Whether the fault lies in the character encoding that was asked for. -/
def isEncoding : Fault → Bool
  | .unsupportedEncoding .. => true
  | _ => false

/-- Two steps succeed if the first does and the second does on its result. -/
theorem bind_eq_ok {ε α β : Type} {x : Except ε α} {f : α → Except ε β} {b : β} :
    (x >>= f) = .ok b ↔ ∃ a, x = .ok a ∧ f a = .ok b := by
  cases x <;> simp [bind, Except.bind]

theorem pure_eq_ok {ε α : Type} {a b : α} : (pure a : Except ε α) = .ok b ↔ a = b := by
  simp [pure, Except.pure]

/-- A traversal succeeds if each of its steps does. -/
theorem mapM_eq_ok {ε α β : Type} {f : α → Except ε β} {as : List α} {bs : List β} :
    as.mapM f = .ok bs ↔ as.map f = bs.map .ok := by
  induction as generalizing bs with
  | nil => simp only [List.mapM_nil, pure_eq_ok, List.map_nil, List.nil_eq, List.map_eq_nil_iff]
  | cons a as ih =>
    rw [List.mapM_cons, bind_eq_ok, List.map_cons, eq_comm, List.map_eq_cons_iff]
    constructor
    · rintro ⟨b, hb, hrest⟩
      obtain ⟨bs', hbs, hpure⟩ := bind_eq_ok.mp hrest
      exact ⟨b, bs', (pure_eq_ok.mp hpure).symm, hb.symm, (ih.mp hbs).symm⟩
    · rintro ⟨b, bs', rfl, hb, hbs⟩
      exact ⟨b, hb.symm, bind_eq_ok.mpr ⟨bs', ih.mpr hbs.symm, rfl⟩⟩

theorem exists_mapM_eq_ok {ε α β : Type} {f : α → Except ε β} {as : List α} :
    (∃ bs, as.mapM f = .ok bs) ↔ ∀ a ∈ as, ∃ b, f a = .ok b := by
  simp only [mapM_eq_ok]
  induction as with
  | nil => exact iff_of_true ⟨[], rfl⟩ (List.forall_mem_nil _)
  | cons a as ih =>
    rw [List.forall_mem_cons, ← ih]
    constructor
    · rintro ⟨bs, hbs⟩
      obtain ⟨b, bs', -, hb, hbs'⟩ := List.map_eq_cons_iff.mp hbs.symm
      exact ⟨⟨b, hb.symm⟩, bs', hbs'.symm⟩
    · rintro ⟨⟨b, hb⟩, bs, hbs⟩
      exact ⟨b :: bs, List.cons_eq_cons.mpr ⟨hb, hbs⟩⟩

theorem mapError_ok {α ε ε' : Type} (f : ε → ε') (a : α) :
    (Except.ok a : Except ε α).mapError f = .ok a := rfl

theorem mapError_error {α ε ε' : Type} (f : ε → ε') (fault : ε) :
    (Except.error fault : Except ε α).mapError f = .error (f fault) := rfl

theorem mapError_eq_ok {α ε ε' : Type} {x : Except ε α} {f : ε → ε'} {a : α} :
    x.mapError f = .ok a ↔ x = .ok a := by
  cases x with
  | ok b => rw [mapError_ok, Except.ok.injEq, Except.ok.injEq]
  | error fault => exact iff_of_false nofun nofun

theorem throw_ne_ok {ε α : Type} {fault : ε} {a : α} :
    (throw fault : Except ε α) ≠ .ok a := by
  simp [throw, throwThe, MonadExceptOf.throw]

end Fault

end TarHeader
