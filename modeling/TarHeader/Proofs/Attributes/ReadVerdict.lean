import Mathlib.Algebra.Group.Int.Defs
import Mathlib.Algebra.Group.Nat.Defs
import TarHeader.Proofs.Attributes.ReadSpec
import TarHeader.Proofs.TextField
import TarHeader.Proofs.Verdict

/- What can go wrong in reading attributes. The numeric fields of a record are those that all formats
   share and, by the octets of the magic, that of old GNU. Reading ends as the first of them decides
   that holds no number in the range of its attribute (`Record.numberFault`), unless a text field
   that stands before it, or a prefix, fails first (`verdict_read`). -/
namespace TarHeader

/-- A numeric field, and the numbers that its attribute takes: those from `low` on and below
    `high`. -/
structure NumericField where
  field : Field
  low : Int
  high : Int

namespace NumericField

def mode : NumericField := ⟨Layout.mode, 0, 2 ^ 32⟩
def userId : NumericField := ⟨Layout.userId, 0, 2 ^ 64⟩
def groupId : NumericField := ⟨Layout.groupId, 0, 2 ^ 64⟩
def size : NumericField := ⟨Layout.size, 0, 2 ^ 64⟩
def modTime : NumericField := ⟨Layout.modTime, -2 ^ 63, 2 ^ 63⟩
def devMajor : NumericField := ⟨Layout.devMajor, 0, 2 ^ 32⟩
def devMinor : NumericField := ⟨Layout.devMinor, 0, 2 ^ 32⟩
def realSize : NumericField := ⟨Layout.OldGnu.realSize, 0, 2 ^ 64⟩

/-- The field holds a number of its attribute. -/
def Holds (n : NumericField) (r : Record) : Prop :=
  ∃ v, Numeral.decode (r.read n.field) = .ok v ∧ n.low ≤ v ∧ v < n.high

/-- What is wrong with the field. -/
def fault? (n : NumericField) (r : Record) : Option Fault :=
  match Numeral.decode (r.read n.field) with
  | .error cause => some (.invalidField n.field.name cause)
  | .ok v =>
    if n.low ≤ v ∧ v < n.high then none else some (.invalidField n.field.name (.outOfRange v))

variable {n : NumericField} {r : Record}

theorem fault?_eq_none_iff : n.fault? r = none ↔ n.Holds r := by
  unfold fault? Holds
  cases Numeral.decode (r.read n.field) with
  | error cause => simp
  | ok v => simp

/-- A fault of a numeric field names the field. -/
theorem exists_cause_of_fault? {fault : Fault} (h : n.fault? r = some fault) :
    ∃ cause, fault = .invalidField n.field.name cause := by
  unfold fault? at h
  split at h
  · cases h
    exact ⟨_, rfl⟩
  · split at h <;> cases h
    exact ⟨_, rfl⟩

/-- Reading a word fails just as the field does that has the word's range. -/
theorem fault?_readWord {α : Type} [Word α]
    (hrange : ∀ v, (Word.ofInt? v : Option α).isSome ↔ n.low ≤ v ∧ v < n.high) :
    TarHeader.fault? (r.readWord n.field : Except Fault α) = n.fault? r := by
  unfold Record.readWord Numeral.readWord Numeral.read fault?
  cases Numeral.decode (r.read n.field) with
  | error cause => rfl
  | ok v =>
    simp only [Fault.mapError_ok, bind, Except.bind, ← hrange]
    cases (Word.ofInt? v : Option α) <;> rfl

theorem holds_iff_readWord {α : Type} [Word α]
    (hrange : ∀ v, (Word.ofInt? v : Option α).isSome ↔ n.low ≤ v ∧ v < n.high) :
    n.Holds r ↔ ∃ a : α, r.readWord n.field = .ok a := by
  rw [← fault?_eq_none_iff, ← fault?_readWord hrange, TarHeader.fault?_eq_none_iff]

theorem isSome_uint32_iff (v : Int) :
    (Word.ofInt? v : Option UInt32).isSome ↔ 0 ≤ v ∧ v < 2 ^ 32 := by
  simp only [Word.ofInt?, uint32?]
  split <;> simp_all

theorem isSome_uint64_iff (v : Int) :
    (Word.ofInt? v : Option UInt64).isSome ↔ 0 ≤ v ∧ v < 2 ^ 64 := by
  simp only [Word.ofInt?, uint64?]
  split <;> simp_all

theorem isSome_int64_iff (v : Int) :
    (Word.ofInt? v : Option Int64).isSome ↔ -2 ^ 63 ≤ v ∧ v < 2 ^ 63 := by
  simp only [Word.ofInt?, int64?]
  split <;> simp_all

end NumericField

namespace Record

/-- The numeric fields that all formats share, in the order in which they are read. -/
def sharedNumericFields : List NumericField :=
  [.mode, .userId, .groupId, .size, .modTime, .devMajor, .devMinor]

/-- The numeric fields of a record, in the order in which they are read. -/
def numericFields (r : Record) : List NumericField :=
  sharedNumericFields ++ if r.read Layout.magic = Magic.oldGnu then [.realSize] else []

/-- The fault of the first numeric field that has one. -/
def numberFault (r : Record) : Option Fault := r.numericFields.findSome? (·.fault? r)

theorem numberFault_eq_none_iff {r : Record} :
    r.numberFault = none ↔ ∀ n ∈ r.numericFields, n.Holds r := by
  simp only [numberFault, List.findSome?_eq_none_iff, NumericField.fault?_eq_none_iff]

/-- The field of old GNU counts only under its magic. -/
theorem forall_numericFields_iff {r : Record} : (∀ n ∈ r.numericFields, n.Holds r) ↔
    (∀ n ∈ sharedNumericFields, n.Holds r) ∧
      (r.read Layout.magic = Magic.oldGnu → NumericField.realSize.Holds r) := by
  rw [numericFields, List.forall_mem_append]
  by_cases hgnu : r.read Layout.magic = Magic.oldGnu
  · rw [if_pos hgnu, List.forall_mem_singleton, imp_iff_right hgnu]
  · rw [if_neg hgnu]
    exact and_congr_right fun _ => iff_of_true (fun n hn => absurd hn List.not_mem_nil)
      fun h => absurd h hgnu

/-- The fault that is reported is that of a field, and the fields read before it are right. -/
theorem numberFault_eq_some {r : Record} {fault : Fault} (h : r.numberFault = some fault) :
    ∃ before n after cause, r.numericFields = before ++ n :: after ∧
      (∀ m ∈ before, m.Holds r) ∧ ¬ n.Holds r ∧ n.fault? r = some fault ∧
      fault = .invalidField n.field.name cause := by
  obtain ⟨before, n, after, hfields, hfault, hbefore⟩ := List.findSome?_eq_some_iff.mp h
  obtain ⟨cause, hcause⟩ := NumericField.exists_cause_of_fault? hfault
  refine ⟨before, n, after, cause, hfields, ?_, ?_, hfault, hcause⟩
  · exact fun m hm => NumericField.fault?_eq_none_iff.mp (hbefore m hm)
  · rw [← NumericField.fault?_eq_none_iff, hfault]
    exact nofun

/-- The field of the name prefix, in the formats that have one. -/
def prefixField? (r : Record) : Option Field :=
  match Format.detect r with
  | .oldGnu => none
  | .xstar => some Layout.Xstar.namePrefix
  | .posix | .legacy => some Layout.Posix.namePrefix

/-- The fields that are read in the charset asked for. -/
def textFields (r : Record) : List Field :=
  [Layout.name, Layout.linkName, Layout.userName, Layout.groupName] ++ r.prefixField?.toList

/-- All texts of the record can be read in the charset. -/
def DecodesIn (r : Record) (cs : Charset) : Prop := ∀ f ∈ r.textFields, ∃ t, r.readText cs f = .ok t

end Record

namespace Attributes

variable {cs : Charset} {r : Record} {stray : Fault → Prop} {o : Option Fault}

theorem verdict_number {α β : Type} [Word α] {n : NumericField} {f : α → Except Fault β}
    (hrange : ∀ v, (Word.ofInt? v : Option α).isSome ↔ n.low ≤ v ∧ v < n.high)
    (hf : ∀ a, Verdict stray o (f a)) :
    Verdict stray ((n.fault? r).or o) (r.readWord n.field >>= f) := by
  rw [← NumericField.fault?_readWord hrange]
  exact Verdict.check fun a _ => hf a

/-- The fallback charset reads any text. -/
theorem verdict_fallback {β : Type} {f : Field} {k : Text → Except Fault β}
    (hk : ∀ t, Verdict stray o (k t)) : Verdict stray o (r.readText .fallback f >>= k) := by
  apply Verdict.skip
  · exact fun fault h => absurd h (TextField.decode_fallback_ne_error fault)
  · exact fun t _ => hk t

theorem verdict_readShared
    (h : ∀ f ∈ r.textFields, ∀ fault, r.readText cs f = .error fault → stray fault) :
    Verdict stray (Record.sharedNumericFields.findSome? (·.fault? r)) (readShared cs r) := by
  simp only [Record.textFields, List.cons_append, List.nil_append, List.forall_mem_cons] at h
  obtain ⟨hname, hlink, huser, hgroup, -⟩ := h
  simp only [Record.sharedNumericFields, findSome?_cons_eq_or, List.findSome?_nil]
  -- In the order of the fields: a text adds nothing to the verdict, a number its own fault.
  refine Verdict.skip hname fun name _ => ?_
  refine verdict_number (n := .mode) NumericField.isSome_uint32_iff fun mode => ?_
  refine verdict_number (n := .userId) NumericField.isSome_uint64_iff fun userId => ?_
  refine verdict_number (n := .groupId) NumericField.isSome_uint64_iff fun groupId => ?_
  refine verdict_number (n := .size) NumericField.isSome_uint64_iff fun size => ?_
  refine verdict_number (n := .modTime) NumericField.isSome_int64_iff fun modTime => ?_
  refine Verdict.skip hlink fun linkName _ => ?_
  refine verdict_fallback fun magic => verdict_fallback fun version => ?_
  refine Verdict.skip huser fun userName _ => Verdict.skip hgroup fun groupName _ => ?_
  refine verdict_number (n := .devMajor) NumericField.isSome_uint32_iff fun devMajor => ?_
  refine verdict_number (n := .devMinor) NumericField.isSome_uint32_iff fun devMinor => ?_
  exact Verdict.pure' _

theorem verdict_readTail
    (h : ∀ f ∈ r.textFields, ∀ fault, r.readText cs f = .error fault → stray fault)
    (bound : Option Bool) (a : Attributes) :
    Verdict stray
      ((if r.read Layout.magic = Magic.oldGnu then [.realSize] else []).findSome?
        (NumericField.fault? · r)) (readTail cs bound r a) := by
  have hstray : ∀ f, r.prefixField? = some f →
      ∀ fault, r.readText cs f = .error fault → stray fault := by
    intro f hf
    apply h f
    rw [Record.textFields, hf]
    exact List.mem_append_right _ List.mem_cons_self
  by_cases hgnu : r.read Layout.magic = Magic.oldGnu
  · rw [if_pos hgnu, findSome?_cons_eq_or, readTail, Format.detect_eq_oldGnu_iff.mpr hgnu]
    exact verdict_number (n := .realSize) NumericField.isSome_uint64_iff fun _ => Verdict.pure' _
  · have hformat : Format.detect r ≠ .oldGnu := mt Format.detect_eq_oldGnu_iff.mp hgnu
    rw [if_neg hgnu, readTail]
    unfold Record.prefixField? at hstray
    cases hd : Format.detect r with
    | oldGnu => contradiction
    | xstar | posix | legacy =>
      rw [hd] at hstray
      exact Verdict.skip (hstray _ rfl) fun _ _ => Verdict.pure' _

/-- Reading ends as the numeric fields decide, unless a text goes astray first. -/
theorem verdict_read
    (h : ∀ f ∈ r.textFields, ∀ fault, r.readText cs f = .error fault → stray fault)
    (bound : Option Bool) : Verdict stray r.numberFault (read cs bound r) := by
  rw [Record.numberFault, Record.numericFields, List.findSome?_append]
  exact Verdict.bind (verdict_readShared h) fun a _ => verdict_readTail h bound a

end Attributes

end TarHeader
