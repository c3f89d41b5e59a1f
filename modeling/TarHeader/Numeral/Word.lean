import TarHeader.Bytes

/- Machine words as ranges of integers. A word has one integer (`toInt`), and an integer is the
   word it belongs to or is out of range (`ofInt?`); the two are inverse to each other. -/
namespace TarHeader

class Word (α : Type) where
  toInt : α → Int
  ofInt? : Int → Option α
  ofInt?_toInt : ∀ a, ofInt? (toInt a) = some a
  toInt_of_ofInt? : ∀ {v a}, ofInt? v = some a → toInt a = v

/-- The unsigned word of 32 bits that an integer is. -/
def uint32? (v : Int) : Option UInt32 :=
  if 0 ≤ v ∧ v < 0x100000000 then some (.ofNat v.toNat) else none

/-- The unsigned word of 64 bits that an integer is. -/
def uint64? (v : Int) : Option UInt64 :=
  if 0 ≤ v ∧ v < 0x10000000000000000 then some (.ofNat v.toNat) else none

/-- The signed word of 64 bits that an integer is. -/
def int64? (v : Int) : Option Int64 :=
  if -0x8000000000000000 ≤ v ∧ v < 0x8000000000000000 then some (.ofInt v) else none

theorem uint32?_toNat (a : UInt32) : uint32? a.toNat = some a := by
  have := a.toNat_lt
  simp [uint32?]; omega

theorem toNat_of_uint32? {v : Int} {a : UInt32} (h : uint32? v = some a) : (a.toNat : Int) = v := by
  unfold uint32? at h
  split at h
  · obtain rfl := Option.some.inj h
    rw [UInt32.toNat_ofNat_of_lt' (by simp [UInt32.size]; omega)]; omega
  · contradiction

theorem uint64?_toNat (a : UInt64) : uint64? a.toNat = some a := by
  have := a.toNat_lt
  simp [uint64?]; omega

theorem toNat_of_uint64? {v : Int} {a : UInt64} (h : uint64? v = some a) : (a.toNat : Int) = v := by
  unfold uint64? at h
  split at h
  · obtain rfl := Option.some.inj h
    rw [UInt64.toNat_ofNat_of_lt' (by simp [UInt64.size]; omega)]; omega
  · contradiction

theorem int64?_toInt (a : Int64) : int64? a.toInt = some a := by
  have h₁ := a.le_toInt
  have h₂ := a.toInt_lt
  simp [int64?]; omega

theorem toInt_of_int64? {v : Int} {a : Int64} (h : int64? v = some a) : a.toInt = v := by
  unfold int64? at h
  split at h
  · obtain rfl := Option.some.inj h
    exact Int64.toInt_ofInt_of_le (by omega) (by omega)
  · contradiction

instance : Word UInt32 where
  toInt a := a.toNat
  ofInt? := uint32?
  ofInt?_toInt := uint32?_toNat
  toInt_of_ofInt? := toNat_of_uint32?

instance : Word UInt64 where
  toInt a := a.toNat
  ofInt? := uint64?
  ofInt?_toInt := uint64?_toNat
  toInt_of_ofInt? := toNat_of_uint64?

instance : Word Int64 where
  toInt a := a.toInt
  ofInt? := int64?
  ofInt?_toInt := int64?_toInt
  toInt_of_ofInt? := toInt_of_int64?

end TarHeader
