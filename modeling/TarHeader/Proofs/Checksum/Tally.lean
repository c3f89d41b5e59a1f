import Mathlib.Data.List.Basic
import Mathlib.Data.List.Induction
import TarHeader.Checksum
import TarHeader.Proofs.Numeral.RoundTrip
import TarHeader.Proofs.Record.Fields

/- The one pass over a header, taken apart. After any octets a `Tally` holds two things that do not
   touch each other: the sums of all octets with those of the checksum field taken as spaces
   (`unsigned_tally`, `signed_tally`), and what reading the checksum field alone gives
   (`stored_tally`). -/
namespace TarHeader.Checksum

/-- The octets with those of the checksum field taken as spaces. -/
def blanked (bs : Bytes) : Bytes :=
  bs.mapIdx fun i b => if Layout.checksum.Covers i then 0x20 else b

/-- The octets of the checksum field, as many as there are. -/
def storedField (bs : Bytes) : Bytes :=
  (bs.drop Layout.checksum.offset).take Layout.checksum.width

def signedSum (bs : Bytes) : Int := bs.foldl (fun n b => n + b.toInt8.toInt) 0

theorem blanked_concat (bs : Bytes) (b : UInt8) :
    blanked (bs ++ [b]) =
      blanked bs ++ [if Layout.checksum.Covers bs.length then 0x20 else b] :=
  List.mapIdx_concat

theorem storedField_concat (bs : Bytes) (b : UInt8) :
    storedField (bs ++ [b]) =
      if Layout.checksum.Covers bs.length then storedField bs ++ [b] else storedField bs := by
  have hdrop : (bs.drop Layout.checksum.offset).length = bs.length - Layout.checksum.offset :=
    List.length_drop
  unfold storedField
  -- The new octet stands in the field, after it, or in front of it, where nothing is taken yet.
  split
  · next hc =>
    obtain ⟨hlow, hhigh⟩ := hc
    unfold Field.stop at hhigh
    rw [List.drop_append_of_le_length hlow, List.take_of_length_le,
      List.take_of_length_le (by omega)]
    rw [List.length_append, List.length_singleton]
    omega
  · next hc =>
    by_cases hlow : Layout.checksum.offset ≤ bs.length
    · have hhigh : Layout.checksum.stop ≤ bs.length := by
        unfold Field.Covers at hc
        omega
      unfold Field.stop at hhigh
      rw [List.drop_append_of_le_length hlow, List.take_append_of_le_length (by omega)]
    · have hlen : (bs ++ [b]).length ≤ Layout.checksum.offset := by
        rw [List.length_append, List.length_singleton]
        omega
      rw [List.drop_of_length_le hlen, List.drop_of_length_le (by omega)]

/-- Reading a digit counts nothing. -/
theorem counts_readDigit (t : Tally) (b : UInt8) :
    (t.readDigit b).seen = t.seen ∧ (t.readDigit b).unsigned = t.unsigned ∧
      (t.readDigit b).signed = t.signed := by
  unfold Tally.readDigit
  split
  · exact ⟨rfl, rfl, rfl⟩
  split
  · exact ⟨rfl, rfl, rfl⟩
  · exact ⟨rfl, rfl, rfl⟩

/-- Reading a digit goes by what was read of the field before, and by nothing else. -/
theorem readDigit_congr {t u : Tally} (b : UInt8) (hs : t.stored = u.stored)
    (hd : t.digits = u.digits) :
    (t.readDigit b).stored = (u.readDigit b).stored ∧
      (t.readDigit b).digits = (u.readDigit b).digits := by
  unfold Tally.readDigit
  rw [hs, hd]
  split
  · exact ⟨rfl, rfl⟩
  split
  · exact ⟨rfl, rfl⟩
  · exact ⟨hs, hd⟩

theorem seen_tally (bs : Bytes) : (tally bs).seen = bs.length := by
  induction bs using List.reverseRecOn with
  | nil => rfl
  | append_singleton bs b ih =>
    rw [tally, List.foldl_concat, ← tally, Tally.step, List.length_append, List.length_singleton,
      ← ih]
    split
    · exact congrArg (· + 1) (counts_readDigit (tally bs) b).1
    · rfl

/-- An octet of the checksum field is read, and counted as a space. -/
theorem tally_concat_of_covers {bs : Bytes} (h : Layout.checksum.Covers bs.length) (b : UInt8) :
    tally (bs ++ [b]) = ((tally bs).readDigit b).add 0x20 := by
  rw [tally, List.foldl_concat, ← tally, Tally.step, seen_tally]
  exact if_pos h

theorem tally_concat_of_not_covers {bs : Bytes} (h : ¬ Layout.checksum.Covers bs.length)
    (b : UInt8) : tally (bs ++ [b]) = (tally bs).add b := by
  rw [tally, List.foldl_concat, ← tally, Tally.step, seen_tally]
  exact if_neg h

theorem sum_concat (bs : Bytes) (b : UInt8) : sum (bs ++ [b]) = sum bs + b.toNat := by
  simp [sum]

theorem signedSum_concat (bs : Bytes) (b : UInt8) :
    signedSum (bs ++ [b]) = signedSum bs + b.toInt8.toInt := by
  simp [signedSum]

theorem unsigned_tally (bs : Bytes) : (tally bs).unsigned = sum (blanked bs) := by
  induction bs using List.reverseRecOn with
  | nil => rfl
  | append_singleton bs b ih =>
    rw [blanked_concat, sum_concat, Int.natCast_add, ← ih]
    by_cases hc : Layout.checksum.Covers bs.length
    · rw [tally_concat_of_covers hc, if_pos hc, Tally.add, (counts_readDigit _ b).2.1]
    · rw [tally_concat_of_not_covers hc, if_neg hc, Tally.add]

theorem signed_tally (bs : Bytes) : (tally bs).signed = signedSum (blanked bs) := by
  induction bs using List.reverseRecOn with
  | nil => rfl
  | append_singleton bs b ih =>
    rw [blanked_concat, signedSum_concat, ← ih]
    by_cases hc : Layout.checksum.Covers bs.length
    · rw [tally_concat_of_covers hc, if_pos hc, Tally.add, (counts_readDigit _ b).2.2]
    · rw [tally_concat_of_not_covers hc, if_neg hc, Tally.add]

/-- What is read of a checksum field, from its first octet on. -/
def scan (field : Bytes) : Tally := field.foldl Tally.readDigit {}

theorem stored_tally (bs : Bytes) :
    (tally bs).stored = (scan (storedField bs)).stored ∧
      (tally bs).digits = (scan (storedField bs)).digits := by
  -- The scan and the pass see the same octets of the field, so the two stay equal in what a digit
  -- is read by.
  induction bs using List.reverseRecOn with
  | nil => exact ⟨rfl, rfl⟩
  | append_singleton bs b ih =>
    obtain ⟨hs, hd⟩ := ih
    rw [storedField_concat]
    by_cases hc : Layout.checksum.Covers bs.length
    · rw [tally_concat_of_covers hc, if_pos hc, scan, List.foldl_concat]
      exact readDigit_congr b hs hd
    · rw [tally_concat_of_not_covers hc, if_neg hc]
      exact ⟨hs, hd⟩

/-- The stored number is right if it is one of the two sums. -/
theorem verify_iff (bs : Bytes) :
    verify bs = true ↔
      ((scan (storedField bs)).stored : Int) = sum (blanked bs) ∨
        ((scan (storedField bs)).stored : Int) = signedSum (blanked bs) := by
  simp only [verify, Bool.or_eq_true, beq_iff_eq, unsigned_tally, signed_tally,
    (stored_tally bs).1]

/-- With six digits read, nothing after them is looked at. -/
theorem readDigit_of_full {t : Tally} (h : t.digits = 6) (b : UInt8) : t.readDigit b = t := by
  unfold Tally.readDigit
  rw [if_neg (by simp [h]), if_pos (by omega), ← h]

theorem foldl_readDigit_of_full {t : Tally} (h : t.digits = 6) (rest : Bytes) :
    rest.foldl Tally.readDigit t = t := by
  induction rest with
  | nil => rfl
  | cons b rest ih => rw [List.foldl_cons, readDigit_of_full h, ih]

/-- A run of digits that is not too long is read as its number. -/
theorem foldl_readDigit {ds : Bytes} (hd : ∀ b ∈ ds, Octal.isDigit b = true) {t : Tally}
    (hl : t.digits + ds.length ≤ 6) :
    ds.foldl Tally.readDigit t =
      { t with
        stored := (ds.map Octal.digitValue).foldl (fun n d => n * 8 + d) t.stored
        digits := t.digits + ds.length } := by
  induction ds generalizing t with
  | nil => rfl
  | cons d ds ih =>
    have hl' : t.digits + 1 + ds.length ≤ 6 := by
      rw [List.length_cons] at hl
      omega
    have hread : t.readDigit d =
        { t with stored := t.stored * 8 + Octal.digitValue d, digits := t.digits + 1 } := by
      rw [Tally.readDigit, hd d List.mem_cons_self, if_pos]
      rw [Bool.true_and, decide_eq_true_eq]
      omega
    rw [List.foldl_cons, hread, ih (fun b hb => hd b (List.mem_cons_of_mem d hb)) hl']
    rw [List.length_cons, Nat.add_assoc, Nat.add_comm 1]
    rfl

end TarHeader.Checksum
