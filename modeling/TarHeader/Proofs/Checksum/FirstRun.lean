import TarHeader.Proofs.Checksum.Tally

/- Which digits of the checksum field count. The scan has one counter for how many digits it has read
   and whether the run of them is over. In front of the first digit the counter is zero and nothing
   is read (`foldl_readDigit_of_junk`), in the run it counts, and after the run, or after six digits,
   what is stored stays (`stored_foldl_of_read`). So the stored number is that of the first run, cut
   to six digits (`FirstRun.stored_scan`), and digits that stand after these say nothing
   (`verify_iff_storedNumber`). -/
namespace TarHeader.Checksum

open Octal (isDigit)

/-- The digits of a checksum field that count: the first run of them, at most six. -/
def storedDigits (field : Bytes) : Bytes :=
  ((field.dropWhile (!isDigit ·)).takeWhile isDigit).take 6

/-- The number stored in a header, zero if there is no digit. -/
def storedNumber (bs : Bytes) : Nat := Octal.value (storedDigits (storedField bs))

/-- Whether a digit of the checksum field stands at an offset and after the digits that count. -/
def Surplus (bs : Bytes) (i : Nat) : Prop :=
  Layout.checksum.Covers i ∧
    Layout.checksum.offset + ((storedField bs).takeWhile (!isDigit ·)).length +
      (storedDigits (storedField bs)).length ≤ i ∧
    ∃ b, bs[i]? = some b ∧ isDigit b = true

/-- A field as octets without a digit, the digits that count, and the rest. -/
structure FirstRun (field junk ds rest : Bytes) : Prop where
  eq_append : field = junk ++ (ds ++ rest)
  junk : ∀ b ∈ junk, isDigit b = false
  digits : ∀ b ∈ ds, isDigit b = true
  length_le : ds.length ≤ 6
  ends : ds.length < 6 → ∀ b, rest.head? = some b → isDigit b = false
  found : ds = [] → rest = []

variable {field field' junk ds rest bs bs' : Bytes}

/-! The scan -/

theorem foldl_readDigit_of_junk {t : Tally} (ht : t.digits = 0)
    (h : ∀ b ∈ junk, isDigit b = false) : junk.foldl Tally.readDigit t = t := by
  induction junk with
  | nil => rfl
  | cons b junk ih =>
    have hread : t.readDigit b = t := by
      rw [Tally.readDigit, h b List.mem_cons_self, if_neg (by simp), if_neg (by omega)]
    rw [List.foldl_cons, hread]
    exact ih fun c hc => h c (List.mem_cons_of_mem b hc)

/-- After some digits an octet that ends the run, or any octet after six, stores nothing more. -/
theorem stored_foldl_of_read {t : Tally} (ht : 0 < t.digits)
    (h : t.digits < 6 → ∀ b, rest.head? = some b → isDigit b = false) :
    (rest.foldl Tally.readDigit t).stored = t.stored := by
  cases rest with
  | nil => rfl
  | cons b rest =>
    have hread : t.readDigit b = { t with digits := 6 } := by
      rw [Tally.readDigit, if_neg, if_pos ht]
      intro hb
      obtain ⟨hdigit, hlt⟩ := Bool.and_eq_true_iff.mp hb
      rw [h (of_decide_eq_true hlt) b rfl] at hdigit
      contradiction
    rw [List.foldl_cons, hread, foldl_readDigit_of_full rfl]

theorem FirstRun.stored_scan (h : FirstRun field junk ds rest) :
    (scan field).stored = Octal.value ds := by
  have hread := foldl_readDigit h.digits (t := {}) (by simpa using h.length_le)
  have hcount : (ds.foldl Tally.readDigit {}).digits = ds.length := by
    rw [hread]
    exact Nat.zero_add _
  have hstored : (rest.foldl Tally.readDigit (ds.foldl Tally.readDigit {})).stored =
      (ds.foldl Tally.readDigit {}).stored := by
    by_cases hds : ds = []
    · rw [h.found hds]
      rfl
    · apply stored_foldl_of_read
      · rw [hcount]
        exact List.length_pos_of_ne_nil hds
      · rw [hcount]
        exact h.ends
  calc (scan field).stored
      = (rest.foldl Tally.readDigit
          (ds.foldl Tally.readDigit (junk.foldl Tally.readDigit {}))).stored := by
        rw [scan, h.eq_append, List.foldl_append, List.foldl_append]
    _ = (rest.foldl Tally.readDigit (ds.foldl Tally.readDigit {})).stored := by
        rw [foldl_readDigit_of_junk rfl h.junk]
    _ = (ds.foldl Tally.readDigit {}).stored := hstored
    _ = Octal.value ds := by
        rw [hread]
        rfl

/-- Six digits are read as their number, whatever stands after them. -/
theorem stored_scan_digits (hd : ∀ b ∈ ds, isDigit b = true) (hl : ds.length = 6) (rest : Bytes) :
    (scan (ds ++ rest)).stored = Octal.value ds := by
  have hrun : FirstRun (ds ++ rest) [] ds rest :=
    { eq_append := rfl
      junk := nofun
      digits := hd
      length_le := Nat.le_of_eq hl
      ends := fun hlt => absurd hl (Nat.ne_of_lt hlt)
      found := fun hnil => absurd hl (by rw [hnil]; decide) }
  exact hrun.stored_scan

/-! The first run -/

/-- What follows the junk starts with a digit, so nothing follows it if no digit does. -/
theorem dropWhile_eq_nil_of_takeWhile_eq_nil
    (h : (field.dropWhile (!isDigit ·)).takeWhile isDigit = []) :
    field.dropWhile (!isDigit ·) = [] := by
  have hfirst := List.head?_dropWhile_not (!isDigit ·) field
  cases htail : field.dropWhile (!isDigit ·) with
  | nil => rfl
  | cons b tail =>
    have hdigit : isDigit b = true := by
      rw [htail] at hfirst
      simpa using hfirst
    rw [htail, List.takeWhile_cons, if_pos hdigit] at h
    contradiction

/-- Every field has its first run. -/
theorem firstRun_storedDigits (field : Bytes) : ∃ rest,
    FirstRun field (field.takeWhile (!isDigit ·)) (storedDigits field) rest := by
  let tail := field.dropWhile (!isDigit ·)
  let run := tail.takeWhile isDigit
  have hsplit : tail = run.take 6 ++ (run.drop 6 ++ tail.dropWhile isDigit) := by
    rw [← List.append_assoc, List.take_append_drop, List.takeWhile_append_dropWhile]
  have hrun : ∀ b ∈ run, isDigit b = true := fun b hb => List.mem_takeWhile_imp hb
  refine ⟨run.drop 6 ++ tail.dropWhile isDigit, ?_, ?_, ?_, ?_, ?_, ?_⟩
  · show field = field.takeWhile (!isDigit ·) ++ (run.take 6 ++ _)
    rw [← hsplit, List.takeWhile_append_dropWhile]
  · intro b hb
    have hjunk : (!isDigit b) = true := List.mem_takeWhile_imp (p := (!isDigit ·)) hb
    simpa using hjunk
  · exact fun b hb => hrun b (List.mem_of_mem_take hb)
  · exact List.length_take_le 6 run
  · intro hlt b hb
    -- With less than six digits nothing of the run was cut off.
    have hshort : run.length < 6 := by
      have hlen : (run.take 6).length < 6 := hlt
      rw [List.length_take] at hlen
      omega
    rw [List.drop_of_length_le (Nat.le_of_lt hshort), List.nil_append] at hb
    have hnot := List.head?_dropWhile_not isDigit tail
    rw [hb] at hnot
    simpa using hnot
  · intro hnil
    have hnone : run = [] := by
      have htake : run.take 6 = [] := hnil
      simpa using htake
    have htail : tail = [] := dropWhile_eq_nil_of_takeWhile_eq_nil hnone
    rw [hnone, htail]
    rfl

theorem stored_scan_eq (field : Bytes) :
    (scan field).stored = Octal.value (storedDigits field) := by
  obtain ⟨rest, h⟩ := firstRun_storedDigits field
  exact h.stored_scan

/-- Fields that differ in digits after their first run only have the same first run. -/
theorem FirstRun.of_agree (h : FirstRun field junk ds rest) (hlen : field'.length = field.length)
    (hagree : ∀ j, ¬ (junk.length + ds.length ≤ j ∧ ∃ b, field[j]? = some b ∧ isDigit b = true) →
      field'[j]? = field[j]?) :
    ∃ rest', FirstRun field' junk ds rest' := by
  have hfield : field = (junk ++ ds) ++ rest := by rw [h.eq_append, List.append_assoc]
  have hm : (junk ++ ds).length = junk.length + ds.length := List.length_append
  have hfront : field'.take (junk.length + ds.length) = junk ++ ds := by
    apply List.ext_getElem?
    intro j
    by_cases hj : j < junk.length + ds.length
    · rw [List.getElem?_take_of_lt hj, hagree j (by omega), hfield,
        List.getElem?_append_left (by omega)]
    · rw [List.getElem?_eq_none (by rw [List.length_take]; omega),
        List.getElem?_eq_none (by omega)]
  refine ⟨field'.drop (junk.length + ds.length), ?_, h.junk, h.digits, h.length_le, ?_, ?_⟩
  · rw [← List.append_assoc, ← hfront, List.take_append_drop]
  · intro hlt b hb
    -- The octet that ended the run is no digit, so it is one of those that agree.
    have hhead : field[junk.length + ds.length]? = rest.head? := by
      rw [hfield, ← hm, List.getElem?_append_right (Nat.le_refl _), Nat.sub_self,
        List.head?_eq_getElem?]
    have hsame : field'[junk.length + ds.length]? = field[junk.length + ds.length]? := by
      apply hagree
      rintro ⟨-, c, hc, hdigit⟩
      rw [hhead] at hc
      rw [h.ends hlt c hc] at hdigit
      contradiction
    rw [List.head?_drop, hsame, hhead] at hb
    exact h.ends hlt b hb
  · intro hds
    have hrest := h.found hds
    rw [hrest, List.append_nil] at hfield
    apply List.drop_of_length_le
    rw [hlen, hfield, hm]

theorem FirstRun.storedNumber_eq (h : FirstRun (storedField bs) junk ds rest) :
    storedNumber bs = Octal.value ds :=
  (stored_scan_eq _).symm.trans h.stored_scan

/-! Headers -/

theorem octet_storedField (bs : Bytes) (j : Nat) :
    (storedField bs)[j]? =
      if j < Layout.checksum.width then bs[Layout.checksum.offset + j]? else none := by
  rw [storedField, List.getElem?_take, List.getElem?_drop]

theorem blanked_congr (hlen : bs'.length = bs.length)
    (h : ∀ i, ¬ Layout.checksum.Covers i → bs'[i]? = bs[i]?) : blanked bs' = blanked bs := by
  apply List.ext_getElem?
  intro i
  rw [blanked, blanked, List.getElem?_mapIdx, List.getElem?_mapIdx]
  by_cases hc : Layout.checksum.Covers i
  · simp only [if_pos hc]
    by_cases hi : i < bs.length
    · rw [List.getElem?_eq_getElem hi, List.getElem?_eq_getElem (hlen ▸ hi)]
      rfl
    · rw [List.getElem?_eq_none (Nat.not_lt.mp hi), List.getElem?_eq_none (by omega)]
  · rw [h i hc]

theorem storedNumber_congr (hlen : bs'.length = bs.length)
    (h : ∀ i, ¬ Surplus bs i → bs'[i]? = bs[i]?) : storedNumber bs' = storedNumber bs := by
  obtain ⟨rest, hrun⟩ := firstRun_storedDigits (storedField bs)
  have hlen' : (storedField bs').length = (storedField bs).length := by
    simp only [storedField, List.length_take, List.length_drop, hlen]
  have hrun' := hrun.of_agree hlen' fun j hj => by
    rw [octet_storedField, octet_storedField]
    split
    · next hwidth =>
      apply h
      rintro ⟨-, hafter, b, hb, hdigit⟩
      refine hj ⟨by omega, b, ?_, hdigit⟩
      rw [octet_storedField, if_pos hwidth]
      exact hb
    · rfl
  obtain ⟨rest', hrun'⟩ := hrun'
  rw [hrun.storedNumber_eq, hrun'.storedNumber_eq]

/-- A header verifies if the first run of digits in its checksum field, cut to six, is one of its two
    sums, and other digits may be any octets. -/
theorem verify_iff_storedNumber (bs : Bytes) :
    (verify bs = true ↔
      (storedNumber bs : Int) = sum (blanked bs) ∨
        (storedNumber bs : Int) = signedSum (blanked bs)) ∧
    ∀ bs' : Bytes, bs'.length = bs.length → (∀ i, ¬ Surplus bs i → bs'[i]? = bs[i]?) →
      verify bs' = verify bs := by
  have hiff : ∀ bs : Bytes, verify bs = true ↔
      (storedNumber bs : Int) = sum (blanked bs) ∨
        (storedNumber bs : Int) = signedSum (blanked bs) := by
    intro bs
    rw [verify_iff, stored_scan_eq, ← storedNumber]
  refine ⟨hiff bs, ?_⟩
  intro bs' hlen hagree
  have hblanked : blanked bs' = blanked bs :=
    blanked_congr hlen fun i hi => hagree i fun hsurplus => hi hsurplus.1
  rw [Bool.eq_iff_iff, hiff, hiff, hblanked, storedNumber_congr hlen hagree]

/-- A header with the right sum in its checksum field, and two more digits after it. -/
def overfull : Record :=
  (Record.zero.put Layout.name [0x68, 0x65, 0x6c, 0x6c, 0x6f]).put Layout.checksum
    [0x20, 0x31, 0x34, 0x32, 0x34, 0x20, 0x37, 0x37]

/-- In the place of the two digits other octets do as well. -/
theorem overfull_verifies : verify overfull.octets = true ∧
    verify ((overfull.octets.set 154 0x30).set 155 0xff) = true := by
  have hright : verify overfull.octets = true := by decide +kernel
  have hlen : ((overfull.octets.set 154 0x30).set 155 0xff).length = overfull.octets.length := by
    rw [List.length_set, List.length_set]
  have hfirst : Surplus overfull.octets 154 :=
    ⟨by decide, by decide +kernel, 0x37, by decide +kernel, by decide⟩
  have hsecond : Surplus overfull.octets 155 :=
    ⟨by decide, by decide +kernel, 0x37, by decide +kernel, by decide⟩
  have hagree : ∀ i, ¬ Surplus overfull.octets i →
      ((overfull.octets.set 154 0x30).set 155 0xff)[i]? = overfull.octets[i]? := by
    intro i hi
    have hne : 154 ≠ i := fun h => hi (h ▸ hfirst)
    have hne' : 155 ≠ i := fun h => hi (h ▸ hsecond)
    rw [List.getElem?_set_ne hne', List.getElem?_set_ne hne]
  exact ⟨hright, ((verify_iff_storedNumber overfull.octets).2 _ hlen hagree).trans hright⟩

end TarHeader.Checksum
