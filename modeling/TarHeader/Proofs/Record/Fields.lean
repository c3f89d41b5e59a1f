import TarHeader.Record

/- Records after several fields were written. Of fields that lie apart each reads as it was written
   (`read_putAll_of_mem`), whatever the record held before, and what lies apart from all of them
   reads as before (`read_putAll_of_apart`). Octet by octet the same holds without the fields lying
   apart: an octet in none of the fields stays what it was (`octet_putAll_of_not_covers`), and records
   that are written alike but for what is said within some fields (`Field.SameOutside`) differ in no
   octet outside these (`octet_putAll_congr`). -/
namespace TarHeader

/-- Whether a field has the octet at an offset. -/
def Field.Covers (f : Field) (i : Nat) : Prop := f.offset ≤ i ∧ i < f.stop

instance (f : Field) (i : Nat) : Decidable (f.Covers i) := by
  unfold Field.Covers; infer_instance

instance (f g : Field) : Decidable (f.Apart g) := by unfold Field.Apart; infer_instance

namespace Field

/-- Whether a field is part of one in the list. -/
def Within (f : Field) (fs : List Field) : Prop :=
  ∃ g ∈ fs, g.offset ≤ f.offset ∧ f.stop ≤ g.stop

instance (f : Field) (fs : List Field) : Decidable (f.Within fs) := by
  unfold Within; infer_instance

variable {f : Field} {fs : List Field} {i : Nat}

theorem Apart.not_covers {g : Field} (h : f.Apart g) (hi : g.Covers i) : ¬ f.Covers i := by
  unfold Apart at h
  unfold Covers at hi ⊢
  omega

theorem within_of_mem (h : f ∈ fs) : f.Within fs := ⟨f, h, Nat.le_refl _, Nat.le_refl _⟩

theorem Within.not_covers (h : f.Within fs) (hi : ∀ g ∈ fs, ¬ g.Covers i) : ¬ f.Covers i := by
  obtain ⟨g, hg, hlow, hhigh⟩ := h
  intro hf
  exact hi g hg ⟨Nat.le_trans hlow hf.1, Nat.lt_of_lt_of_le hf.2 hhigh⟩

/-- Two lists of contents are the same but for what each says within the fields `fs`. -/
inductive SameOutside {α : Type} (fs : List Field) :
    List (Field × α) → List (Field × α) → Prop where
  | nil : SameOutside fs [] []
  | cons (x : Field × α) {xs ys : List (Field × α)} (h : SameOutside fs xs ys) :
      SameOutside fs (x :: xs) (x :: ys)
  | left {x : Field × α} {xs ys : List (Field × α)} (hx : x.1.Within fs)
      (h : SameOutside fs xs ys) : SameOutside fs (x :: xs) ys
  | right {y : Field × α} {xs ys : List (Field × α)} (hy : y.1.Within fs)
      (h : SameOutside fs xs ys) : SameOutside fs xs (y :: ys)

namespace SameOutside

variable {α : Type} {xs ys xs' ys' : List (Field × α)} {x y : α}

theorem refl (fs : List Field) (xs : List (Field × α)) : SameOutside fs xs xs := by
  induction xs with
  | nil => exact .nil
  | cons x xs ih => exact .cons x ih

/-- A field has the same content in both, or it is one in which they may differ. -/
theorem field (hxy : x = y ∨ f.Within fs) (h : SameOutside fs xs ys) :
    SameOutside fs ((f, x) :: xs) ((f, y) :: ys) := by
  rcases hxy with rfl | hf
  · exact .cons _ h
  · exact .left hf (.right hf h)

theorem of_within (hx : ∀ x ∈ xs, x.1.Within fs) (hy : ∀ y ∈ ys, y.1.Within fs) :
    SameOutside fs xs ys := by
  induction xs with
  | nil =>
    induction ys with
    | nil => exact .nil
    | cons y ys ih =>
      obtain ⟨hy, hys⟩ := List.forall_mem_cons.mp hy
      exact .right hy (ih hys)
  | cons x xs ih =>
    obtain ⟨hx, hxs⟩ := List.forall_mem_cons.mp hx
    exact .left hx (ih hxs)

theorem append (h : SameOutside fs xs ys) (h' : SameOutside fs xs' ys') :
    SameOutside fs (xs ++ xs') (ys ++ ys') := by
  induction h with
  | nil => exact h'
  | cons x _ ih => exact .cons x ih
  | left hx _ ih => exact .left hx ih
  | right hy _ ih => exact .right hy ih

/-- Without a field to differ in, they are the same. -/
theorem eq_of_nil (h : SameOutside [] xs ys) : xs = ys := by
  induction h with
  | nil => rfl
  | cons x _ ih => rw [ih]
  | left hx _ _ => exact absurd hx (by simp [Within])
  | right hy _ _ => exact absurd hy (by simp [Within])

end SameOutside

end Field

namespace Record

variable {f g : Field} {i : Nat}

theorem putAll_cons (r : Record) (x : Field × Bytes) (fields : List (Field × Bytes)) :
    r.putAll (x :: fields) = (r.put x.1 x.2).putAll fields := rfl

theorem read_putAll_of_apart {fields : List (Field × Bytes)} (h : ∀ x ∈ fields, x.1.Apart g)
    (r : Record) : (r.putAll fields).read g = r.read g := by
  induction fields generalizing r with
  | nil => rfl
  | cons x fields ih =>
    rw [putAll_cons, ih fun y hy => h y (List.mem_cons_of_mem x hy)]
    exact read_put_of_apart r x.2 (h x List.mem_cons_self)

theorem read_putAll_of_mem {fields : List (Field × Bytes)}
    (h : fields.Pairwise fun x y => y.1.Apart x.1) {bs : Bytes} (hm : (f, bs) ∈ fields)
    (r : Record) : (r.putAll fields).read f = fit f.width bs := by
  -- The field is the first that is written, and no later one touches it, or it is a later one.
  induction fields generalizing r with
  | nil => cases hm
  | cons x fields ih =>
    obtain ⟨hx, hfields⟩ := List.pairwise_cons.mp h
    rw [putAll_cons]
    rcases List.mem_cons.mp hm with rfl | hm
    · rw [read_putAll_of_apart hx]
      exact read_put_self r f bs
    · exact ih hfields hm (r.put x.1 x.2)

theorem read_zero (f : Field) : zero.read f = List.replicate f.width 0 := by
  have := f.fits
  rw [read, zero, List.drop_replicate, List.take_replicate]
  congr 1
  omega

/-! Octet by octet -/

theorem octets_put (r : Record) (f : Field) (bs : Bytes) :
    (r.put f bs).octets = r.octets.take f.offset ++ (fit f.width bs ++ r.octets.drop f.stop) :=
  List.append_assoc _ _ _

theorem octet_put_of_covers (r : Record) (bs : Bytes) (h : f.Covers i) :
    (r.put f bs).octets[i]? = (fit f.width bs)[i - f.offset]? := by
  have hf := f.fits
  have hr := r.length_octets
  obtain ⟨hlow, hhigh⟩ := h
  unfold Field.stop at hhigh
  have htake := r.length_take_offset f
  rw [octets_put, List.getElem?_append_right (by omega), htake,
    List.getElem?_append_left (by rw [length_fit]; omega)]

theorem octet_put_of_not_covers (r : Record) (bs : Bytes) (h : ¬ f.Covers i) :
    (r.put f bs).octets[i]? = r.octets[i]? := by
  have hf := f.fits
  have hr := r.length_octets
  have htake := r.length_take_offset f
  rw [octets_put]
  -- In front of the field the record is taken over as it is; after it, it is shifted back.
  by_cases hi : i < f.offset
  · rw [List.getElem?_append_left (by omega), List.getElem?_take_of_lt hi]
  · have hstop : f.stop ≤ i := by
      unfold Field.Covers at h
      omega
    unfold Field.stop at hstop ⊢
    rw [List.getElem?_append_right (by omega), htake,
      List.getElem?_append_right (by rw [length_fit]; omega), length_fit, List.getElem?_drop]
    congr 1
    omega

theorem octet_putAll_of_not_covers {fields : List (Field × Bytes)}
    (h : ∀ x ∈ fields, ¬ x.1.Covers i) (r : Record) :
    (r.putAll fields).octets[i]? = r.octets[i]? := by
  induction fields generalizing r with
  | nil => rfl
  | cons x fields ih =>
    rw [putAll_cons, ih fun y hy => h y (List.mem_cons_of_mem x hy)]
    exact octet_put_of_not_covers r x.2 (h x List.mem_cons_self)

/-- What both write changes an octet of both to the same; what only one of them writes lies
    elsewhere. -/
theorem octet_putAll_congr {fs : List Field} {fields fields' : List (Field × Bytes)}
    (h : Field.SameOutside fs fields fields') (hi : ∀ f ∈ fs, ¬ f.Covers i) {r s : Record}
    (hrs : r.octets[i]? = s.octets[i]?) :
    (r.putAll fields).octets[i]? = (s.putAll fields').octets[i]? := by
  induction h generalizing r s with
  | nil => exact hrs
  | cons x _ ih =>
    apply ih
    by_cases hx : x.1.Covers i
    · rw [octet_put_of_covers r x.2 hx, octet_put_of_covers s x.2 hx]
    · rw [octet_put_of_not_covers r x.2 hx, octet_put_of_not_covers s x.2 hx, hrs]
  | left hx _ ih =>
    apply ih
    rw [octet_put_of_not_covers r _ (hx.not_covers hi), hrs]
  | right hy _ ih =>
    apply ih
    rw [octet_put_of_not_covers s _ (hy.not_covers hi), hrs]

end Record

end TarHeader
