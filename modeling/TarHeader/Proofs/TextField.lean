import TarHeader.Proofs.Charset.Laws
import TarHeader.TextField

/- Text written into a field and read from it again. Text that fits is stored whole and reads back
   in a faithful charset (`decode_fit`). Writing fails only where the charset fails for a beginning
   of the text (`exists_prefix_of_encode_error`), so the charset alone decides what can go wrong
   (`stray_of_encode_error`). Text that does not fit is written as the longest of its beginnings
   that does (`exists_cutAt`). -/
namespace TarHeader.TextField

variable {cs : Charset} {w : Nat} {t : Text} {bs : Bytes}

/-- Text that fits is not cut. -/
theorem encode_of_length_le (h : cs.encode t = .ok bs) (hl : bs.length ≤ w) :
    encode cs w t = .ok bs := by
  unfold encode
  cases hn : t.length with
  | zero =>
    rw [List.length_eq_zero_iff.mp hn] at h
    simp only [encodeFitting, h, bind, Except.bind, if_pos hl]
    rfl
  | succ n =>
    simp only [encodeFitting, ← hn, List.take_length, h, bind, Except.bind, if_pos hl]
    rfl

/-- A fault of writing is a fault of the charset for a beginning of the text. -/
theorem exists_prefix_of_encodeFitting_error (hnil : cs.encode [] = .ok []) {n : Nat}
    {fault : Fault} (h : encodeFitting cs w t n = .error fault) :
    ∃ s, s <+: t ∧ cs.encode s = .error fault := by
  induction n with
  | zero =>
    simp only [encodeFitting, hnil, bind, Except.bind, List.length_nil, Nat.zero_le, if_true] at h
    cases h
  | succ n ih =>
    simp only [encodeFitting, bind, Except.bind] at h
    cases hs : cs.encode (t.take (n + 1)) with
    | error fault' =>
      rw [hs] at h
      cases h
      exact ⟨_, List.take_prefix _ _, hs⟩
    | ok bs =>
      -- Octets that fit are no fault; octets that do not hand on to a shorter text.
      rw [hs] at h
      simp only at h
      split at h
      · cases h
      · exact ih h

theorem exists_prefix_of_encode_error (hnil : cs.encode [] = .ok []) {fault : Fault}
    (h : encode cs w t = .error fault) : ∃ s, s <+: t ∧ cs.encode s = .error fault :=
  exists_prefix_of_encodeFitting_error hnil h

/-- The first `n` characters of a text are the longest of its beginnings that fit. -/
structure CutAt (cs : Charset) (w : Nat) (t : Text) (n : Nat) : Prop where
  le_length : n ≤ t.length
  fits : cs.EncodesWithin w (t.take n)
  longest : ∀ m, n < m → m ≤ t.length → ¬ cs.EncodesWithin w (t.take m)

theorem exists_take_of_encodeFitting (hnil : cs.encode [] = .ok [])
    (ht : ∀ s, s <+: t → cs.Encodable s) (n : Nat) :
    ∃ m, m ≤ n ∧ cs.EncodesWithin w (t.take m) ∧
      encodeFitting cs w t n = cs.encode (t.take m) ∧
      ∀ k, m < k → k ≤ n → ¬ cs.EncodesWithin w (t.take k) := by
  induction n with
  | zero =>
    refine ⟨0, Nat.le_refl 0, ⟨[], hnil, Nat.zero_le w⟩, ?_, ?_⟩
    · simp [encodeFitting, hnil, bind, Except.bind, pure, Except.pure]
    · exact fun k hk hk' => absurd hk (Nat.not_lt.mpr hk')
  | succ n ih =>
    obtain ⟨bs, hbs⟩ := ht _ (List.take_prefix (n + 1) t)
    simp only [encodeFitting, hbs, bind, Except.bind]
    by_cases hl : bs.length ≤ w
    · refine ⟨n + 1, Nat.le_refl _, ⟨bs, hbs, hl⟩, ?_, ?_⟩
      · rw [if_pos hl, hbs]
        rfl
      · exact fun k hk hk' => absurd hk (Nat.not_lt.mpr hk')
    · -- One character too many; the cut is that of the shorter beginnings.
      obtain ⟨m, hm, hfits, henc, hlongest⟩ := ih
      refine ⟨m, Nat.le_succ_of_le hm, hfits, ?_, ?_⟩
      · rw [if_neg hl, henc]
      · intro k hk hk' hkfits
        rcases Nat.lt_or_eq_of_le hk' with hlt | rfl
        · exact hlongest k hk (Nat.le_of_lt_succ hlt) hkfits
        · exact hl ((Charset.encodesWithin_iff hbs).mp hkfits)

/-- A text is written as its longest beginning that fits. -/
theorem exists_cutAt (hnil : cs.encode [] = .ok []) (ht : ∀ s, s <+: t → cs.Encodable s) :
    ∃ n, CutAt cs w t n ∧ encode cs w t = cs.encode (t.take n) := by
  obtain ⟨n, hn, hfits, henc, hlongest⟩ := exists_take_of_encodeFitting (w := w) hnil ht t.length
  exact ⟨n, ⟨hn, hfits, hlongest⟩, henc⟩

/-- The cut takes nothing from text that fits. -/
theorem CutAt.take_eq {n : Nat} (h : CutAt cs w t n)
    (hfits : cs.EncodesWithin w t) : t.take n = t := by
  refine List.take_of_length_le (Nat.le_of_not_lt fun hshort => ?_)
  refine h.longest t.length hshort (Nat.le_refl _) ?_
  rwa [List.take_length]

/-- What is left of a text is written whole. -/
theorem CutAt.encode_take {n : Nat} (h : CutAt cs w t n) :
    encode cs w (t.take n) = cs.encode (t.take n) := by
  obtain ⟨bs, hbs, hl⟩ := h.fits
  rw [encode_of_length_le hbs hl, hbs]

/-- Where the last character alone has no room, the cut takes that and nothing else. -/
theorem CutAt.eq_length {c : Char} {n : Nat} (h : CutAt cs w (t ++ [c]) n)
    (hfits : cs.EncodesWithin w t) (hlong : ¬ cs.EncodesWithin w (t ++ [c])) : n = t.length := by
  have hlen : (t ++ [c]).length = t.length + 1 := by
    rw [List.length_append, List.length_singleton]
  have hle := h.le_length
  have hne : n ≠ t.length + 1 := by
    intro hn
    have hcut := h.fits
    rw [List.take_of_length_le (by omega)] at hcut
    exact hlong hcut
  have hge : ¬ n < t.length := by
    intro hlt
    have hcut := h.longest t.length hlt (by omega)
    rw [List.take_left] at hcut
    exact hcut hfits
  omega

theorem stray_of_encode_error {stray : Fault → Prop} (hnil : cs.encode [] = .ok [])
    (ht : cs.StraysOn stray t) {fault : Fault} (h : encode cs w t = .error fault) : stray fault :=
  let ⟨s, hs, hfault⟩ := exists_prefix_of_encode_error hnil h
  ht s hs.isInfix fault hfault

theorem decode_fallback_ne_error (fault : Fault) : decode .fallback bs ≠ .error fault :=
  Charset.fallback_decode_ne_error _ fault

/-- Text that fits reads back. -/
theorem decode_fit (hcs : cs.Truncatable) (ht : NulFree t) (h : cs.encode t = .ok bs)
    (hl : bs.length ≤ w) : decode cs (fit w bs) = .ok t := by
  rw [decode, untilNul_fit hl (hcs.ne_zero_of_mem h ht)]
  exact hcs.decode_encode h

/-- Text of one octet for each character that fits reads back in the fallback charset. -/
theorem decode_fit_fallback (ht : NulFree t) (hlatin : Latin1 t)
    (h : Charset.fallback.encode t = .ok bs) (hl : t.length ≤ w) :
    decode .fallback (fit w bs) = .ok t := by
  have hlen : bs.length ≤ w := by rwa [Charset.length_encode_fallback h]
  rw [decode, untilNul_fit hlen (Charset.fallback_ne_zero_of_mem ht h)]
  exact Charset.decode_encode_fallback hlatin h

/-- An empty field is empty text. -/
theorem decode_replicate_zero (hnil : cs.decode [] = .ok []) :
    decode cs (List.replicate w 0) = .ok [] := by
  have : untilNul (List.replicate w 0) = [] := by
    cases w <;> simp [untilNul, List.replicate_succ]
  rw [decode, this, hnil]

end TarHeader.TextField
