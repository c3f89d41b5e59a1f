import TarHeader.Proofs.Charset.Canonical
import TarHeader.Proofs.Entry.Sealing
import TarHeader.Proofs.Entry.SelfReadable
import TarHeader.Proofs.TextField.Truncation

/- Octets that pass through text. In the fallback charset each octet is a character and comes back
   as the same octet, by the way that is meant for ASCII or by the general one. So what stands in a
   field before its first NUL can be read as text and put back in full (`Buffer.putText_of_decode`,
   for any canonical charset), and the marks of a format pass from a header that is read to one that
   is written, also if no format has them (`fallback_restores`). -/
namespace TarHeader

namespace Charset

theorem toNat_latin1Char (b : UInt8) : (latin1Char b).toNat = b.toNat := by
  have := b.toNat_lt
  exact Utf8.toNat_ofNat (.inl (by omega))

/-- Octets are read in the fallback charset, one character each, and written again. -/
theorem decode_fallback_restores (bs : Bytes) : ∃ t, fallback.decode bs = .ok t ∧
    t.map Char.toNat = bs.map UInt8.toNat ∧ fallback.encode t = .ok bs := by
  refine ⟨bs.map latin1Char, decode_fallback bs, ?_, fallback_canonical (decode_fallback bs)⟩
  rw [List.map_map]
  exact List.map_congr_left fun b _ => toNat_latin1Char b

end Charset

namespace TextField

variable {cs : Charset} {bs : Bytes} {t : Text}

/-- What was read from a field is written whole into one of the same width. -/
theorem encode_width_of_decode (hcs : cs.Canonical) (h : decode cs bs = .ok t) :
    encode cs bs.length t = .ok (untilNul bs) :=
  encode_of_length_le (encode_of_decode hcs h) (length_untilNul_le bs)

end TextField

/-- Text that was read from a field puts the octets of that field, up to the first NUL, into any
    buffer of the same width. -/
theorem Buffer.putText_of_decode {cs : Charset} {field buf : Bytes} {t : Text}
    (hcs : cs.Canonical) (h : TextField.decode cs field = .ok t) (hl : buf.length = field.length) :
    Buffer.putText cs t buf = .ok (untilNul field).length
      (untilNul field ++ List.replicate (field.length - (untilNul field).length) 0) := by
  have hencode := TextField.encode_width_of_decode hcs h
  rw [← hl] at hencode
  rw [Buffer.putText_of_encode hencode, hl]

namespace Attributes

variable {cs cs' : Charset} {extended : Bool} {a : Attributes} {f : Field} {t : Text}
  {rest : List (Field × Content)} {r r' : Record}

/-- A text of one header, written into the same field of another. -/
theorem Written.read_of_readText (h : Written cs extended a rest r')
    (hm : (f, .text cs' t) ∈ (a.shared cs).tail ++ rest) (hcs : cs'.Canonical)
    (hread : r.readText cs' f = .ok t) :
    r'.read f = untilNul (r.read f) ++
      List.replicate (f.width - (untilNul (r.read f)).length) 0 := by
  obtain ⟨bs, hbs, hread'⟩ := h.read_of_mem hm
  have hencode := TextField.encode_width_of_decode hcs hread
  rw [r.length_read] at hencode
  have hsame : bs = untilNul (r.read f) := Except.ok.inj (hbs.symm.trans hencode)
  have hl : (untilNul (r.read f)).length ≤ f.width :=
    (length_untilNul_le _).trans_eq (r.length_read f)
  rw [hread', hsame, fit_of_length_le hl]

theorem Written.restores_marks (h : Written cs extended a rest r')
    (hmagic : r.readText .fallback Layout.magic = .ok a.magic)
    (hversion : r.readText .fallback Layout.version = .ok a.version) :
    ∀ f ∈ [Layout.magic, Layout.version],
      r'.read f = untilNul (r.read f) ++
        List.replicate (f.width - (untilNul (r.read f)).length) 0 := by
  have hm : ∀ {x}, x ∈ (a.shared cs).tail → x ∈ (a.shared cs).tail ++ rest :=
    fun hx => List.mem_append_left rest hx
  simp only [List.forall_mem_cons, List.not_mem_nil, false_imp_iff, implies_true, and_true]
  exact ⟨h.read_of_readText (hm (by simp [shared])) Charset.fallback_canonical hmagic,
    h.read_of_readText (hm (by simp [shared])) Charset.fallback_canonical hversion⟩

end Attributes

namespace Entry

/-- The fallback charset gives back all octets, and all text in which each character has an octet;
    its way for ASCII changes nothing. Fields of any width are restored up to their first NUL, and so
    are the marks of any header, whatever else of it is changed before it is written again. -/
theorem fallback_restores :
    (∀ bs, ∃ t, Charset.fallback.decode bs = .ok t ∧ t.map Char.toNat = bs.map UInt8.toNat ∧
        Charset.fallback.encode t = .ok bs) ∧
      (∀ t, ∃ bs, Charset.fallback.encode t = .ok bs ∧ bs.length = t.length ∧
        Charset.fallback.decode bs = .ok (t.map fun c => if c.toNat ≤ 0xFF then c else '?')) ∧
      (∀ t : Text, (∀ c ∈ t, c.toNat < 0x80) → Utf8.encode t = t.map Charset.latin1Octet) ∧
      (∀ bs : Bytes, (∀ b ∈ bs, b < 0x80) → Utf8.decodeLossy bs = bs.map Charset.latin1Char) ∧
      (∀ field buf : Bytes, buf.length = field.length →
        ∃ t, TextField.decode .fallback field = .ok t ∧
          Buffer.putText .fallback t buf = .ok (untilNul field).length
            (untilNul field ++ List.replicate (field.length - (untilNul field).length) 0)) ∧
      ∀ files cs r, ∀ e e' : Entry,
        (e.read files cs r = .ok e' ∨ e.readStrict files cs r = .ok e') →
        ∀ cs' extended r₀ r', ∀ d : Entry, d.magic = e'.magic → d.version = e'.version →
          (d.store cs' extended r₀ = .ok () r' ∨ d.storeStrict cs' extended r₀ = .ok () r') →
          ∀ f ∈ [Layout.magic, Layout.version],
            r'.read f = untilNul (r.read f) ++
              List.replicate (f.width - (untilNul (r.read f)).length) 0 := by
  refine ⟨Charset.decode_fallback_restores, ?_, ?_, ?_, ?_, ?_⟩
  · intro t
    have henc := Charset.encode_fallback t
    exact ⟨_, henc, Charset.length_encode_fallback henc, Charset.decode_fallback_of_encode henc⟩
  · exact fun t ht => Utf8.encode_of_ascii ht
  · exact fun bs hbs => Utf8.decodeLossy_of_ascii hbs
  · intro field buf hl
    obtain ⟨t, ht, -, -⟩ := Charset.decode_fallback_restores (untilNul field)
    exact ⟨t, ht, Buffer.putText_of_decode Charset.fallback_canonical ht hl⟩
  · intro files cs r e e' hread cs' extended r₀ r' d hmagic hversion hstore
    have hmarks := hread.elim marks_of_read marks_of_readStrict
    rw [← hmagic, ← hversion] at hmarks
    have hwritten : ∃ cs'' rest, Attributes.Written cs'' extended d.toAttributes rest r' := by
      rcases hstore with hstore | hstore
      · exact exists_written (store_eq_ok_iff.mp hstore)
      · exact ⟨cs', Attributes.exists_written (storeStrict_eq_ok_iff.mp hstore)⟩
    obtain ⟨_, _, hwritten⟩ := hwritten
    exact hwritten.restores_marks hmarks.1 hmarks.2

/-- A header with marks of no format, one of them with octets left behind its NUL. -/
def strangeMarks : Record :=
  Record.zero.putAll [(Layout.magic, [0xE4, 0x62, 0, 0x37]), (Layout.version, [0x20, 0x41])]

theorem strangeMarks_restored : ∃ e r', ofRecord .utf8 strangeMarks = .ok e ∧
    e.store .utf8 true Record.zero = .ok () r' ∧
      r'.read Layout.magic = [0xE4, 0x62, 0, 0, 0, 0] ∧ r'.read Layout.version = [0x20, 0x41] := by
  have hcopied : fault? (do
      (← ofRecord .utf8 strangeMarks).write .utf8 true) = none := by decide +kernel
  obtain ⟨r', hr'⟩ := fault?_eq_none_iff.mp hcopied
  obtain ⟨e, he, hr'⟩ := Fault.bind_eq_ok.mp hr'
  have hstored : e.store .utf8 true Record.zero = .ok () r' := store_eq_ok_iff.mpr hr'
  obtain ⟨-, -, -, -, -, hmarks⟩ := fallback_restores
  have hkept := hmarks _ _ _ _ _ (.inl he) _ _ _ _ e rfl rfl (.inl hstored)
  simp only [List.forall_mem_cons, List.not_mem_nil, false_imp_iff, implies_true, and_true] at hkept
  have hmagic : strangeMarks.read Layout.magic = [0xE4, 0x62, 0, 0x37, 0, 0] := by decide +kernel
  have hversion : strangeMarks.read Layout.version = [0x20, 0x41] := by decide +kernel
  rw [hmagic, hversion] at hkept
  exact ⟨e, r', he, hstored, hkept.1, hkept.2⟩

end Entry

end TarHeader
