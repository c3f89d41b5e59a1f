import TarHeader.Proofs.Charset.Canonical
import TarHeader.Proofs.Entry.Acceptance
import TarHeader.Proofs.Format

/- The format that an entry was read in and the one it is written in. Reading tells the format by
   the octets of the magic, writing by the texts of magic and version, and these texts determine the
   octets they were read from (`Record.readText_fallback_eq_iff`). So the two choices agree, but for
   a header of POSIX with another version than POSIX has: it is read with a prefix and written
   without one (`ofMagic_eq_iff_of_ofRecord`). -/
namespace TarHeader

/-- A field that has room for no more than a text and a NUL is known by its text. -/
theorem Record.readText_fallback_eq_iff {r : Record} {f : Field} {t : Text} {bs : Bytes}
    (hbs : bs.length = f.width) (hfull : bs.length ≤ (untilNul bs).length + 1)
    (ht : TextField.decode .fallback bs = .ok t) :
    r.readText .fallback f = .ok t ↔ r.read f = bs := by
  have hlen : (r.read f).length = bs.length := (r.length_read f).trans hbs.symm
  rw [readText, TextField.decode_eq_iff Charset.fallback_canonical ht]
  constructor
  · intro h
    calc r.read f
        = fit (r.read f).length (untilNul (r.read f)) := eq_fit_untilNul (by rwa [h, hlen])
      _ = fit bs.length (untilNul bs) := by rw [h, hlen]
      _ = bs := (eq_fit_untilNul hfull).symm
  · exact congrArg untilNul

namespace Entry

variable {cs : Charset} {r : Record} {e : Entry}

/-- The texts of magic and version show their octets. -/
theorem marks_of_ofRecord (h : ofRecord cs r = .ok e) :
    (e.magic = Magic.oldGnuText ↔ r.read Layout.magic = Magic.oldGnu) ∧
      (e.magic = Magic.posixText ↔ r.read Layout.magic = Magic.posix) ∧
      (e.version = Magic.posixVersionText ↔ r.read Layout.version = Magic.posixVersion) := by
  obtain ⟨hmagic, hversion⟩ := marks_of_read h
  have htext : ∀ {f : Field} {t t' : Text}, r.readText .fallback f = .ok t →
      (t = t' ↔ r.readText .fallback f = .ok t') := by
    intro f t t' ht
    rw [ht, Except.ok.injEq]
  rw [htext hmagic, htext hmagic, htext hversion]
  refine ⟨?_, ?_, ?_⟩ <;> exact Record.readText_fallback_eq_iff (by decide) (by decide) rfl

/-- An entry is written in the format that it was read in, except that xstar is written as POSIX,
    and that what has the magic of POSIX is POSIX for writing only with the version of POSIX. -/
theorem ofMagic_eq_iff_of_ofRecord (h : ofRecord cs r = .ok e) :
    (Format.ofMagic e.magic e.version = .oldGnu ↔ Format.detect r = .oldGnu) ∧
      (Format.ofMagic e.magic e.version = .posix ↔
        (Format.detect r = .posix ∨ Format.detect r = .xstar) ∧
          r.read Layout.version = Magic.posixVersion) ∧
      (Format.ofMagic e.magic e.version = .legacy ↔
        Format.detect r = .legacy ∨ (Format.detect r = .posix ∨ Format.detect r = .xstar) ∧
          r.read Layout.version ≠ Magic.posixVersion) := by
  obtain ⟨hgnu, hposix, hversion⟩ := marks_of_ofRecord h
  have hold : Format.ofMagic e.magic e.version = .oldGnu ↔ Format.detect r = .oldGnu := by
    rw [Format.ofMagic_eq_oldGnu_iff, Format.detect_eq_oldGnu_iff, hgnu]
  have hnew : Format.ofMagic e.magic e.version = .posix ↔
      (Format.detect r = .posix ∨ Format.detect r = .xstar) ∧
        r.read Layout.version = Magic.posixVersion := by
    rw [Format.ofMagic_eq_posix_iff, Format.detect_eq_posix_or_xstar_iff, hposix, hversion]
  refine ⟨hold, hnew, ?_⟩
  -- What is written neither as old GNU nor as POSIX is written as an old header.
  have hrest : Format.ofMagic e.magic e.version = .legacy ↔
      ¬ Format.ofMagic e.magic e.version = .oldGnu ∧
        ¬ Format.ofMagic e.magic e.version = .posix := by
    have hxstar : Format.ofMagic e.magic e.version ≠ .xstar := Format.ofMagic_ne_xstar
    cases hf : Format.ofMagic e.magic e.version <;> simp_all
  rw [hrest, hold, hnew]
  cases Format.detect r <;> simp

/-- A record without any content that has the marks of POSIX. -/
def posixBlank : Record :=
  (Record.zero.put Layout.magic Magic.posix).put Layout.version Magic.posixVersion

theorem posixBlank_stays_posix : ∃ e, ofRecord .utf8 posixBlank = .ok e ∧
    Format.ofMagic e.magic e.version = .posix := by
  obtain ⟨e, he⟩ : ∃ e, ofRecord .utf8 posixBlank = .ok e :=
    fault?_eq_none_iff.mp (by decide +kernel)
  exact ⟨e, he, (ofMagic_eq_iff_of_ofRecord he).2.1.mpr (by decide +kernel)⟩

/-- Without its version a header of POSIX is read as one and written as an old header. -/
theorem unversioned_posix_written_as_legacy :
    Format.detect (Record.zero.put Layout.magic Magic.posix) = .posix ∧
      (ofRecord .utf8 (Record.zero.put Layout.magic Magic.posix)).toOption.map
        (fun e => Format.ofMagic e.magic e.version) = some .legacy := by
  constructor <;> decide +kernel

end Entry

end TarHeader
