import TarHeader.Format

/- The two ways to tell a format, each by what it looks at. The octets of the magic tell old GNU
   from POSIX, and POSIX from xstar only with the magic at the end; the texts of magic and version
   tell POSIX by both and old GNU by the first. -/
namespace TarHeader.Format

variable {r : Record}

theorem detect_eq_oldGnu_iff : detect r = .oldGnu ↔ r.read Layout.magic = Magic.oldGnu := by
  unfold detect
  split
  · next h => simp [h]
  · next h => split <;> (try split) <;> simp [h]

theorem detect_eq_posix_or_xstar_iff :
    detect r = .posix ∨ detect r = .xstar ↔ r.read Layout.magic = Magic.posix := by
  have hne : Magic.posix ≠ Magic.oldGnu := by decide
  unfold detect
  by_cases hposix : r.read Layout.magic = Magic.posix
  · rw [if_neg (hposix ▸ hne), if_pos hposix]
    split <;> simp [hposix]
  · rw [if_neg hposix]
    split <;> simp [hposix]

variable {magic version : Text}

theorem ofMagic_eq_oldGnu_iff : ofMagic magic version = .oldGnu ↔ magic = Magic.oldGnuText := by
  unfold ofMagic
  split
  · next h => simp [h]
  · next h => split <;> simp [h]

theorem ofMagic_eq_posix_iff : ofMagic magic version = .posix ↔
    magic = Magic.posixText ∧ version = Magic.posixVersionText := by
  have hne : Magic.posixText ≠ Magic.oldGnuText := by decide
  unfold ofMagic
  by_cases hposix : magic = Magic.posixText ∧ version = Magic.posixVersionText
  · rw [if_neg (hposix.1 ▸ hne), if_pos hposix]
    exact iff_of_true rfl hposix
  · rw [if_neg hposix]
    split <;> simp [hposix]

theorem ofMagic_ne_xstar : ofMagic magic version ≠ .xstar := by
  unfold ofMagic
  split
  · nofun
  · split <;> nofun

end TarHeader.Format
