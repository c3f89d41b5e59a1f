import TarHeader.Entry.Header
import TarHeader.Entry.Sparse
import TarHeader.Proofs.Edit
import TarHeader.Proofs.Verdict

/- What is left of an entry's past once it has read a header. Without a file an entry reads what a
   new one would, with the same fault or the same description (`read_eq_map`); so two entries agree
   afterwards in all that a header says, whatever became of them before (`read_forgets`). The marks
   that extended headers leave are not among that: reading a header neither sets nor clears them. -/
namespace TarHeader

namespace Entry

variable {files : FileView} {cs : Charset} {r : Record} {e e' d d' : Entry}

/-- The entry with all that the header of `d` says. -/
def describedBy (e d : Entry) : Entry :=
  { e with toAttributes := d.toAttributes, checksumOk := d.checksumOk }

theorem readStrict_eq_map (hfile : e.file = none) :
    e.readStrict files cs r = (readStrict .empty cs r {}).map e.describedBy := by
  have hbound : e.boundDirectory files = none := by
    rw [boundDirectory, hfile, Option.map_none]
  rw [readStrict, hbound, readStrict, boundDirectory, Option.map_none]
  cases Attributes.read cs none r <;> rfl

/-- An entry without a file reads what a new one would. -/
theorem read_eq_map (hfile : e.file = none) :
    e.read files cs r = (ofRecord cs r).map e.describedBy := by
  rw [read, ofRecord, read, ← Charset.orFallback_map]
  congr 1
  funext cs
  exact readStrict_eq_map hfile

theorem read_eq_ok_iff (hfile : e.file = none) :
    e.read files cs r = .ok e' ↔ ∃ d, ofRecord cs r = .ok d ∧ e' = e.describedBy d := by
  rw [read_eq_map hfile]
  cases ofRecord cs r with
  | error fault => exact iff_of_false nofun fun ⟨d, hd, _⟩ => nomatch hd
  | ok d => simp [Except.map, eq_comm]

theorem eq_describedBy_of_ofRecord (h : ofRecord cs r = .ok d) : d = describedBy {} d := by
  obtain ⟨d', hd', hd⟩ := (read_eq_ok_iff rfl).mp h
  cases Except.ok.inj (h.symm.trans hd')
  exact hd

/-- Two entries are alike in all that a header says. Whether they are sparse is said by the header
    only in old GNU, and else by the marks of extended headers. -/
structure SameDescription (files : FileView) (e d : Entry) : Prop where
  attributes : e.toAttributes = d.toAttributes
  checksumOk : e.checksumOk = d.checksumOk
  isDirectory : e.isDirectory files = d.isDirectory files
  isFile : e.isFile files = d.isFile files
  isOldGnuSparse : e.isOldGnuSparse = d.isOldGnuSparse
  isGnuSparse : e.isPaxSparse = d.isPaxSparse → e.isGnuSparse = d.isGnuSparse
  isSparse : e.isPaxSparse = d.isPaxSparse → e.isStarSparse = d.isStarSparse →
    e.isSparse = d.isSparse

theorem sameDescription_of_attributes (hfile : e.file = d.file)
    (hattributes : e.toAttributes = d.toAttributes) (hsum : e.checksumOk = d.checksumOk) :
    SameDescription files e d := by
  have hold : e.isOldGnuSparse = d.isOldGnuSparse := by
    rw [isOldGnuSparse, isOldGnuSparse, hattributes]
  have hgnu : e.isPaxSparse = d.isPaxSparse → e.isGnuSparse = d.isGnuSparse := by
    intro hpax
    rw [isGnuSparse, isGnuSparse, hold, hpax]
  refine ⟨hattributes, hsum, ?_, ?_, hold, hgnu, ?_⟩
  · rw [isDirectory, isDirectory, boundDirectory, boundDirectory, hfile, hattributes]
  · rw [isFile, isFile, hfile, hattributes]
  · intro hpax hstar
    rw [isSparse, isSparse, hgnu hpax, hstar]

theorem sameDescription_describedBy (hfile : e.file = e'.file) :
    SameDescription files (e.describedBy d) (e'.describedBy d) :=
  sameDescription_of_attributes hfile rfl rfl

/-- Reading a header leaves nothing of an entry's past but the marks of extended headers: any two
    entries without files read it or refuse it alike, and as a new entry does, and are then
    alike in all that it says. -/
theorem read_forgets (files : FileView) (cs : Charset) (r : Record) {e₁ e₂ : Entry}
    (h₁ : e₁.file = none) (h₂ : e₂.file = none) :
    fault? (e₁.read files cs r) = fault? (e₂.read files cs r) ∧
      fault? (e₁.read files cs r) = fault? (ofRecord cs r) ∧
      ∀ e₁' e₂' d, e₁.read files cs r = .ok e₁' → e₂.read files cs r = .ok e₂' →
        ofRecord cs r = .ok d →
          SameDescription files e₁' e₂' ∧ SameDescription files e₁' d ∧
            (e₁'.isPaxSparse = e₁.isPaxSparse ∧ e₁'.isStarSparse = e₁.isStarSparse) ∧
              d.isPaxSparse = false ∧ d.isStarSparse = false := by
  refine ⟨?_, ?_, ?_⟩
  · rw [read_eq_map h₁, read_eq_map h₂, fault?_map, fault?_map]
  · rw [read_eq_map h₁, fault?_map]
  · intro e₁' e₂' d hr₁ hr₂ hd
    obtain ⟨d₁, hd₁, rfl⟩ := (read_eq_ok_iff h₁).mp hr₁
    obtain ⟨d₂, hd₂, rfl⟩ := (read_eq_ok_iff h₂).mp hr₂
    cases Except.ok.inj (hd.symm.trans hd₁)
    cases Except.ok.inj (hd.symm.trans hd₂)
    have hnew := eq_describedBy_of_ofRecord hd
    refine ⟨sameDescription_describedBy (h₁.trans h₂.symm), ?_, ⟨rfl, rfl⟩, ?_⟩
    · rw [hnew]
      exact sameDescription_describedBy h₁
    · rw [hnew]
      exact ⟨rfl, rfl⟩

/-- An entry that an extended header of star has marked. -/
def starMarked : Entry :=
  Edit.after (mergeSparse .star []) (ofName (.ofSeconds 0) ['a'] false .unix)

theorem starMarked_described_anew :
    ∃ e' d, starMarked.read .empty .utf8 Record.zero = .ok e' ∧
      ofRecord .utf8 Record.zero = .ok d ∧ SameDescription .empty e' d := by
  obtain ⟨e', he'⟩ : ∃ e', starMarked.read .empty .utf8 Record.zero = .ok e' :=
    fault?_eq_none_iff.mp (by decide +kernel)
  obtain ⟨d, hd⟩ : ∃ d, ofRecord .utf8 Record.zero = .ok d :=
    fault?_eq_none_iff.mp (by decide +kernel)
  have hmarked : starMarked.file = none := rfl
  have hnew : ({} : Entry).file = none := rfl
  obtain ⟨-, -, hsame⟩ := read_forgets .empty .utf8 Record.zero hmarked hnew
  exact ⟨e', d, he', hd, (hsame e' d d he' hd hd).2.1⟩

/-- The mark outlives a header that says nothing of it. -/
theorem starMarked_stays_sparse : starMarked.file = none ∧
    (starMarked.read .empty .utf8 Record.zero).toOption.map
      (fun e => (e.isStarSparse, e.isSparse)) = some (true, true) ∧
    (ofRecord .utf8 Record.zero).toOption.map
      (fun d => (d.isStarSparse, d.isSparse)) = some (false, false) := by
  refine ⟨rfl, ?_, ?_⟩ <;> decide +kernel

end Entry

end TarHeader
