import TarHeader.Charset

/- Text in a field of fixed width. Reading decodes what stands before the first NUL. Writing
   encodes the longest text that fits among the whole text and what is left of it when characters
   are dropped from its end one by one; each of them is encoded anew, because a charset with
   shift states has no other way to end properly. The rest of the field is NUL. -/
namespace TarHeader.TextField

def decode (cs : Charset) (bs : Bytes) : Except Fault Text := cs.decode (untilNul bs)

/-- The encoding of the longest text that fits into `w` octets among the first `n`, `n - 1`, … `0`
    characters of `t`. A fault in any of those that are tried is final. -/
def encodeFitting (cs : Charset) (w : Nat) (t : Text) : Nat → Except Fault Bytes
  | 0 => do
    let bs ← cs.encode []
    if bs.length ≤ w then pure bs else throw (.noRoom cs.name w)
  | n + 1 => do
    let bs ← cs.encode (t.take (n + 1))
    if bs.length ≤ w then pure bs else encodeFitting cs w t n

/-- The octets of as much of `t` as a field of `w` octets has room for. -/
def encode (cs : Charset) (w : Nat) (t : Text) : Except Fault Bytes :=
  encodeFitting cs w t t.length

theorem length_le_of_encodeFitting {cs : Charset} {w n : Nat} {t : Text} {bs : Bytes}
    (h : encodeFitting cs w t n = .ok bs) : bs.length ≤ w := by
  induction n with
  | zero =>
    obtain ⟨b, -, h⟩ := Fault.bind_eq_ok.mp h
    split at h
    · next hl => exact Fault.pure_eq_ok.mp h ▸ hl
    · exact absurd h Fault.throw_ne_ok
  | succ n ih =>
    -- A text that is too long gives its place to the next shorter one.
    obtain ⟨b, -, h⟩ := Fault.bind_eq_ok.mp h
    split at h
    · next hl => exact Fault.pure_eq_ok.mp h ▸ hl
    · exact ih h

/-- What is written has room in the field. -/
theorem length_le_of_encode {cs : Charset} {w : Nat} {t : Text} {bs : Bytes}
    (h : encode cs w t = .ok bs) : bs.length ≤ w := length_le_of_encodeFitting h

end TarHeader.TextField
