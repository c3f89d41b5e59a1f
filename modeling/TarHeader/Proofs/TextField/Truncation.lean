import TarHeader.Buffer
import TarHeader.Proofs.Edit
import TarHeader.Proofs.TextField

/- Text that is cut for its field. The search for the longest beginning that fits asks the charset for
   the octets of one beginning after the other. Run with a log of what it asks for, it ends as it does
   without one, and after the text itself the log holds at most as many beginnings as the text has
   characters (`searchFitting_logged`). So the search ends, and what it leaves in a buffer of any
   width, over any octets, is the longest beginning that fits, NUL after it, and nothing else
   (`putText_longest`). -/
namespace TarHeader

namespace TextField

variable {cs : Charset} {w n : Nat} {t : Text}

/-! The requests of the search -/

/-- The search for the longest text that fits, over any way to ask for the octets of a text. -/
def searchFitting {m : Type → Type} [Monad m] [MonadExcept Fault m] (ask : Text → m Bytes)
    (charset : String) (w : Nat) (t : Text) : Nat → m Bytes
  | 0 => do
    let bs ← ask []
    if bs.length ≤ w then pure bs else throw (.noRoom charset w)
  | n + 1 => do
    let bs ← ask (t.take (n + 1))
    if bs.length ≤ w then pure bs else searchFitting ask charset w t n

theorem searchFitting_encode (cs : Charset) (w : Nat) (t : Text) (n : Nat) :
    searchFitting cs.encode cs.name w t n = encodeFitting cs w t n := by
  induction n with
  | zero => rfl
  | succ n ih => rw [searchFitting, encodeFitting, ih]

/-- Asks a charset and notes the text at the end of a log. -/
def logged (cs : Charset) (t : Text) : Edit (List Text) Bytes := do
  modify (· ++ [t])
  cs.encode t

/-- A request that is noted: its octets are taken if they fit, or else the next one follows. -/
theorem run_logged (cs : Charset) (t : Text) (w : Nat) (next : Edit (List Text) Bytes)
    (log : List Text) :
    (do let bs ← logged cs t; if bs.length ≤ w then pure bs else next : Edit _ _) log =
      match cs.encode t with
      | .error fault => .error fault (log ++ [t])
      | .ok bs => if bs.length ≤ w then .ok bs (log ++ [t]) else next (log ++ [t]) := by
  show (liftM (cs.encode t) >>= fun bs => if bs.length ≤ w then pure bs else next :
    Edit (List Text) Bytes) (log ++ [t]) = _
  cases cs.encode t with
  | error fault => rfl
  | ok bs =>
    show (if bs.length ≤ w then pure bs else next : Edit (List Text) Bytes) (log ++ [t]) =
      if bs.length ≤ w then .ok bs (log ++ [t]) else next (log ++ [t])
    split <;> rfl

/-- A log of the requests changes nothing else, and is no longer than the text, which comes first. -/
theorem searchFitting_logged (cs : Charset) (w : Nat) (t : Text) (n : Nat) (log : List Text) :
    ∃ later : List Text, later.length ≤ n ∧
      searchFitting (logged cs) cs.name w t n log =
        (liftM (encodeFitting cs w t n) : Edit (List Text) Bytes) (log ++ t.take n :: later) := by
  induction n generalizing log with
  | zero =>
    refine ⟨[], Nat.le_refl 0, ?_⟩
    rw [searchFitting, run_logged, encodeFitting, List.take_zero]
    cases cs.encode [] with
    | error fault => rfl
    | ok bs =>
      simp only [bind, Except.bind]
      split <;> rfl
  | succ n ih =>
    obtain ⟨later, hlater, hrest⟩ := ih (log ++ [t.take (n + 1)])
    rw [searchFitting, run_logged, encodeFitting]
    cases cs.encode (t.take (n + 1)) with
    | error fault => exact ⟨[], Nat.zero_le _, rfl⟩
    | ok bs =>
      simp only [bind, Except.bind]
      split
      · exact ⟨[], Nat.zero_le _, rfl⟩
      · -- The text did not fit; the next shorter one is asked for and noted after it.
        refine ⟨t.take n :: later, Nat.succ_le_succ hlater, ?_⟩
        rw [hrest, List.append_assoc, List.singleton_append]

end TextField

namespace Buffer

open TextField (CutAt)

variable {cs : Charset} {t : Text} {bs buf : Bytes}

/-- An encoding is put into a buffer whole, with NUL behind it. -/
theorem putText_of_encode (h : TextField.encode cs buf.length t = .ok bs) :
    putText cs t buf = .ok bs.length (bs ++ List.replicate (buf.length - bs.length) 0) := by
  show (liftM (TextField.encode cs buf.length t) >>= fun bs => do
    set (fit buf.length bs); return bs.length : Edit Bytes Nat) buf = _
  rw [h, ← fit_of_length_le (TextField.length_le_of_encode h)]
  rfl

/-- A text is cut to the longest beginning that the buffer has room for. The search for it asks for the
    text and then for at most as many others as the text has characters; NUL takes the place of all
    that stood in the buffer, and what is left of the text reads back. -/
theorem putText_longest (hcs : cs.Truncatable) (ht : NulFree t) (henc : cs.Encodable t)
    (buf : Bytes) :
    ∃ n bs later, CutAt cs buf.length t n ∧ (cs.EncodesWithin buf.length t → t.take n = t) ∧
      cs.encode (t.take n) = .ok bs ∧ bs.length ≤ buf.length ∧
      TextField.searchFitting cs.encode cs.name buf.length t t.length =
        TextField.encode cs buf.length t ∧
      TextField.searchFitting (TextField.logged cs) cs.name buf.length t t.length [] =
        .ok bs (t :: later) ∧
      later.length ≤ t.length ∧
      putText cs t buf = .ok bs.length (bs ++ List.replicate (buf.length - bs.length) 0) ∧
      TextField.decode cs (bs ++ List.replicate (buf.length - bs.length) 0) = .ok (t.take n) := by
  obtain ⟨n, hcut, hencode⟩ := TextField.exists_cutAt (w := buf.length) hcs.encode_nil
    fun s hs => hcs.encodable_of_prefix hs henc
  obtain ⟨bs, hbs, hl⟩ := hcut.fits
  obtain ⟨later, hlater, hlogged⟩ :=
    TextField.searchFitting_logged cs buf.length t t.length []
  rw [hbs] at hencode
  have hdecode := TextField.decode_fit hcs (fun c hc => ht c (List.mem_of_mem_take hc)) hbs hl
  rw [fit_of_length_le hl] at hdecode
  rw [← TextField.encode, hencode, List.take_length, List.nil_append] at hlogged
  exact ⟨n, bs, later, hcut, hcut.take_eq, hbs, hl, TextField.searchFitting_encode _ _ _ _, hlogged,
    hlater, putText_of_encode hencode, hdecode⟩

/-- The second of two umlauts is left out of a field of four octets. -/
theorem putText_umlauts :
    putText .utf8 ['a', 'ä', 'ä'] [0xAA, 0xAA, 0xAA, 0xAA] = .ok 3 [0x61, 0xC3, 0xA4, 0x00] ∧
      TextField.decode .utf8 [0x61, 0xC3, 0xA4, 0x00] = .ok ['a', 'ä'] := by
  have hnul : NulFree ['a', 'ä', 'ä'] := by decide
  obtain ⟨n, bs, later, hcut, -, hbs, -, -, -, -, hput, hdecode⟩ :=
    putText_longest Charset.utf8_faithful.truncatable hnul ⟨_, rfl⟩ [0xAA, 0xAA, 0xAA, 0xAA]
  have hn : n = 2 := TextField.CutAt.eq_length (t := ['a', 'ä']) hcut (by decide) (by decide)
  rw [hn] at hbs hdecode
  cases hbs
  exact ⟨hput, hdecode⟩

end Buffer

end TarHeader
