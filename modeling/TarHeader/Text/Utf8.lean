import TarHeader.Bytes

/- UTF-8. A character has one encoding (`encodeChar`). Reading is a machine that takes one octet
   at a time (`feed`): between characters, or inside one, where it knows the bits so far, how
   many octets are owed and the range of the next one. An octet outside that range ends the
   character as malformed and is read again as a first octet, so a malformed part is as long as
   it could still have become a character. `scan` lists the characters of a row of octets with
   `none` for each malformed part; strict reading (`decode`) refuses those and lossy reading
   (`decodeLossy`) shows them as U+FFFD. What was encoded reads back (`decode_encode`). -/
namespace TarHeader.Utf8

def encodeChar (c : Char) : Bytes :=
  let n := c.toNat
  if n < 0x80 then [.ofNat n]
  else if n < 0x800 then [.ofNat (0xC0 + n / 0x40), .ofNat (0x80 + n % 0x40)]
  else if n < 0x10000 then
    [.ofNat (0xE0 + n / 0x1000), .ofNat (0x80 + n / 0x40 % 0x40), .ofNat (0x80 + n % 0x40)]
  else
    [.ofNat (0xF0 + n / 0x40000), .ofNat (0x80 + n / 0x1000 % 0x40),
      .ofNat (0x80 + n / 0x40 % 0x40), .ofNat (0x80 + n % 0x40)]

def encode (t : Text) : Bytes := t.flatMap encodeChar

/-- Where a reader stands between octets. -/
inductive State where
  | between
  /-- Inside a character: its bits so far, the octets owed after the next one, and the least and
      the greatest that the next one may be. -/
  | inside (bits owed low high : Nat)
  deriving DecidableEq

/-- The first octet of a character. The range of the second one leaves out encodings longer than
    needed, surrogates, and what lies above the last code point. -/
def first (b : Nat) : List (Option Char) × State :=
  if b < 0x80 then ([some (.ofNat b)], .between)
  else if b < 0xC2 then ([none], .between)
  else if b < 0xE0 then ([], .inside (b - 0xC0) 0 0x80 0xBF)
  else if b < 0xF0 then
    ([], .inside (b - 0xE0) 1 (if b = 0xE0 then 0xA0 else 0x80) (if b = 0xED then 0x9F else 0xBF))
  else if b < 0xF5 then
    ([], .inside (b - 0xF0) 2 (if b = 0xF0 then 0x90 else 0x80) (if b = 0xF4 then 0x8F else 0xBF))
  else ([none], .between)

/-- One octet: what it completes, and where the reader stands after it. -/
def feed : State → Nat → List (Option Char) × State
  | .between, b => first b
  | .inside bits owed low high, b =>
    if low ≤ b ∧ b ≤ high then
      let bits := bits * 0x40 + (b - 0x80)
      match owed with
      | 0 => ([some (.ofNat bits)], .between)
      | owed + 1 => ([], .inside bits owed 0x80 0xBF)
    else
      let (done, after) := first b
      (none :: done, after)

/-- What the octets complete from a state on. Ending inside a character is malformed. -/
def scanFrom : State → Bytes → List (Option Char)
  | .between, [] => []
  | .inside .., [] => [none]
  | s, b :: rest =>
    let (done, after) := feed s b.toNat
    done ++ scanFrom after rest

def scan (bs : Bytes) : List (Option Char) := scanFrom .between bs

def decode (bs : Bytes) : Option Text := (scan bs).mapM id

def decodeLossy (bs : Bytes) : Text := (scan bs).map (·.getD '\uFFFD')

theorem scanFrom_cons (s : State) (b : UInt8) (rest : Bytes) :
    scanFrom s (b :: rest) = (feed s b.toNat).1 ++ scanFrom (feed s b.toNat).2 rest := by
  cases s <;> rfl

/-- A character is no surrogate and not above the last code point. -/
theorem toNat_bounds (c : Char) :
    c.toNat < 0xD800 ∨ 0xDFFF < c.toNat ∧ c.toNat < 0x110000 := c.valid

theorem feed_between (b : Nat) : feed .between b = first b := rfl

theorem feed_last {bits b low high : Nat} (h : low ≤ b ∧ b ≤ high) :
    feed (.inside bits 0 low high) b = ([some (.ofNat (bits * 0x40 + (b - 0x80)))], .between) := by
  simp [feed, h]

theorem feed_middle {bits owed b low high : Nat} (h : low ≤ b ∧ b ≤ high) :
    feed (.inside bits (owed + 1) low high) b =
      ([], .inside (bits * 0x40 + (b - 0x80)) owed 0x80 0xBF) := by
  simp [feed, h]

theorem scanFrom_encodeChar (c : Char) (rest : Bytes) :
    scanFrom .between (encodeChar c ++ rest) = some c :: scanFrom .between rest := by
  have hc := toNat_bounds c
  have hof : Char.ofNat c.toNat = c := Char.ofNat_toNat c
  generalize hn : c.toNat = n at hc hof
  have hb : ∀ m, m < 256 → (UInt8.ofNat m).toNat = m := fun m h => UInt8.toNat_ofNat_of_lt' h
  unfold encodeChar
  simp only [hn]
  -- One case for each length. No octet is outside the range that the reader is in when it comes.
  split
  · rw [List.cons_append, List.nil_append, scanFrom_cons, hb _ (by omega), feed_between, first,
      if_pos (by omega), hof]
    rfl
  split
  · simp only [List.cons_append, List.nil_append, scanFrom_cons]
    rw [hb _ (by omega), hb _ (by omega), feed_between, first, if_neg (by omega), if_neg (by omega),
      if_pos (by omega), feed_last (by omega)]
    rw [show (0xC0 + n / 0x40 - 0xC0) * 0x40 + (0x80 + n % 0x40 - 0x80) = n by omega, hof]
    rfl
  split
  · simp only [List.cons_append, List.nil_append, scanFrom_cons]
    rw [hb _ (by omega), hb _ (by omega), hb _ (by omega), feed_between, first, if_neg (by omega),
      if_neg (by omega), if_neg (by omega), if_pos (by omega),
      feed_middle (by split <;> split <;> omega), feed_last (by omega)]
    rw [show ((0xE0 + n / 0x1000 - 0xE0) * 0x40 + (0x80 + n / 0x40 % 0x40 - 0x80)) * 0x40 +
      (0x80 + n % 0x40 - 0x80) = n by omega, hof]
    rfl
  · simp only [List.cons_append, List.nil_append, scanFrom_cons]
    rw [hb _ (by omega), hb _ (by omega), hb _ (by omega), hb _ (by omega), feed_between, first,
      if_neg (by omega), if_neg (by omega), if_neg (by omega), if_neg (by omega), if_pos (by omega),
      feed_middle (by split <;> split <;> omega), feed_middle (by omega), feed_last (by omega)]
    rw [show (((0xF0 + n / 0x40000 - 0xF0) * 0x40 + (0x80 + n / 0x1000 % 0x40 - 0x80)) * 0x40 +
      (0x80 + n / 0x40 % 0x40 - 0x80)) * 0x40 + (0x80 + n % 0x40 - 0x80) = n by omega, hof]
    rfl

/-- What was encoded is read back, and nothing in it is malformed. -/
theorem scan_encode (t : Text) : scan (encode t) = t.map some := by
  induction t with
  | nil => rfl
  | cons c t ih =>
    rw [scan] at ih ⊢
    rw [encode, List.flatMap_cons, scanFrom_encodeChar, List.map_cons, ← ih]
    rfl

theorem decode_encode (t : Text) : decode (encode t) = some t := by
  rw [decode, scan_encode]
  induction t with
  | nil => rfl
  | cons c t ih => simp [ih]

end TarHeader.Utf8
