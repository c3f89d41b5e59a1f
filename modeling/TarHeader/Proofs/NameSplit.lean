import TarHeader.NameSplit
import TarHeader.Proofs.TextField
import TarHeader.Proofs.Verdict

/- Where names are split. In a charset that encodes every part of the name the search cannot fail
   (`find_eq_ok`). It finds a split just where the name is too long for its field and has one, and of
   all splits whose parts fit their fields the one at the leftmost slash (`find_eq_some_iff`,
   `find_eq_none_iff`). In any charset the search fails only where the charset does
   (`verdict_find`). -/
namespace TarHeader.NameSplit

variable {cs : Charset}

/-- Both parts of a split have room in their fields. -/
def BothFit (cs : Charset) (split : Text × Text) : Prop :=
  cs.EncodesWithin Layout.Posix.namePrefix.width split.1 ∧
    cs.EncodesWithin Layout.name.width split.2

instance (cs : Charset) (split : Text × Text) : Decidable (BothFit cs split) := by
  unfold BothFit; infer_instance

theorem mem_candidates {name before after : Text} :
    (before, after) ∈ candidates name ↔
      name = before ++ '/' :: after ∧ before ≠ [] ∧ after ≠ [] := by
  simp [candidates, mem_atSlashes]

/-- Both parts of a split are parts of the name. -/
theorem infix_of_mem_candidates {name : Text} {split : Text × Text}
    (h : split ∈ candidates name) : split.1 <:+: name ∧ split.2 <:+: name := by
  obtain ⟨before, after⟩ := split
  obtain ⟨rfl, -, -⟩ := mem_candidates.mp h
  refine ⟨(List.prefix_append before _).isInfix, List.IsSuffix.isInfix ?_⟩
  exact (List.suffix_cons '/' after).trans (List.suffix_append before _)

theorem fits_eq_ok {t : Text} (f : Field) (ht : cs.Encodable t) :
    fits cs f t = .ok (decide (cs.EncodesWithin f.width t)) := by
  obtain ⟨bs, hbs⟩ := ht
  rw [fits, hbs, decide_eq_decide.mpr (Charset.encodesWithin_iff hbs)]
  rfl

theorem bothFit_eq_ok {split : Text × Text} (hbefore : cs.Encodable split.1)
    (hafter : cs.Encodable split.2) : bothFit cs split = .ok (decide (BothFit cs split)) := by
  rw [bothFit, fits_eq_ok _ hbefore, fits_eq_ok _ hafter]
  by_cases h : cs.EncodesWithin Layout.Posix.namePrefix.width split.1 <;>
    simp [BothFit, h, bind, Except.bind, pure, Except.pure]

/-- Looking for the first element that passes a test, where no test fails. -/
theorem findM?_eq_ok {α : Type} {l : List α} {p : α → Except Fault Bool} {q : α → Bool}
    (h : ∀ x ∈ l, p x = .ok (q x)) : l.findM? p = .ok (l.find? q) := by
  induction l with
  | nil => rfl
  | cons x l ih =>
    have ih := ih fun y hy => h y (List.mem_cons_of_mem x hy)
    rw [List.findM?, List.find?_cons, h x List.mem_cons_self]
    cases q x
    · exact ih
    · rfl

/-- A name that fits its field is not split. -/
theorem find_eq_none {name : Text} (h : cs.EncodesWithin Layout.name.width name) :
    find cs name = .ok none := by
  rw [find, fits_eq_ok _ h.encodable, decide_eq_true h]
  rfl

/-- The search, in a charset that has octets for every part of the name. -/
theorem find_eq_ok {name : Text} (hname : cs.EncodesParts name) :
    find cs name = .ok (if cs.EncodesWithin Layout.name.width name then none
      else (candidates name).find? fun split => decide (BothFit cs split)) := by
  have hparts : ∀ split ∈ candidates name,
      bothFit cs split = .ok (decide (BothFit cs split)) := by
    intro split hsplit
    obtain ⟨hbefore, hafter⟩ := infix_of_mem_candidates hsplit
    exact bothFit_eq_ok (hname _ hbefore) (hname _ hafter)
  by_cases h : cs.EncodesWithin Layout.name.width name
  · rw [if_pos h, find_eq_none h]
  · rw [find, fits_eq_ok _ hname.encodable, if_neg h, decide_eq_false h, ← findM?_eq_ok hparts]
    rfl

/-! The leftmost split -/

/-- A way to split a name: at a slash with something in front of it and behind it, so that both
    parts fit their fields. -/
structure Splits (cs : Charset) (name before after : Text) : Prop where
  join : name = before ++ '/' :: after
  before_ne_nil : before ≠ []
  after_ne_nil : after ≠ []
  bothFit : BothFit cs (before, after)

/-- The way to split a name at the leftmost slash that allows it. -/
structure SplitsFirst (cs : Charset) (name before after : Text) : Prop
    extends Splits cs name before after where
  first : ∀ before' after', Splits cs name before' after' → before.length ≤ before'.length

variable {name before after : Text}

theorem splits_iff : Splits cs name before after ↔
    (before, after) ∈ candidates name ∧ BothFit cs (before, after) := by
  rw [mem_candidates]
  exact ⟨fun h => ⟨⟨h.join, h.before_ne_nil, h.after_ne_nil⟩, h.bothFit⟩,
    fun ⟨⟨hjoin, hbefore, hafter⟩, hfit⟩ => ⟨hjoin, hbefore, hafter, hfit⟩⟩

/-- Slashes are listed from the left. -/
theorem ascending_atSlashes (t : Text) :
    (atSlashes t).Pairwise fun x y => x.1.length < y.1.length := by
  induction t with
  | nil => exact .nil
  | cons c t ih =>
    have hlater : (atSlashes t).Pairwise fun x y => x.1.length + 1 < y.1.length + 1 :=
      ih.imp Nat.succ_lt_succ
    by_cases hc : c = '/'
    · simp only [atSlashes, if_pos hc]
      refine List.pairwise_cons.mpr ⟨?_, List.pairwise_map.mpr hlater⟩
      intro x hx
      obtain ⟨split, -, rfl⟩ := List.mem_map.mp hx
      exact Nat.succ_pos split.1.length
    · simp only [atSlashes, if_neg hc]
      exact List.pairwise_map.mpr hlater

theorem ascending_candidates (name : Text) :
    (candidates name).Pairwise fun x y => x.1.length < y.1.length :=
  (ascending_atSlashes name).filter _

/-- In an ascending list the first element that passes a test is the least one. -/
theorem find?_eq_some_iff_of_ascending {α : Type} {l : List α} {size : α → Nat}
    (h : l.Pairwise fun x y => size x < size y) {p : α → Bool} {x : α} :
    l.find? p = some x ↔ x ∈ l ∧ p x = true ∧ ∀ y ∈ l, p y = true → size x ≤ size y := by
  induction l with
  | nil => exact ⟨nofun, fun hx => nomatch hx.1⟩
  | cons y l ih =>
    obtain ⟨hy, hl⟩ := List.pairwise_cons.mp h
    -- A hit in front is the least, since all that follow it are greater.
    by_cases hp : p y = true
    · rw [List.find?_cons_of_pos hp, Option.some.injEq]
      constructor
      · intro hxy
        subst hxy
        refine ⟨List.mem_cons_self, hp, ?_⟩
        intro z hz _
        rcases List.mem_cons.mp hz with rfl | hz
        · exact Nat.le_refl _
        · exact Nat.le_of_lt (hy z hz)
      · intro h
        obtain ⟨hx, -, hleast⟩ := h
        rcases List.mem_cons.mp hx with rfl | hx
        · rfl
        · exact absurd (hleast y List.mem_cons_self hp) (Nat.not_le.mpr (hy x hx))
    · rw [List.find?_cons_of_neg hp, ih hl]
      constructor
      · intro h
        obtain ⟨hx, hpx, hleast⟩ := h
        refine ⟨List.mem_cons_of_mem y hx, hpx, ?_⟩
        intro z hz hpz
        rcases List.mem_cons.mp hz with rfl | hz
        · exact absurd hpz hp
        · exact hleast z hz hpz
      · intro h
        obtain ⟨hx, hpx, hleast⟩ := h
        rcases List.mem_cons.mp hx with rfl | hx
        · exact absurd hpx hp
        · exact ⟨hx, hpx, fun z hz => hleast z (List.mem_cons_of_mem y hz)⟩

/-- The search finds the leftmost split of a name that is too long for its field. -/
theorem find_eq_some_iff (hname : cs.EncodesParts name) :
    find cs name = .ok (some (before, after)) ↔
      ¬ cs.EncodesWithin Layout.name.width name ∧ SplitsFirst cs name before after := by
  rw [find_eq_ok hname, Except.ok.injEq]
  by_cases hl : cs.EncodesWithin Layout.name.width name
  · rw [if_pos hl]
    exact iff_of_false nofun fun h => h.1 hl
  rw [if_neg hl, find?_eq_some_iff_of_ascending (ascending_candidates name), and_iff_right hl]
  constructor
  · intro h
    obtain ⟨hmem, hfit, hleast⟩ := h
    refine ⟨splits_iff.mpr ⟨hmem, of_decide_eq_true hfit⟩, ?_⟩
    intro before' after' hsplits
    obtain ⟨hmem', hfit'⟩ := splits_iff.mp hsplits
    exact hleast _ hmem' (decide_eq_true hfit')
  · intro hfirst
    obtain ⟨hmem, hfit⟩ := splits_iff.mp hfirst.toSplits
    refine ⟨hmem, decide_eq_true hfit, ?_⟩
    intro split hsplit hfit'
    exact hfirst.first _ _ (splits_iff.mpr ⟨hsplit, of_decide_eq_true hfit'⟩)

/-- The search finds nothing where the name fits its field and where there is no way to split it. -/
theorem find_eq_none_iff (hname : cs.EncodesParts name) :
    find cs name = .ok none ↔ cs.EncodesWithin Layout.name.width name ∨
      ∀ before after, ¬ Splits cs name before after := by
  rw [find_eq_ok hname, Except.ok.injEq]
  by_cases hl : cs.EncodesWithin Layout.name.width name
  · rw [if_pos hl]
    exact iff_of_true rfl (.inl hl)
  rw [if_neg hl, List.find?_eq_none, or_iff_right hl]
  constructor
  · intro hnone before after hsplits
    obtain ⟨hmem, hfit⟩ := splits_iff.mp hsplits
    exact hnone _ hmem (decide_eq_true hfit)
  · intro hnone split hsplit hfit
    exact hnone _ _ (splits_iff.mpr ⟨hsplit, of_decide_eq_true hfit⟩)

/-- A name is split into parts of it. -/
theorem mem_candidates_of_find {name : Text} {split : Text × Text}
    (h : find cs name = .ok (some split)) : split ∈ candidates name := by
  unfold find at h
  obtain ⟨fitsWhole, -, h⟩ := Fault.bind_eq_ok.mp h
  cases fitsWhole with
  | true =>
    rw [if_pos rfl] at h
    cases h
  | false =>
    rw [if_neg Bool.false_ne_true] at h
    -- From here on the search goes by its list, not by the name that the list came from.
    generalize candidates name = splits at h ⊢
    induction splits with
    | nil => cases h
    | cons first later ih =>
      rw [List.findM?] at h
      obtain ⟨fitsHere, -, h⟩ := Fault.bind_eq_ok.mp h
      cases fitsHere
      · exact List.mem_cons_of_mem first (ih h)
      · cases h
        exact List.mem_cons_self

theorem infix_of_find {name before after : Text} (h : find cs name = .ok (some (before, after))) :
    before <:+: name ∧ after <:+: name := infix_of_mem_candidates (mem_candidates_of_find h)

/-! Faults of the search -/

variable {stray : Fault → Prop}

theorem verdict_fits {t : Text} (f : Field) (ht : cs.StraysOn stray t) :
    Verdict stray none (fits cs f t) :=
  Verdict.skip (ht t List.infix_rfl) fun _ _ => Verdict.pure' _

theorem verdict_bothFit {split : Text × Text} (hbefore : cs.StraysOn stray split.1)
    (hafter : cs.StraysOn stray split.2) : Verdict stray none (bothFit cs split) := by
  apply Verdict.bind (verdict_fits _ hbefore)
  intro fitsBefore _
  cases fitsBefore
  · exact Verdict.pure' _
  · exact verdict_fits _ hafter

theorem verdict_find {name : Text} (hname : cs.StraysOn stray name) :
    Verdict stray none (find cs name) := by
  have hparts : ∀ split ∈ candidates name, Verdict stray none (bothFit cs split) := by
    intro split hsplit
    obtain ⟨hbefore, hafter⟩ := infix_of_mem_candidates hsplit
    exact verdict_bothFit (hname.part hbefore) (hname.part hafter)
  apply Verdict.bind (verdict_fits _ hname)
  intro fitsWhole _
  cases fitsWhole with
  | true => exact Verdict.pure' _
  | false =>
    simp only [Bool.false_eq_true, if_false]
    generalize candidates name = splits at hparts
    induction splits with
    | nil => exact Verdict.pure' _
    | cons split later ih =>
      apply Verdict.bind (hparts split List.mem_cons_self)
      intro fitsHere _
      cases fitsHere
      · exact ih fun split hsplit => hparts split (List.mem_cons_of_mem _ hsplit)
      · exact Verdict.pure' _

end TarHeader.NameSplit
