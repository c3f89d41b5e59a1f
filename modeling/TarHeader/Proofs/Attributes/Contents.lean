import Mathlib.Data.List.Forall2
import TarHeader.Attributes.Write
import TarHeader.Proofs.Numeral.RoundTrip
import TarHeader.Proofs.Record.Fields
import TarHeader.Proofs.TextField
import TarHeader.Proofs.Verdict

/- Encoding a list of field contents. It succeeds when every content has octets, and the octets stand
   in the order of the contents (`encodeAll_eq_ok_iff`). Apart from the faults of charsets the first
   number that has no octets is the one that decides (`verdict_encodeAll`). -/
namespace TarHeader.Content

variable {extended : Bool} {contents : List (Field × Content)} {fields : List (Field × Bytes)}

/-- The field of `y` is that of `x`, and its octets are those of the content of `x`. -/
def Encodes (extended : Bool) (x : Field × Content) (y : Field × Bytes) : Prop :=
  x.1 = y.1 ∧ x.2.encode extended x.1.width = .ok y.2

theorem encodeAll_cons (x : Field × Content) :
    encodeAll extended (x :: contents) = (do
      let bs ← x.2.encode extended x.1.width
      let fields ← encodeAll extended contents
      return (x.1, bs) :: fields) := by
  simp [encodeAll, List.mapM_cons]

theorem encodeAll_eq_ok_iff : encodeAll extended contents = .ok fields ↔
    List.Forall₂ (Encodes extended) contents fields := by
  induction contents generalizing fields with
  | nil =>
    rw [List.forall₂_nil_left_iff]
    exact Fault.pure_eq_ok.trans eq_comm
  | cons x contents ih =>
    rw [encodeAll_cons, List.forall₂_cons_left_iff, Fault.bind_eq_ok]
    constructor
    · rintro ⟨bs, hbs, h⟩
      obtain ⟨later, hlater, h⟩ := Fault.bind_eq_ok.mp h
      exact ⟨(x.1, bs), later, ⟨rfl, hbs⟩, ih.mp hlater, (Fault.pure_eq_ok.mp h).symm⟩
    · rintro ⟨⟨f, bs⟩, later, ⟨rfl, hbs⟩, hlater, rfl⟩
      refine ⟨bs, hbs, Fault.bind_eq_ok.mpr ⟨later, ih.mpr hlater, rfl⟩⟩

/-- Every content is among the octets that were encoded. -/
theorem exists_mem_of_forall₂ (h : List.Forall₂ (Encodes extended) contents fields)
    {f : Field} {content : Content} (hm : (f, content) ∈ contents) :
    ∃ bs, content.encode extended f.width = .ok bs ∧ (f, bs) ∈ fields := by
  induction h with
  | nil => cases hm
  | @cons x y contents fields hxy _ ih =>
    rcases List.mem_cons.mp hm with rfl | hm
    · obtain ⟨rfl, hbs⟩ := hxy
      exact ⟨y.2, hbs, List.mem_cons_self⟩
    · obtain ⟨bs, hbs, hmem⟩ := ih hm
      exact ⟨bs, hbs, List.mem_cons_of_mem y hmem⟩

/-- Encoding keeps the fields and their order. -/
theorem map_fst_of_forall₂ (h : List.Forall₂ (Encodes extended) contents fields) :
    fields.map Prod.fst = contents.map Prod.fst := by
  induction h with
  | nil => rfl
  | cons hxy _ ih => rw [List.map_cons, List.map_cons, ih, hxy.1]

/-- Contents that are the same outside some fields are encoded by octets that are. -/
theorem sameOutside_of_encodes {fs : List Field} {contents' : List (Field × Content)}
    {fields' : List (Field × Bytes)} (h : Field.SameOutside fs contents contents')
    (hf : List.Forall₂ (Encodes extended) contents fields)
    (hf' : List.Forall₂ (Encodes extended) contents' fields') :
    Field.SameOutside fs fields fields' := by
  induction h generalizing fields fields' with
  | nil =>
    cases hf
    cases hf'
    exact .nil
  | cons x _ ih =>
    obtain ⟨y, later, ⟨hy, hbs⟩, hlater, rfl⟩ := List.forall₂_cons_left_iff.mp hf
    obtain ⟨y', later', ⟨hy', hbs'⟩, hlater', rfl⟩ := List.forall₂_cons_left_iff.mp hf'
    have hsame : y = y' :=
      Prod.ext (hy.symm.trans hy') (Except.ok.inj (hbs.symm.trans hbs'))
    rw [hsame]
    exact .cons y' (ih hlater hlater')
  | left hx _ ih =>
    obtain ⟨y, later, ⟨hy, -⟩, hlater, rfl⟩ := List.forall₂_cons_left_iff.mp hf
    exact .left (hy ▸ hx) (ih hlater hf')
  | right hx _ ih =>
    obtain ⟨y, later, ⟨hy, -⟩, hlater, rfl⟩ := List.forall₂_cons_left_iff.mp hf'
    exact .right (hy ▸ hx) (ih hf hlater)

/-! Faults -/

/-- The fault of a number that has no octets for its field. -/
def numberFault (extended : Bool) (x : Field × Content) : Option Fault :=
  match x.2 with
  | .number v => fault? (Numeral.write extended x.1.width v)
  | .text .. | .octet _ => none

theorem numberFault_text (f : Field) (cs : Charset) (t : Text) :
    numberFault extended (f, .text cs t) = none := rfl

theorem numberFault_octet (f : Field) (b : UInt8) :
    numberFault extended (f, .octet b) = none := rfl

variable {stray : Fault → Prop}

theorem verdict_encodeAll
    (h : ∀ f cs t, (f, .text cs t) ∈ contents → cs.encode [] = .ok [] ∧ cs.StraysOn stray t) :
    Verdict stray (contents.findSome? (numberFault extended)) (encodeAll extended contents) := by
  induction contents with
  | nil => exact Verdict.pure' _
  | cons x contents ih =>
    -- The faults of what comes later count only if this content has octets.
    have hlater : ∀ bs, Verdict stray (contents.findSome? (numberFault extended)) (do
        let fields ← encodeAll extended contents
        return (x.1, bs) :: fields) := by
      intro bs
      rw [← Option.or_none (o := List.findSome? _ _)]
      apply Verdict.bind (ih fun f cs t hm => h f cs t (List.mem_cons_of_mem x hm))
      exact fun fields _ => Verdict.pure' _
    obtain ⟨f, content⟩ := x
    rw [encodeAll_cons, findSome?_cons_eq_or]
    cases content with
    | text cs t =>
      obtain ⟨hnil, ht⟩ := h f cs t List.mem_cons_self
      apply Verdict.skip
      · exact fun fault => TextField.stray_of_encode_error hnil ht
      · exact fun bs _ => hlater bs
    | number v => exact Verdict.check fun bs _ => hlater bs
    | octet b => exact hlater [b]

end TarHeader.Content
