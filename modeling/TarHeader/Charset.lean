import TarHeader.Fault

/- Character encodings. A header does not record the encoding of its text, so the caller chooses
   one. Any pair of functions is a `Charset`; the laws that a well-behaved one obeys are stated
   where they are needed. -/
namespace TarHeader

structure Charset where
  name : String
  encode : Text → Except Fault Bytes
  decode : Bytes → Except Fault Text

namespace Charset

/-- The charset of two partial functions. Text and octets outside their domains are unsupported; the
    fault shows all of the text, or all of the octets lossily decoded. -/
def ofPartial (name : String) (encode : Text → Option Bytes) (decode : Bytes → Option Text) :
    Charset where
  name := name
  encode t := match encode t with
    | some bs => .ok bs
    | none => .error (.unsupportedEncoding name t)
  decode bs := match decode bs with
    | some t => .ok t
    | none => .error (.unsupportedEncoding name (Utf8.decodeLossy bs))

/-- Strict in both directions. A byte order mark is a character like any other. -/
def utf8 : Charset := ofPartial "UTF-8" (fun t => some (Utf8.encode t)) Utf8.decode

/-- A charset that may be named but not used, because text written in it would not read back. -/
def refused (name : String) : Charset := ofPartial name (fun _ => none) (fun _ => none)

/-- The octet of the same number as a character. A character above U+00FF becomes a question mark. -/
def latin1Octet (c : Char) : UInt8 := if c.toNat < 0x100 then .ofNat c.toNat else 0x3F

/-- The character of the same number as an octet. -/
def latin1Char (b : UInt8) : Char := .ofNat b.toNat

/-- One octet for each character, accepting all octets and all text. ASCII has the same octets in
    UTF-8 and is taken as that. -/
def fallback : Charset where
  name := "fallback"
  encode t := .ok (if t.all (·.toNat < 0x80) then Utf8.encode t else t.map latin1Octet)
  decode bs := .ok (if bs.all (· < 0x80) then Utf8.decodeLossy bs else bs.map latin1Char)

end Charset

end TarHeader
