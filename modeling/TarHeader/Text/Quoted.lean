import TarHeader.Text.Printable

/- Text in double quotes, as messages show it. Six characters have a short form, an unprintable
   character is shown as its code point in hexadecimal, and every other one stands for itself. -/
namespace TarHeader.Text

/-- One character inside the quotes. -/
def quotedChar (c : Char) : Text :=
  match c with
  | '\x00' => ['\\', '0']
  | '\t' => ['\\', 't']
  | '\n' => ['\\', 'n']
  | '\r' => ['\\', 'r']
  | '"' => ['\\', '"']
  | '\\' => ['\\', '\\']
  | c => if isPrintable c then [c] else ['\\', 'u', '\x7b'] ++ Nat.toDigits 16 c.toNat ++ ['\x7d']

def quoted (t : Text) : String := String.ofList ('"' :: t.flatMap quotedChar ++ ['"'])

end TarHeader.Text
