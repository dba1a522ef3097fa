import PulseMill.Text.Digits
import PulseMill.Text.Unprinted
set_option autoImplicit false

namespace PulseMill.Text

/-- A mark that would end the text or start an escape, and every character
without a shape of its own, is escaped. An apostrophe is not. -/
def escaped (c : Char) : String :=
  match c with
  | '\x00' => "\\0"
  | '\t' => "\\t"
  | '\n' => "\\n"
  | '\r' => "\\r"
  | '"' => "\\\""
  | '\\' => "\\\\"
  | c =>
    if c.toNat < 0x20 || c.toNat == 0x7F || isUnprinted c then
      "\\u\x7b" ++ hexDigits 1 c.toNat ++ "\x7d"
    else c.toString

def quoted (s : String) : String :=
  s.toList.foldl (fun out c => out ++ escaped c) "\"" ++ "\""

end PulseMill.Text
