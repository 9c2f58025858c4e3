import StreamRelay.Text.Number
import StreamRelay.Text.Printable

/-!
# Quoted text

A text between double quotes in which every character can be seen: quotes and backslashes stand
behind a backslash, and what is not printable is written as an escape.
-/

namespace StreamRelay.Text

def quotedChar (c : Char) : List Char :=
  match c with
  | '"' => ['\\', '"']
  | '\\' => ['\\', '\\']
  | '\x00' => ['\\', '0']
  | '\t' => ['\\', 't']
  | '\r' => ['\\', 'r']
  | '\n' => ['\\', 'n']
  | _ => if isPrintable c then [c] else ['\\', 'u', '\x7b'] ++ hexNumeral c.toNat ++ ['\x7d']

def quoted (s : String) : String :=
  String.ofList ('"' :: s.toList.flatMap quotedChar ++ ['"'])

end StreamRelay.Text
