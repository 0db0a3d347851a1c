import Dialogue.Text.Marks

/-!
# Quoted text

Paths are shown in messages between quotes, so that every character of them can be told.

* Double quotes and backslashes have a backslash in front; the common controls have a letter.
* Any other character that shows nothing by itself is shown by its code point.
-/

namespace Dialogue.Text

/-- A code point between braces, in small hexadecimal digits. -/
def codePoint (c : Char) : List Char :=
  "\\u\x7b".toList ++ Nat.toDigits 16 c.toNat ++ "\x7d".toList

/-- A character as it is shown between quotes. -/
def quotedChar (c : Char) : List Char :=
  match c with
  | '\x00' => ['\\', '0']
  | '\t' => ['\\', 't']
  | '\n' => ['\\', 'n']
  | '\r' => ['\\', 'r']
  | '"' => ['\\', '"']
  | '\\' => ['\\', '\\']
  | c => if isHidden c then codePoint c else [c]

def quoted (s : String) : String :=
  String.ofList ('"' :: s.toList.flatMap quotedChar ++ ['"'])

end Dialogue.Text
