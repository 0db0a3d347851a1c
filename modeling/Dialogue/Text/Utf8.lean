/-!
# Bytes as text

A file is a list of bytes. `symbols` reads it as characters in UTF-8; a part that is no character
becomes one symbol without a character.

* An ill-formed part ends where the next byte cannot belong to it, so every well-formed character
  after it is read.
* `text?` is the text of bytes that are all characters.
-/

namespace Dialogue.Text

/-- The content of a file. -/
abbrev Bytes := List UInt8

/-- What a part of a file spells: a character, or nothing. -/
abbrev Symbol := Option Char

/-- How far a character is read. -/
inductive Partial where
  /-- Between characters. -/
  | between
  /-- Some more bytes are due, at least one, the next between two bounds; the bits read so far. -/
  | due (more : Nat) (low high : UInt8) (bits : Nat)

/-- Reads the first byte of a character: what it spells at once, and what is due. -/
def firstByte (b : UInt8) : List Symbol × Partial :=
  if b < 0x80 then ([some (Char.ofNat b.toNat)], .between)
  else if b < 0xC2 then ([none], .between)
  else if b < 0xE0 then ([], .due 0 0x80 0xBF (b.toNat - 0xC0))
  else if b = 0xE0 then ([], .due 1 0xA0 0xBF 0)
  else if b = 0xED then ([], .due 1 0x80 0x9F 0xD)
  else if b < 0xF0 then ([], .due 1 0x80 0xBF (b.toNat - 0xE0))
  else if b = 0xF0 then ([], .due 2 0x90 0xBF 0)
  else if b < 0xF4 then ([], .due 2 0x80 0xBF (b.toNat - 0xF0))
  else if b = 0xF4 then ([], .due 2 0x80 0x8F 4)
  else ([none], .between)

/-- Reads one byte: the symbols it completes, and what is due. -/
def nextByte (b : UInt8) : Partial → List Symbol × Partial
  | .between => firstByte b
  | .due more low high bits =>
    if low ≤ b ∧ b ≤ high then
      let bits := bits * 64 + (b.toNat - 0x80)
      match more with
      | 0 => ([some (Char.ofNat bits)], .between)
      | more + 1 => ([], .due more 0x80 0xBF bits)
    else
      let (symbols, due) := firstByte b
      (none :: symbols, due)

def symbolsFrom : Partial → Bytes → List Symbol
  | .between, [] => []
  | .due .., [] => [none]
  | due, b :: bs => (nextByte b due).1 ++ symbolsFrom (nextByte b due).2 bs

def symbols (bs : Bytes) : List Symbol :=
  symbolsFrom .between bs

/-- The text that symbols spell, if each of them is a character. -/
def spelled? (ss : List Symbol) : Option String :=
  (ss.mapM id).map String.ofList

/-- The text of a file, if it is one. -/
def text? (bs : Bytes) : Option String :=
  spelled? (symbols bs)

def bytesOf (s : String) : Bytes :=
  s.toList.flatMap String.utf8EncodeChar

end Dialogue.Text
