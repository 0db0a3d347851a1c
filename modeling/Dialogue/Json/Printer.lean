import Dialogue.Json.Value
import Dialogue.Text.Decimal

/-!
# Printing JSON

A value on several lines: items and members on lines of their own, two blanks further in, and a
blank behind the colon. Empty lists and objects stay on one line.

* In texts, quotes and backslashes have a backslash in front, controls are escaped, and all else
  stands as it is.
-/

namespace Dialogue.Json

open Text

/-- A character as it stands in a text. -/
def escaped (c : Char) : List Char :=
  match c with
  | '"' => ['\\', '"']
  | '\\' => ['\\', '\\']
  | '\x08' => ['\\', 'b']
  | '\t' => ['\\', 't']
  | '\n' => ['\\', 'n']
  | '\x0c' => ['\\', 'f']
  | '\r' => ['\\', 'r']
  | c =>
    if c < ' ' then
      ['\\', 'u', '0', '0'] ++ [Nat.digitChar (c.toNat / 16), Nat.digitChar (c.toNat % 16)]
    else [c]

def quotedText (s : String) : List Char :=
  '"' :: s.toList.flatMap escaped ++ ['"']

/-- The end of a line, and the blanks in front of the next one. -/
def newLine (depth : Nat) : List Char :=
  '\n' :: List.replicate (2 * depth) ' '

mutual

/-- A value whose lines stand `depth` steps in. -/
def print (depth : Nat) : Json → List Char
  | null => "null".toList
  | bool true => "true".toList
  | bool false => "false".toList
  | int i => Decimal.ofInt i
  | str s => quotedText s
  | arr [] => "[]".toList
  | arr (item :: items) =>
    '[' :: newLine (depth + 1) ++ print (depth + 1) item ++ printItems (depth + 1) items ++
      newLine depth ++ [']']
  | obj [] => ['\x7b', '\x7d']
  | obj (member :: members) =>
    '\x7b' :: newLine (depth + 1) ++ printMember (depth + 1) member ++
      printMembers (depth + 1) members ++ newLine depth ++ ['\x7d']
  | other => "null".toList

def printItems (depth : Nat) : List Json → List Char
  | [] => []
  | item :: items => ',' :: newLine depth ++ print depth item ++ printItems depth items

def printMembers (depth : Nat) : List (Option String × Json) → List Char
  | [] => []
  | member :: members =>
    ',' :: newLine depth ++ printMember depth member ++ printMembers depth members

def printMember (depth : Nat) : Option String × Json → List Char
  | (key, value) => quotedText (key.getD "") ++ [':', ' '] ++ print depth value

end

def pretty (j : Json) : String :=
  String.ofList (print 0 j)

end Dialogue.Json
