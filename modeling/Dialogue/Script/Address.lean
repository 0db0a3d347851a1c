import Dialogue.Text.Blank
import Dialogue.Text.Decimal
import Dialogue.Text.Pattern
import Dialogue.Script.Row

/-!
# Addresses

A branch of a scene is addressed `scene` or `scene.branch`, as in `2.1`.

* `Address.text` writes both numbers.
* `Address.pattern` are both forms, with blanks around them, and `Address.ofText` reads them; the
  branch is `0` where it is left out. Numbers have an optional minus sign and fit 32 bits.
-/

namespace Dialogue

open Text

/-- Where a group of rows is found: a scene, and a branch of it. -/
structure Address where
  scene : Int32
  branch : Int32
deriving DecidableEq, Repr, Inhabited

/-- A text that is no address. -/
structure BadAddress where
  text : String
deriving DecidableEq, Repr

namespace BadAddress

def message (e : BadAddress) : String :=
  "invalid scene reference [" ++ e.text ++ "], expected 'scene' or 'scene.branch'"

end BadAddress

namespace Address

def text (a : Address) : String :=
  Decimal.text a.scene ++ "." ++ Decimal.text a.branch

/-- The order of addresses: by scene, then by branch. -/
def le (a b : Address) : Bool :=
  if a.scene = b.scene then a.branch ≤ b.branch else a.scene ≤ b.scene

/-- A scene, and a branch behind a point if there is one, with blanks around them. -/
def pattern : Pattern :=
  .seq (.many isBlank) (.seq (.group .signed)
    (.seq (.optional (.seq (.char '.') (.group .signed))) (.many isBlank)))

/-- Reads an address with blanks around it. -/
def ofChars? (cs : List Char) : Option Address :=
  match pattern.captures? cs with
  | some [scene] => (Decimal.signed32? scene).map (⟨·, 0⟩)
  | some [scene, branch] => do
    return ⟨← Decimal.signed32? scene, ← Decimal.signed32? branch⟩
  | _ => none

def ofText (s : String) : Except BadAddress Address :=
  match ofChars? s.toList with
  | some a => .ok a
  | none => .error ⟨s⟩

end Address

def Row.address (r : Row) : Address :=
  ⟨r.scene, r.branch⟩

end Dialogue
