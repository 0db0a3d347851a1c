import Dialogue.Script.Address

/-!
# Arguments

The words behind the name of the program: `--scene` with an address, `--refresh` and `--list`.

* They are read from left to right, and the first fault counts.
* Of several addresses the last one counts.
-/

namespace Dialogue.CommandLine

/-- What the program is asked for. -/
structure Arguments where
  /-- Where to start, instead of where the settings say. -/
  scene : Option Address := none
  /-- Whether the script is to be loaded past the cache. -/
  refresh : Bool := false
  /-- Whether the scenes are to be listed instead of played. -/
  list : Bool := false
deriving DecidableEq, Repr

/-- Why arguments are refused. -/
inductive ArgumentError where
  /-- No address follows `--scene`. -/
  | missingScene
  | badScene (cause : BadAddress)
  | unknown (word : String)
deriving DecidableEq, Repr

def ArgumentError.message : ArgumentError → String
  | missingScene => "--scene needs a value like 2 or 2.1"
  | badScene cause => cause.message
  | unknown word => "unknown argument '" ++ word ++ "'"

namespace Arguments

def read : List String → Arguments → Except ArgumentError Arguments
  | [], args => .ok args
  | "--scene" :: [], _ => .error .missingScene
  | "--scene" :: value :: words, args =>
    match Address.ofText value with
    | .ok a => read words { args with scene := some a }
    | .error cause => .error (.badScene cause)
  | "--refresh" :: words, args => read words { args with refresh := true }
  | "--list" :: words, args => read words { args with list := true }
  | word :: _, _ => .error (.unknown word)

def ofWords (words : List String) : Except ArgumentError Arguments :=
  read words {}

end Arguments

end Dialogue.CommandLine
