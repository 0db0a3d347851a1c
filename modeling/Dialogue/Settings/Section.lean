import Dialogue.Toml.Value

/-!
# Sections of the settings

The two sections that a player of scripts reads, with what holds where nothing else is set.

* A field that is left out keeps its default.
* A field of the wrong kind leaves the section unread.
-/

namespace Dialogue.Settings

/-- Where files are kept, and how much is logged. -/
structure SystemSection where
  /-- A sheet, or a directory of sheets. -/
  scriptPath : String := "game/"
  cachePath : String := "cache/dialogue.json"
  logPath : String := "logs/"
  logLevel : String := "info"
deriving DecidableEq, Repr, Inhabited

/-- Where playing starts, and whether it waits for the reader. -/
structure PlaybackSection where
  startScene : Int32 := 1
  startBranch : Int32 := 0
  autoAdvance : Bool := false
deriving DecidableEq, Repr, Inhabited

/-- The names of the fields, in order. -/
def SystemSection.fieldNames : List String :=
  ["script_path", "cache_path", "log_path", "log_level"]

/-- The names of the fields, in order. -/
def PlaybackSection.fieldNames : List String :=
  ["start_scene", "start_branch", "auto_advance"]

def SystemSection.ofFields? (fields : Toml.Members) : Option SystemSection := do
  return {
    scriptPath := ← Toml.field Toml.str? ({} : SystemSection).scriptPath "script_path" fields
    cachePath := ← Toml.field Toml.str? ({} : SystemSection).cachePath "cache_path" fields
    logPath := ← Toml.field Toml.str? ({} : SystemSection).logPath "log_path" fields
    logLevel := ← Toml.field Toml.str? ({} : SystemSection).logLevel "log_level" fields }

def PlaybackSection.ofFields? (fields : Toml.Members) : Option PlaybackSection := do
  return {
    startScene := ← Toml.field Toml.int32? ({} : PlaybackSection).startScene "start_scene" fields
    startBranch := ← Toml.field Toml.int32? ({} : PlaybackSection).startBranch "start_branch" fields
    autoAdvance := ← Toml.field Toml.bool? ({} : PlaybackSection).autoAdvance "auto_advance" fields }

def SystemSection.ofToml? (t : Toml) : Option SystemSection :=
  (t.record? SystemSection.fieldNames).bind SystemSection.ofFields?

def PlaybackSection.ofToml? (t : Toml) : Option PlaybackSection :=
  (t.record? PlaybackSection.fieldNames).bind PlaybackSection.ofFields?

/-- A field whose text has nothing in it that would have to be escaped. -/
def stringLine (name value : String) : String :=
  name ++ " = \"" ++ value ++ "\"\n"

/-- The lines of a section under its header. -/
def SystemSection.lines (s : SystemSection) : String :=
  "[system]\n" ++ stringLine "script_path" s.scriptPath ++ stringLine "cache_path" s.cachePath ++
    stringLine "log_path" s.logPath ++ stringLine "log_level" s.logLevel

/-- The lines of a section under its header. -/
def PlaybackSection.lines (p : PlaybackSection) : String :=
  "[playback]\n" ++ "start_scene = " ++ Text.Decimal.text p.startScene ++ "\n" ++
    "start_branch = " ++ Text.Decimal.text p.startBranch ++ "\n" ++
    "auto_advance = " ++ (if p.autoAdvance then "true" else "false") ++ "\n"

/-- The settings file that sets every field to its default. -/
def defaultText : String :=
  ({} : SystemSection).lines ++ "\n" ++ ({} : PlaybackSection).lines

end Dialogue.Settings
