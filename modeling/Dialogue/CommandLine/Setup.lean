import Dialogue.Files.Tree
import Dialogue.Settings.Store
import Dialogue.Text.Quoted

/-!
# Getting ready

Before it plays, the program sees to its settings file and its log.

* A settings file that is missing is made, with every field at its default.
* Settings that cannot be read leave the defaults in force.
* The log is made where it is missing. Without a log the program goes on all the same.
-/

namespace Dialogue.CommandLine

open Files Settings

/-- Files, and what is printed: as output, and as complaints. -/
structure Transcript where
  tree : Tree
  output : String := ""
  complaints : String := ""

namespace Transcript

def say (line : String) (t : Transcript) : Transcript :=
  { t with output := t.output ++ line ++ "\n" }

def complain (line : String) (t : Transcript) : Transcript :=
  { t with complaints := t.complaints ++ line ++ "\n" }

/-- Prints a complaint about a failure, if there is one. -/
def complainOf (what : String) (fault : Option FileError) (t : Transcript) : Transcript :=
  match fault with
  | some fault => t.complain (what ++ ": " ++ fault.message)
  | none => t

end Transcript

def settingsPath : String := "config.toml"

/-- The name of the log in its directory. -/
def logName : String := "lantern.log"

/-- Makes the settings file, if nothing is in its place. -/
def ensureSettings (t : Transcript) : Transcript :=
  if t.tree.exists? settingsPath then t
  else
    let t := t.say ("Creating default configuration at '" ++ settingsPath ++ "'...")
    match t.tree.write settingsPath (Text.bytesOf defaultText) with
    | .ok tree => { t with tree }.say "Config file created successfully."
    | .error fault => t.complainOf "Failed to write config file" (some fault)

def readSettings (t : Transcript) : Transcript × Store :=
  match ({} : Store).fillFrom t.tree settingsPath with
  | .ok store => (t, store)
  | .error e => (t.complain ("Config load warning: " ++ e.message), {})

def ensureLogDir (dir : String) (t : Transcript) : Transcript :=
  let (tree, fault) := t.tree.makeDirs dir
  { t with tree }.complainOf "Failed to create log dir" fault

/-- Makes the log, if it is not there. -/
def ensureLog (dir : String) (t : Transcript) : Transcript :=
  match t.tree.touch (join dir logName) with
  | .ok tree => { t with tree }
  | .error fault =>
    t.complain ("Failed to open log file " ++ Text.quoted (join dir logName) ++ ": " ++
      fault.message ++ ", logging to stdout only")

/-- Gets ready: the settings, and the log that they name. -/
def setUp (tree : Tree) : Transcript × Store :=
  let (t, store) := readSettings (ensureSettings { tree })
  (ensureLog store.system.logPath (ensureLogDir store.system.logPath t), store)

end Dialogue.CommandLine
