import Dialogue.CommandLine.Arguments
import Dialogue.CommandLine.Setup
import Dialogue.Terminal.Console

/-!
# The program

The whole program as a function of its arguments, of what is typed, and of the files. It lists the
scenes of a script, or plays one to its end.

* Arguments at fault end the program before it touches a file.
* A script that cannot be loaded ends it with a report; whatever happens later does not.
-/

namespace Dialogue.CommandLine

open Files Settings Text

/-- What a run of the program leaves. -/
structure Outcome where
  exitCode : UInt32
  output : String
  complaints : String
  tree : Tree
  /-- How the reader left, if the reader did. -/
  left : Option Leaving

/-- The lines of the causes of a failure: numbered from zero if there are several. -/
def causeLines : List String → List String
  | [] => []
  | [cause] => ["    " ++ cause]
  | causes => causes.mapIdx fun i cause => "    " ++ Decimal.natText i ++ ": " ++ cause

/-- The report of a failure that ends the program. -/
def report (message : String) (causes : List String) : String :=
  "Error: " ++ message ++ "\n" ++
    (if causes.isEmpty then "" else "\nCaused by:\n") ++
    String.join ((causeLines causes).map (· ++ "\n"))

/-- The line that lists the branches of a scene. -/
def sceneLine (script : Script) (scene : Int32) : String :=
  "scene " ++ Decimal.text scene ++ ": branches [" ++
    ", ".intercalate ((script.branches scene).map Decimal.text) ++ "]"

/-- The console on which the program plays. -/
def consoleOf (store : Store) (typed : Bytes) (t : Transcript) : Console where
  source := .cached store.system.cachePath (.sheets store.system.scriptPath)
  tree := t.tree
  autoAdvance := store.playback.autoAdvance
  lines := Terminal.typedLines typed
  printed := t.output

def startOf (args : Arguments) (store : Store) : Address :=
  args.scene.getD ⟨store.playback.startScene, store.playback.startBranch⟩

/-- Loads the script as the arguments ask. -/
def loadScript (args : Arguments) (c : Console) :
    Except PlaybackError (Script × Player) × Console :=
  if args.refresh then
    match c.refresh {} with
    | (.ok p, c) => c.load p
    | (.error e, c) => (.error e, c)
  else c.load {}

/-- The end of a program without a failure. -/
def done (complaints : String) (c : Console) : Outcome :=
  ⟨0, c.printed, complaints, c.tree, c.left⟩

/-- The end of a program with a failure. -/
def failed (complaints : String) (e : PlaybackError) (c : Console) : Outcome :=
  ⟨1, c.printed, complaints ++ report e.message e.causes, c.tree, c.left⟩

def perform (args : Arguments) (store : Store) (complaints : String) (c : Console) : Outcome :=
  match loadScript args c with
  | (.error e, c) => failed complaints e c
  | (.ok (script, p), c) =>
    if args.list then done complaints (c.printLines (script.scenes.map (sceneLine script)))
    else
      match Console.host.run (startOf args store) p c with
      | (.ok _, _, c) => done complaints c
      | (.error e, _, c) => failed complaints e c

def run (words : List String) (typed : Bytes) (tree : Tree) : Outcome :=
  match Arguments.ofWords words with
  | .error e => ⟨1, "", report e.message [], tree, none⟩
  | .ok args =>
    let (t, store) := setUp tree
    perform args store t.complaints (consoleOf store typed t)

/-- The paths of the files that the program may read, given its settings file. -/
def pathsRead (tree : Tree) : List String :=
  let (_, store) := readSettings { tree }
  [store.system.scriptPath, store.system.cachePath, join store.system.logPath logName]

end Dialogue.CommandLine
