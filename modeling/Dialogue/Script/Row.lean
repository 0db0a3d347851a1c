import Dialogue.Text.Blank

/-!
# Script rows

A dialogue script is a list of rows. Each row belongs to a branch of a scene and carries one
command with the words, names and keys that the command uses.

* `ofWord` reads a cell: blanks around the word do not count, and a word of no meaning gives the
  default of its column (an unknown command keeps its name).
* `word` is the written form of each value.
-/

namespace Dialogue

open Text

/-- What a row asks for. -/
inductive Command where
  /-- Show the speaker and the line, then wait for the reader. -/
  | say
  /-- Put a portrait on one side of the screen. -/
  | setCharacter
  /-- Take both portraits away. -/
  | cleanCharacter
  /-- Offer the row's choices and go on in the chosen branch. -/
  | setOption
  /-- A command without a meaning, kept by its name. -/
  | unknown (name : String)
deriving DecidableEq, Repr, Inhabited

/-- The command of a cell; an empty cell is a line to say. -/
def Command.ofWord (cell : String) : Command :=
  match strip cell with
  | "" | "Say" => .say
  | "SetCharacter" => .setCharacter
  | "CleanCharacter" => .cleanCharacter
  | "SetOption" => .setOption
  | name => .unknown name

/-- The words of the four commands with a meaning. -/
def Command.words : List (String × Command) :=
  [("Say", .say), ("SetCharacter", .setCharacter), ("CleanCharacter", .cleanCharacter),
    ("SetOption", .setOption)]

/-- The side of the screen a portrait stands on. -/
inductive Side where
  | left
  | right
  | none
deriving DecidableEq, Repr, Inhabited

def Side.words : List (String × Side) :=
  [("Left", .left), ("Right", .right), ("None", .none)]

def Side.word : Side → String
  | .left => "Left"
  | .right => "Right"
  | .none => "None"

def Side.ofWord (cell : String) : Side :=
  match strip cell with
  | "Left" => .left
  | "Right" => .right
  | _ => .none

/-- Whether playing waits for a portrait to load. -/
inductive LoadMode where
  | wait
  | noWait
deriving DecidableEq, Repr, Inhabited

def LoadMode.words : List (String × LoadMode) :=
  [("Wait", .wait), ("NoWait", .noWait)]

def LoadMode.word : LoadMode → String
  | .wait => "Wait"
  | .noWait => "NoWait"

def LoadMode.ofWord (cell : String) : LoadMode :=
  match strip cell with
  | "NoWait" => .noWait
  | _ => .wait

/-- Which portraits stand out while a line is shown. -/
inductive Highlight where
  | left
  | right
  | none
  | all
deriving DecidableEq, Repr, Inhabited

def Highlight.words : List (String × Highlight) :=
  [("Left", .left), ("Right", .right), ("None", .none), ("All", .all)]

def Highlight.word : Highlight → String
  | .left => "Left"
  | .right => "Right"
  | .none => "None"
  | .all => "All"

def Highlight.ofWord (cell : String) : Highlight :=
  match strip cell with
  | "Left" => .left
  | "Right" => .right
  | "None" => .none
  | _ => .all

/-- One choice offered to the reader: its text, and the branch it leads to. -/
structure Choice where
  text : String
  target : Int32
deriving DecidableEq, Repr, Inhabited

/-- One row of a script. -/
structure Row where
  /-- The scene of the row; scenes below zero are invalid. -/
  scene : Int32
  /-- The branch within the scene; `0` is the main line. -/
  branch : Int32 := 0
  /-- The place of the row within its branch, where the sheet gives one. -/
  seq : Option UInt32 := none
  command : Command
  side : Side := .none
  character : String := ""
  loadMode : LoadMode := .wait
  highlight : Highlight := .all
  background : Option String := none
  cg : Option String := none
  speaker : String := ""
  line : String := ""
  /-- The choices of the row; only `setOption` offers them. -/
  choices : List Choice := []
deriving DecidableEq, Repr, Inhabited

/-- Whether the row carries a line to show. -/
def Row.hasDialogue (r : Row) : Bool :=
  r.line ≠ ""

end Dialogue
