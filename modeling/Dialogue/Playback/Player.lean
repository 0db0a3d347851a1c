import Dialogue.Playback.Stage
import Dialogue.Script.Basic
import Dialogue.Source.Error

/-!
# Players

A player walks through the branches of a script and asks the stage for what the rows call for.
At most one session is live. Beginning and dropping a session both move the generation on, so a
ticket of an earlier session never names a request of a later one.

* `play`, `refresh`, `choose`, `advance`, `complete` and `cancel` move the player on without
  calling the stage; `step` is the one unit of work that calls it.
* Rows are asked of a source by `load`, once, and by `refresh`, each time.
* An operation that fails or is ignored gives no new player.

A player has just the states that can be reached in play: what a session waits for and what is left
of a row is one phase. `Controller` is the same player as a machine of independent registers, and
`Player.operate_controller` says that the two answer alike.
-/

namespace Dialogue

/-- Where a session stands in a row. -/
inductive Phase where
  /-- The row under the cursor is to be entered. -/
  | entering
  /-- The row is entered; these effects and the decision are left. -/
  | acting (effects : List Effect) (decision : Decision)
  /-- As `acting`, but the asset with this ticket is loading. -/
  | loading (ticket : Ticket) (effects : List Effect) (decision : Decision)
  /-- The reader is awaited. -/
  | reading
  /-- A choice is awaited. -/
  | choosing (options : List Choice)
deriving DecidableEq, Repr

/-- How far a session has come. -/
inductive Progress where
  /-- The rows are not looked up yet. -/
  | opening
  /-- The rows, the number of the row under the cursor, and the phase of that row. -/
  | within (rows : List Row) (cursor : Nat) (phase : Phase)
deriving DecidableEq, Repr

/-- One walk through the rows of an address. -/
structure Session where
  generation : UInt64
  address : Address
  progress : Progress := .opening
deriving DecidableEq, Repr

/-- What is to be told to whoever follows the playing. -/
inductive Event where
  /-- A row is entered; no row at the end of a script. -/
  | rowChanged (row : Option Row)
  | sceneComplete (address : Address)
  /-- A choice led from one branch of the scene to another. -/
  | branched (scene before after : Int32)
  | canceled (address : Address)
deriving DecidableEq, Repr

/-- Whether a session is live, and how the last one ended. -/
inductive Status where
  | idle
  | live (session : Session)
  | completed
  | canceled
deriving DecidableEq, Repr

/-- A player of a script. -/
structure Player where
  /-- The script, once it is loaded. -/
  script : Option Script := none
  status : Status := .idle
  generation : UInt64 := 0
  nextTicket : UInt64 := 0
  lastPlayed : Option Address := none
  /-- What is to be told, the earliest first. -/
  events : List Event := []
deriving DecidableEq, Repr

/-- Why an operation of a player failed. -/
inductive PlaybackError where
  | sourceUnavailable (cause : SourceError)
  /-- The choice has `count` options, and none with this index. -/
  | invalidChoice (index count : Nat)
  | noPendingChoice
deriving DecidableEq, Repr

namespace PlaybackError

def message : PlaybackError → String
  | sourceUnavailable cause => "script source unavailable: " ++ cause.message
  | invalidChoice index count =>
    "choice " ++ Text.Decimal.natText index ++ " out of range (" ++ Text.Decimal.natText count ++
      " options)"
  | noPendingChoice => "no choice is pending"

/-- The messages of the failures behind this one, the nearest first. -/
def causes : PlaybackError → List String
  | sourceUnavailable cause => cause.message :: cause.causes
  | _ => []

end PlaybackError

/-- What a player does, seen from outside. -/
inductive State where
  | idle
  | playing
  | awaitingAsset
  | awaitingReader
  | awaitingChoice
  | completed
  | canceled
deriving DecidableEq, Repr

namespace State

/-- Whether playing goes on only after an answer from outside. -/
def isWaiting : State → Bool
  | awaitingAsset | awaitingReader | awaitingChoice => true
  | _ => false

/-- Whether no session is live. -/
def isFinished : State → Bool
  | idle | completed | canceled => true
  | _ => false

end State

/-- The state of a session in this phase. -/
def Phase.state : Phase → State
  | entering => .playing
  | acting _ _ => .playing
  | loading _ _ _ => .awaitingAsset
  | reading => .awaitingReader
  | choosing _ => .awaitingChoice

namespace Session

/-- The state of a player with this session. -/
def state (s : Session) : State :=
  match s.progress with
  | .opening => .playing
  | .within _ _ phase => phase.state

/-- The number of the row under the cursor. -/
def cursor (s : Session) : Nat :=
  match s.progress with
  | .opening => 0
  | .within _ cursor _ => cursor

/-- The row under the cursor, once the rows are looked up. -/
def current? (s : Session) : Option Row :=
  match s.progress with
  | .opening => none
  | .within rows cursor _ => rows[cursor]?

/-- The ticket of the asset that the session waits for. -/
def waitingOn? (s : Session) : Option Ticket :=
  match s.progress with
  | .within _ _ (.loading ticket _ _) => some ticket
  | _ => none

/-- The choices that the session waits for. -/
def pendingChoices (s : Session) : List Choice :=
  match s.progress with
  | .within _ _ (.choosing options) => options
  | _ => []

end Session

/-- How rows are asked for: with `true`, past every cache. -/
abbrev Fetch := Bool → Except SourceError (List Row)

/-- What a host tells a player. -/
inductive Input where
  | proceed
  | choose (index : Nat)
  | jump (address : Address)
  | loaded (ticket : Ticket)
  | refresh
  | exit
deriving DecidableEq, Repr

namespace Player

def session? (p : Player) : Option Session :=
  match p.status with
  | .live s => some s
  | _ => none

def state (p : Player) : State :=
  match p.status with
  | .idle => .idle
  | .live s => s.state
  | .completed => .completed
  | .canceled => .canceled

/-- The choices that the player waits for. -/
def pendingChoices (p : Player) : List Choice :=
  match p.status with
  | .live s => s.pendingChoices
  | _ => []

/-! ## Sessions begin and end -/

/-- Adds an event to what is to be told. -/
def announce (p : Player) (e : Event) : Player :=
  { p with events := p.events ++ [e] }

def start (a : Address) (p : Player) : Player :=
  { p with
    generation := p.generation + 1
    status := .live ⟨p.generation + 1, a, .opening⟩
    lastPlayed := some a }

/-- Drops the live session, if there is one. -/
def cancel (p : Player) : Player :=
  match p.status with
  | .live s =>
    { p.announce (.canceled s.address) with generation := p.generation + 1, status := .canceled }
  | _ => p

/-- Ends the session `s` at the end of its rows. -/
def finish (p : Player) (s : Session) : Player :=
  { (p.announce (.rowChanged none)).announce (.sceneComplete s.address) with
    status := .completed }

/-- Ends the session `s` in favour of another branch of its scene. -/
def handOver (p : Player) (s : Session) (branch : Int32) : Player :=
  (p.announce (.branched s.address.scene s.address.branch branch)).start
    ⟨s.address.scene, branch⟩

/-! ## Operations -/

/-- Loads the script, unless it is loaded. -/
def load (fetch : Fetch) (p : Player) : Except SourceError (Script × Player) :=
  match p.script with
  | some script => .ok (script, p)
  | none =>
    match fetch false with
    | .ok rows => .ok (.ofRows rows, { p with script := some (.ofRows rows) })
    | .error e => .error e

/-- Plays from the first row of an address, in place of what was played. -/
def play (fetch : Fetch) (a : Address) (p : Player) : Except PlaybackError Player :=
  match p.load fetch with
  | .ok (_, p) => .ok (p.cancel.start a)
  | .error e => .error (.sourceUnavailable e)

/-- Loads the script anew, past every cache, and plays the last address from its first row. -/
def refresh (fetch : Fetch) (p : Player) : Except PlaybackError Player :=
  match fetch true with
  | .ok rows =>
    let p := { p with script := some (.ofRows rows) }.cancel
    match p.lastPlayed with
    | some a => .ok (p.start a)
    | none => .ok p
  | .error e => .error (.sourceUnavailable e)

/-- Goes on with the next row, if the reader is awaited. -/
def advance (p : Player) : Option Player :=
  match p.status with
  | .live s =>
    match s.progress with
    | .within rows cursor .reading =>
      some { p with status := .live { s with progress := .within rows (cursor + 1) .entering } }
    | _ => none
  | _ => none

/-- Takes the option with this index, if a choice is awaited, and hands over to its branch. -/
def choose (index : Nat) (p : Player) : Except PlaybackError (Address × Player) :=
  match p.status with
  | .live s =>
    match s.progress with
    | .within _ _ (.choosing options) =>
      match options[index]? with
      | some option => .ok (⟨s.address.scene, option.target⟩, p.handOver s option.target)
      | none => .error (.invalidChoice index options.length)
    | _ => .error .noPendingChoice
  | _ => .error .noPendingChoice

/-- Goes on after the load with this ticket ended, if the live session waits for it. A load that
failed ends the waiting as well. -/
def complete (ticket : Ticket) (_loaded : Bool) (p : Player) : Option Player :=
  match p.status with
  | .live s =>
    match s.progress with
    | .within rows cursor (.loading t effects decision) =>
      if t = ticket then
        some { p with
          status := .live { s with progress := .within rows cursor (.acting effects decision) } }
      else none
    | _ => none
  | _ => none

/-- The flag under which an input makes the player ask for rows, if it does. -/
def asks (p : Player) : Input → Option Bool
  | .jump _ => if p.script.isNone then some false else none
  | .refresh => some true
  | _ => none

/-- Does what the host tells. Inputs that do not fit the state are ignored. -/
def feed (fetch : Fetch) (input : Input) (p : Player) : Except PlaybackError Player :=
  match input with
  | .proceed => .ok (p.advance.getD p)
  | .choose index => (p.choose index).map (·.2)
  | .jump a => p.play fetch a
  | .loaded ticket => .ok ((p.complete ticket true).getD p)
  | .refresh => p.refresh fetch
  | .exit => .ok p.cancel

/-- What is to be told, and the player with it told. -/
def drain (p : Player) : List Event × Player :=
  (p.events, { p with events := [] })

/-! ## One unit of work -/

/-- The rows at an address of the loaded script. -/
def rowsAt? (p : Player) (a : Address) : Option (List Row) :=
  match p.script with
  | some script => (script.lookup a).toOption
  | none => none

/-- The player with its session at this point. -/
def place (p : Player) (s : Session) (rows : List Row) (cursor : Nat) (phase : Phase) : Player :=
  { p with status := .live { s with progress := .within rows cursor phase } }

/-- Acts on the decision of the row under the cursor. -/
def decide (p : Player) (s : Session) (rows : List Row) (cursor : Nat) :
    Decision → Player × List Call
  | .proceed => (p.place s rows (cursor + 1) .entering, [])
  | .awaitReader => (p.place s rows cursor .reading, [.awaitReader])
  | .awaitChoice options => (p.place s rows cursor (.choosing options), [])
  | .handOver branch => (p.handOver s branch, [])
  | .stop => (p.finish s, [])

/-- Makes one effect. Every effect uses up one ticket. -/
def perform (stage : Stage) (p : Player) (s : Session) (rows : List Row) (cursor : Nat)
    (effect : Effect) (effects : List Effect) (decision : Decision) : Player × List Call :=
  let ticket : Ticket := ⟨s.generation, p.nextTicket⟩
  let call := effect.call ticket
  let phase :=
    if effect.waits ∧ stage call = .pending then .loading ticket effects decision
    else .acting effects decision
  ({ p.place s rows cursor phase with nextTicket := p.nextTicket + 1 }, [call])

/-- Enters the row under the cursor, or ends behind the last row. -/
def enter (p : Player) (s : Session) (rows : List Row) (cursor : Nat) : Player :=
  match rows[cursor]? with
  | some row =>
    (p.announce (.rowChanged (some row))).place s rows cursor
      (.acting row.cue.effects row.cue.decision)
  | none => p.finish s

/-- One unit of work of the live session, and the calls it makes: look the rows up, enter a row,
make one effect, or act on one decision. A session that waits does nothing. -/
def step (stage : Stage) (p : Player) : Player × List Call :=
  match p.status with
  | .live s =>
    match s.progress with
    | .opening =>
      match p.rowsAt? s.address with
      | some rows => (p.place s rows 0 .entering, [])
      | none => (p.finish s, [])
    | .within rows cursor .entering => (p.enter s rows cursor, [])
    | .within rows cursor (.acting (e :: es) d) => p.perform stage s rows cursor e es d
    | .within rows cursor (.acting [] d) => p.decide s rows cursor d
    | .within _ _ _ => (p, [])
  | _ => (p, [])

end Player

end Dialogue
