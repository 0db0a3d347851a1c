import Dialogue.Playback.Host
import Dialogue.Source.Basic
import Dialogue.Terminal.Display
import Dialogue.Terminal.Reply

/-!
# The console

A terminal as a host: it prints what the player shows, reads what the reader types, and takes the
rows from a source among its files.

* Each line that is read is used up, so a reader who types no more leaves at the next prompt.
* Where the console goes on by itself, it reads lines at choices only.
* `left` says how the reader left.
-/

namespace Dialogue

open Files Terminal

/-- How a reader leaves. -/
inductive Leaving where
  /-- Nothing more is typed. -/
  | endOfInput
  /-- What is typed is no text. -/
  | unreadable
  /-- The reader asks to leave. -/
  | wish
deriving DecidableEq, Repr

/-- A terminal and the files around it. -/
structure Console where
  source : Source
  tree : Tree
  /-- Whether the console goes on by itself where the reader is awaited. -/
  autoAdvance : Bool
  /-- The lines that are typed and not read yet. -/
  lines : List (Option String)
  /-- What is printed. -/
  printed : String := ""
  left : Option Leaving := none

namespace Console

def print (s : String) (c : Console) : Console :=
  { c with printed := c.printed ++ s }

def printLines (lines : List String) (c : Console) : Console :=
  lines.foldl (fun c line => c.print (line ++ "\n")) c

def leave (how : Leaving) (rest : List (Option String)) (c : Console) : Input × Console :=
  (.exit, { c with lines := rest, left := some how })

/-- Asks with a prompt until a line is understood. -/
def readReply (sign : String) (understand : String → Reply) :
    List (Option String) → Console → Input × Console
  | [], c => (c.print sign).leave .endOfInput []
  | none :: rest, c => (c.print sign).leave .unreadable rest
  | some line :: rest, c =>
    match understand (Text.strip line) with
    | .input input => (input, { c.print sign with lines := rest })
    | .leave => (c.print sign).leave .wish rest
    | .refused notes => readReply sign understand rest ((c.print sign).printLines notes)

def ask (q : Question) (c : Console) : Input × Console :=
  match q with
  | .asset ticket => (.loaded ticket, c)
  | .proceed => if c.autoAdvance then (.proceed, c) else readReply "> " proceedReply c.lines c
  | .choice options => readReply "Select> " (choiceReply options.length) c.lines c

def fetch (force : Bool) (c : Console) : Except SourceError (List Row) × Console :=
  let loading := c.source.load force c.tree
  (loading.result, { c with tree := loading.tree })

def perform (calls : List Call) (c : Console) : Console :=
  c.printLines (calls.flatMap Call.lines)

def notify (e : Event) (c : Console) : Console :=
  c.printLines e.lines

/-! ## Lines are only used up by reading them -/

@[simp] theorem lines_printLines (lines : List String) (c : Console) :
    (c.printLines lines).lines = c.lines := by
  unfold printLines
  induction lines generalizing c with
  | nil => rfl
  | cons line lines ih => exact ih _

theorem readReply_settles (sign : String) (understand : String → Reply)
    (lines : List (Option String)) (c : Console) :
    (readReply sign understand lines c).1 = .exit ∨
      (readReply sign understand lines c).2.lines.length < lines.length := by
  fun_induction readReply sign understand lines c with
  | case1 | case2 | case4 => exact Or.inl rfl
  | case3 => exact Or.inr (Nat.lt_succ_self _)
  | case5 _ _ _ _ _ ih => exact ih.imp_right Nat.lt_succ_of_lt

/-- The console as a host. All assets are there at once. -/
def host : Host Console where
  fetch := fetch
  stage _ := readyStage
  perform := perform
  notify := notify
  ask := ask
  answers c := c.lines.length
  answers_fetch_le _ _ := Nat.le_refl _
  answers_perform_le _ _ := by simp [perform]
  answers_notify_le _ _ := by simp [notify]
  ask_settles q c := by
    unfold ask
    split
    · exact Or.inr (Or.inr ⟨rfl, Nat.le_refl _⟩)
    · split
      · exact Or.inr (Or.inr ⟨rfl, Nat.le_refl _⟩)
      · exact (readReply_settles ..).imp_right Or.inl
    · exact (readReply_settles ..).imp_right Or.inl

/-- Loads the script again, past every cache. -/
def refresh (p : Player) (c : Console) : Except PlaybackError Player × Console :=
  let (fetch, c) := host.supply (some true) c
  (p.refresh fetch, c)

/-- Loads the script, unless it is loaded. -/
def load (p : Player) (c : Console) : Except PlaybackError (Script × Player) × Console :=
  let (fetch, c) := host.supply (if p.script.isNone then some false else none) c
  ((p.load fetch).mapError .sourceUnavailable, c)

end Console

end Dialogue
