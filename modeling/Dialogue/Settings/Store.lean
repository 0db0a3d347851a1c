import Dialogue.Files.Tree
import Dialogue.Settings.Section
import Dialogue.Toml.Document

/-!
# The settings store

The settings of a program are read once. Every later question is answered from that one reading,
and before it from the defaults.

* A missing file and a text with a fault in it both fill the store with nothing.
* A file that cannot be read, and a second filling, fail and leave the store as it is.
* A section that is missing, or that is not of the kind asked for, is the default of that kind.
-/

namespace Dialogue.Settings

open Files

/-- Why the store was not filled. -/
inductive StoreError where
  | unreadable (cause : FileError)
  | alreadyFilled
deriving DecidableEq, Repr

def StoreError.message : StoreError → String
  | unreadable cause => cause.message
  | alreadyFilled => "Config already initialized"

/-- The settings of a program, once they are read. -/
structure Store where
  sections : Option Toml.Members := none
deriving Repr, Inhabited

namespace Store

def isFilled (s : Store) : Bool :=
  s.sections.isSome

def fill (text : String) (s : Store) : Except StoreError Store :=
  if s.isFilled then .error .alreadyFilled
  else .ok ⟨some ((Toml.ofText? text).getD [])⟩

/-- The text of a settings file, which is empty if there is none. -/
def textAt (t : Tree) (path : String) : Except FileError String :=
  if t.exists? path then t.readText path else .ok ""

def fillFrom (t : Tree) (path : String) (s : Store) : Except StoreError Store :=
  match textAt t path with
  | .ok text => s.fill text
  | .error cause => .error (.unreadable cause)

/-- What is set under a name, as the kind that `read?` reads. -/
def get (read? : Toml → Option α) (default : α) (name : String) (s : Store) : α :=
  (((s.sections.getD []).lookup name).bind read?).getD default

def system (s : Store) : SystemSection :=
  s.get SystemSection.ofToml? {} "system"

def playback (s : Store) : PlaybackSection :=
  s.get PlaybackSection.ofToml? {} "playback"

end Store

end Dialogue.Settings
