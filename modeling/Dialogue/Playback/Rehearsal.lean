import Dialogue.Playback.Host

/-!
# Rehearsals

A rehearsal is a host that answers from a prepared list and keeps a record of all that happens.

* Each question takes the next prepared answer; with none left the host leaves.
* A plain rehearsal waits for assets by itself and follows no events: neither is recorded.
-/

namespace Dialogue

/-- One thing that happened in a rehearsal. -/
inductive Happening where
  | call (call : Call)
  | event (event : Event)
  | question (question : Question)
deriving DecidableEq, Repr

/-- An answer prepared before the rehearsal. -/
inductive Prepared where
  | input (input : Input)
  /-- The last request for this asset is loaded. -/
  | loadedKey (key : String)
  /-- The request that was asked about last is loaded. -/
  | loadedAsked
deriving DecidableEq, Repr

/-- The world of a rehearsal. -/
structure Rehearsal where
  source : Fetch
  stage : Stage
  plain : Bool
  /-- The answers that are left. -/
  prepared : List Prepared
  /-- The requests for assets, the last one first. -/
  requests : List (String × Ticket) := []
  /-- The request that was asked about last. -/
  asked : Ticket := ⟨0, 0⟩
  /-- The flags under which rows were asked for. -/
  loads : List Bool := []
  record : List Happening := []

namespace Rehearsal

/-- The input that a prepared answer stands for. One about an asset that was never asked for is
leaving. -/
def inputOf (r : Rehearsal) : Prepared → Input
  | .input input => input
  | .loadedKey key =>
    match r.requests.lookup key with
    | some ticket => .loaded ticket
    | none => .exit
  | .loadedAsked => .loaded r.asked

def takeAnswer (r : Rehearsal) : Input × Rehearsal :=
  match r.prepared with
  | [] => (.exit, r)
  | a :: rest => (r.inputOf a, { r with prepared := rest })

def hear (r : Rehearsal) (q : Question) : Rehearsal :=
  { r with
    record := r.record ++ [.question q]
    asked := match q with
      | .asset ticket => ticket
      | _ => r.asked }

def ask (q : Question) (r : Rehearsal) : Input × Rehearsal :=
  match r.plain, q with
  | true, .asset ticket => (.loaded ticket, r)
  | _, q => (r.hear q).takeAnswer

/-- Answers with rows, and writes down how they were asked for. -/
def fetch (force : Bool) (r : Rehearsal) : Except SourceError (List Row) × Rehearsal :=
  (r.source force, { r with loads := r.loads ++ [force] })

def perform (calls : List Call) (r : Rehearsal) : Rehearsal :=
  { r with
    record := r.record ++ calls.map .call
    requests := (calls.filterMap Call.request?).reverse ++ r.requests }

/-- Writes an event down, unless the rehearsal is plain. -/
def notify (e : Event) (r : Rehearsal) : Rehearsal :=
  if r.plain then r else { r with record := r.record ++ [.event e] }

theorem takeAnswer_settles (r : Rehearsal) :
    r.takeAnswer.1 = .exit ∨ r.takeAnswer.2.prepared.length < r.prepared.length := by
  unfold takeAnswer
  split
  · exact Or.inl rfl
  · rename_i h
    exact Or.inr (by simp [h])

def host : Host Rehearsal where
  fetch := fetch
  stage := Rehearsal.stage
  perform := perform
  notify := notify
  ask := ask
  answers r := r.prepared.length
  answers_fetch_le _ _ := Nat.le_refl _
  answers_perform_le _ _ := Nat.le_refl _
  answers_notify_le e r := by unfold notify; split <;> exact Nat.le_refl _
  ask_settles q r := by
    unfold ask
    split
    · exact Or.inr (Or.inr ⟨rfl, Nat.le_refl _⟩)
    · exact (takeAnswer_settles (r.hear _)).imp_right Or.inl

/-- Plays an address in a rehearsal whose record begins anew. -/
def run (a : Address) (p : Player) (r : Rehearsal) :
    Except PlaybackError State × Player × Rehearsal :=
  host.run a p { r with record := [], loads := [] }

end Rehearsal

end Dialogue
