import Dialogue.Proofs.Playback.Onward

/-!
# What an operation leads to

`Player.Leads` lists the players to which one operation can lead, other than a pump and a drain.
Where something holds of every operation, the cases are these and not those of the interface, in
which a feed does again what other operations do.

* `Player.operate_leads`: the list is complete.
* `Player.Leads.script_eq`: a script that is loaded stays, unless the operation is a refresh.
* `Player.Leads.live`: a live session stays live, or another one begins in its place, unless it is
  canceled.
-/

namespace Dialogue

/-- Whether an operation is a refresh, or feeds the input for one, and succeeds. -/
def Operation.refreshes (p : Player) : Operation → Prop
  | .refresh fetch | .feed fetch .refresh => ∃ q, p.refresh fetch = .ok q
  | _ => False

/-- Whether an operation is a cancel, or feeds the input for one. -/
def Operation.cancels : Operation → Prop
  | .cancel | .feed _ .exit => True
  | _ => False

namespace Player

variable {p q : Player} {script : Script} {op : Operation}

/-- The players to which an operation leads that is no pump and no drain. -/
inductive Leads (p : Player) (op : Operation) : Player → Prop
  | same : Leads p op p
  | loaded (script : Script) (hnone : p.script = none) : Leads p op (p.withScript script)
  | restarted {script : Script} (a : Address)
      (hscript : p.script = some script ∨ p.script = none ∨ op.refreshes p) :
      Leads p op ((p.cancel.withScript script).start a)
  | refreshed (script : Script) (hop : op.refreshes p) (hlast : p.lastPlayed = none) :
      Leads p op (p.cancel.withScript script)
  | canceled (hop : op.cancels) : Leads p op p.cancel
  | handedOver {s : Session} (hs : p.status = .live s) (branch : Int32) :
      Leads p op (p.handOver s branch)
  | placed {s : Session} {phase : Phase} (hs : p.status = .live s) (rows : List Row)
      (cursor : Nat) (hphase : phase.state = .playing) :
      Leads p op (p.place s rows cursor phase)

namespace Leads

theorem load {fetch : Fetch} (h : p.load fetch = .ok (script, q)) : Leads p op q := by
  rcases load_ok h with ⟨_, rfl⟩ | ⟨hnone, rfl⟩
  · exact .same
  · exact .loaded script hnone

theorem play {fetch : Fetch} {a : Address} (h : p.play fetch a = .ok q) : Leads p op q := by
  obtain ⟨script, r, hload, rfl⟩ := play_ok h
  rw [cancel_of_load hload]
  refine .restarted a ?_
  rcases load_ok hload with ⟨hscript, _⟩ | ⟨hnone, _⟩
  · exact Or.inl hscript
  · exact Or.inr (Or.inl hnone)

theorem refresh {fetch : Fetch} (h : p.refresh fetch = .ok q) (hop : op.refreshes p) :
    Leads p op q := by
  obtain ⟨rows, _, ⟨hlast, rfl⟩ | ⟨a, _, rfl⟩⟩ := refresh_ok h
  · exact .refreshed _ hop hlast
  · exact .restarted a (Or.inr (Or.inr hop))

theorem advance (h : p.advance = some q) : Leads p op q := by
  obtain ⟨s, rows, cursor, hs, _, rfl⟩ := advance_some h
  exact .placed hs _ _ rfl

theorem complete {t : Ticket} {loaded : Bool} (h : p.complete t loaded = some q) :
    Leads p op q := by
  obtain ⟨s, rows, cursor, es, d, hs, _, rfl⟩ := complete_some h
  exact .placed hs _ _ rfl

theorem choose {index : Nat} {a : Address} (h : p.choose index = .ok (a, q)) : Leads p op q := by
  obtain ⟨s, rows, cursor, options, option, hs, _, _, _, rfl⟩ := choose_ok h
  exact .handedOver hs _

theorem getD (result : Option Player) (h : ∀ q, result = some q → Leads p op q) :
    Leads p op (result.getD p) := by
  cases result with
  | none => exact .same
  | some q => exact h q rfl

theorem attempt (result : Except PlaybackError Player) (h : ∀ q, result = .ok q → Leads p op q) :
    Leads p op (p.attempt result).player := by
  cases result with
  | error e => exact .same
  | ok q => exact h q rfl

end Leads

/-- An operation that is no pump and no drain leads to one of these players. -/
theorem operate_leads (hpump : ∀ stage, op ≠ .pump stage) (hdrain : op ≠ .drain) (p : Player) :
    p.Leads op (p.operate op).player := by
  cases op with
  | pump stage => exact absurd rfl (hpump stage)
  | drain => exact absurd rfl hdrain
  | cancel => exact .canceled trivial
  | play fetch a => exact .attempt _ fun q => .play
  | refresh fetch => exact .attempt _ fun q hq => .refresh hq ⟨q, hq⟩
  | advance => exact .getD _ fun q => .advance
  | complete t loaded => exact .getD _ fun q => .complete
  | load fetch =>
    simp only [operate]
    cases hload : p.load fetch with
    | error e => exact .same
    | ok loaded => exact .load hload
  | choose index =>
    simp only [operate]
    cases hchoose : p.choose index with
    | error e => exact .same
    | ok chosen => exact .choose hchoose
  | feed fetch input =>
    refine .attempt _ fun q hq => ?_
    cases input with
    | jump a => exact .play hq
    | refresh => exact .refresh hq ⟨q, hq⟩
    | proceed =>
      cases hq
      exact .getD _ fun q => .advance
    | loaded t =>
      cases hq
      exact .getD _ fun q => .complete
    | exit =>
      cases hq
      exact .canceled trivial
    | choose index =>
      cases hchoose : p.choose index with
      | error e => simp [feed, hchoose, Except.map] at hq
      | ok chosen =>
        simp only [feed, hchoose, Except.map, Except.ok.injEq] at hq
        exact hq ▸ .choose hchoose

/-- Only a refresh puts another script in place of one that is loaded. -/
theorem Leads.script_eq (h : p.Leads op q) (hscript : p.script = some script)
    (hop : ¬ op.refreshes p) : q.script = some script := by
  cases h with
  | same => exact hscript
  | loaded script' hnone => simp [hscript] at hnone
  | restarted a hwhence =>
    rcases hwhence with hsame | hnone | hrefreshes
    · exact hsame.symm.trans hscript
    · simp [hscript] at hnone
    · exact absurd hrefreshes hop
  | refreshed script' hrefreshes _ => exact absurd hrefreshes hop
  | canceled => exact (script_cancel p).trans hscript
  | handedOver | placed => exact hscript

/-- Only a pump tells of rows. -/
theorem Leads.shown (h : p.Leads op q) {row : Row} (hrow : row.shown ∈ q.events) :
    row.shown ∈ p.events := by
  have hcancel : row.shown ∈ p.cancel.events → row.shown ∈ p.events := by
    cases hs : p.status <;> simp [cancel, hs, announce, Row.shown]
  cases h with
  | same | loaded | placed => exact hrow
  | restarted | refreshed | canceled => exact hcancel hrow
  | handedOver => simpa [handOver, start, announce, Row.shown] using hrow

/-- A live session stays live, or another one begins in its place, unless it is canceled. -/
theorem Leads.live (h : p.Leads op q) (hsound : p.Sound) (hlive : ∃ s, p.status = .live s)
    (hop : ¬ op.cancels) : ∃ s, q.status = .live s := by
  cases h with
  | same | loaded => exact hlive
  | restarted | handedOver | placed => exact ⟨_, rfl⟩
  | canceled hcancels => exact absurd hcancels hop
  | refreshed script' _ hlast =>
    -- a live session was played
    obtain ⟨s, hs⟩ := hlive
    rw [hsound.lastPlayed s hs] at hlast
    cases hlast

end Player

end Dialogue
