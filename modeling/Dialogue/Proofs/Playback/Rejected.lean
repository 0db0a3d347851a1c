import Dialogue.Proofs.Playback.HandOver

/-!
# Rejected operations

An operation is rejected if it is answered with an error, or with the word that nothing moved.
Every operation gives a controller back, rejected or not; that it is then the one that was there,
register by register, is what is shown here. Such an operation might as well not have been called.

* `Refused` lists the grounds on which a controller refuses an operation, each with the answer, and
  mentions only what can be seen of the controller and what the source says.
* `Refused.operate_eq`: an operation that is refused gives that answer and changes no register.
* `Controller.operate_feed`: an input that is fed does what the operation it stands for does, so it
  is refused on the same grounds.
* `Controller.Consistent.refused_of_rejects`: there are no other grounds.
  `Controller.rejected_changes_nothing` is about the runs in which a rejected operation stands.
-/

namespace Dialogue

namespace Operation.Reply

/-- The error that is given back, if one is. -/
def error? : Reply → Option PlaybackError
  | .script (.error e) | .done (.error e) | .chosen (.error e) => some e
  | _ => none

/-- Whether an operation with this answer is rejected. -/
def Rejects (reply : Reply) : Prop :=
  reply.error?.isSome ∨ reply = .moved false

@[simp] theorem rejects_moved_iff {moved : Bool} : (Reply.moved moved).Rejects ↔ moved = false := by
  simp [Rejects, error?]

@[simp] theorem rejects_script_iff {result : Except PlaybackError Script} :
    (Reply.script result).Rejects ↔ ∃ e, result = .error e := by
  cases result <;> simp [Rejects, error?]

@[simp] theorem rejects_done_iff {result : Except PlaybackError Unit} :
    (Reply.done result).Rejects ↔ ∃ e, result = .error e := by
  cases result <;> simp [Rejects, error?]

@[simp] theorem rejects_chosen_iff {result : Except PlaybackError Address} :
    (Reply.chosen result).Rejects ↔ ∃ e, result = .error e := by
  cases result <;> simp [Rejects, error?]

end Operation.Reply

/-- The operation that an input stands for. -/
def Input.operation (fetch : Fetch) : Input → Operation
  | .proceed => .advance
  | .choose index => .choose index
  | .jump a => .play fetch a
  | .loaded ticket => .complete ticket true
  | .refresh => .refresh fetch
  | .exit => .cancel

/-- Why a controller refuses an operation, and with which answer. -/
inductive Refused (c : Controller) : Operation → Operation.Reply → Prop
  /-- There is no script yet, and the source gives no rows for one. -/
  | load {fetch : Fetch} {e : SourceError} (hscript : c.script = none)
      (hfetch : fetch false = .error e) :
      Refused c (.load fetch) (.script (.error (.sourceUnavailable e)))
  | play {fetch : Fetch} {e : SourceError} (a : Address) (hscript : c.script = none)
      (hfetch : fetch false = .error e) :
      Refused c (.play fetch a) (.done (.error (.sourceUnavailable e)))
  /-- The source gives no rows past its caches, whatever the controller does. -/
  | refresh {fetch : Fetch} {e : SourceError} (hfetch : fetch true = .error e) :
      Refused c (.refresh fetch) (.done (.error (.sourceUnavailable e)))
  | notChoosing (index : Nat) (hstate : c.state ≠ .awaitingChoice) :
      Refused c (.choose index) (.chosen (.error .noPendingChoice))
  | noOption {index : Nat} (hstate : c.state = .awaitingChoice)
      (hindex : c.pendingChoices.length ≤ index) :
      Refused c (.choose index)
        (.chosen (.error (.invalidChoice index c.pendingChoices.length)))
  | advance (hstate : c.state ≠ .awaitingReader) : Refused c .advance (.moved false)
  /-- No session waits for this ticket. -/
  | complete {ticket : Ticket} (loaded : Bool)
      (hticket : ∀ s, c.session = some s → s.waitingOn ≠ some ticket) :
      Refused c (.complete ticket loaded) (.moved false)
  | cancel (hsession : c.session = none) : Refused c .cancel (.moved false)
  /-- The operation that the input stands for is refused with an error. -/
  | feed {fetch : Fetch} {input : Input} {reply : Operation.Reply} {e : PlaybackError}
      (hinput : Refused c (input.operation fetch) reply) (herror : reply.error? = some e) :
      Refused c (.feed fetch input) (.done (.error e))

variable {c : Controller} {op : Operation} {reply : Operation.Reply} {fetch : Fetch}

namespace Controller

/-! ## What the operations do where they fail -/

theorem load_of_error {e : SourceError} (hscript : c.script = none)
    (hfetch : fetch false = .error e) : c.load fetch = (.error (.sourceUnavailable e), c) := by
  simp only [load, hscript, hfetch]

theorem play_of_error {a : Address} {e : SourceError} (hscript : c.script = none)
    (hfetch : fetch false = .error e) : c.play fetch a = (.error (.sourceUnavailable e), c) := by
  simp only [play, load_of_error hscript hfetch]

theorem refresh_of_error {e : SourceError} (hfetch : fetch true = .error e) :
    c.refresh fetch = (.error (.sourceUnavailable e), c) := by
  simp only [refresh, hfetch]

theorem advance_of_not_awaited (h : c.state ≠ .awaitingReader) : c.advance = (false, c) :=
  if_pos h

theorem cancel_of_none (h : c.session = none) : c.cancel = (false, c) := by
  simp [cancel, supersede, h]

/-! ## And where they do something -/

theorem exists_error_of_load {e : PlaybackError} (h : (c.load fetch).1 = .error e) :
    ∃ cause, c.script = none ∧ fetch false = .error cause ∧ e = .sourceUnavailable cause := by
  unfold load at h
  split at h
  · cases h
  · rename_i hscript
    split at h
    · rename_i cause hcause
      cases h
      exact ⟨cause, hscript, hcause, rfl⟩
    · cases h

theorem exists_error_of_play {a : Address} {e : PlaybackError}
    (h : (c.play fetch a).1 = .error e) :
    ∃ cause, c.script = none ∧ fetch false = .error cause ∧ e = .sourceUnavailable cause := by
  unfold play at h
  split at h
  · rename_i e' _ hload
    cases h
    exact exists_error_of_load (congrArg Prod.fst hload)
  · cases h

theorem exists_error_of_refresh {e : PlaybackError} (h : (c.refresh fetch).1 = .error e) :
    ∃ cause, fetch true = .error cause ∧ e = .sourceUnavailable cause := by
  unfold refresh at h
  split at h
  · rename_i cause hcause
    cases h
    exact ⟨cause, hcause, rfl⟩
  · dsimp only at h
    split at h <;> cases h

theorem cancel_moved (c : Controller) : c.cancel.1 = c.session.isSome := by
  cases hs : c.session <;> simp [cancel, supersede, hs]

theorem Consistent.advance_moved (h : c.Consistent) (hstate : c.state = .awaitingReader) :
    c.advance.1 = true := by
  obtain ⟨s, hs⟩ := Option.isSome_iff_exists.1 (h.session_iff.2 (by simp [hstate]))
  simp [advance, hstate, hs]

theorem Consistent.complete_moved (h : c.Consistent) {s : Track} (hs : c.session = some s)
    {ticket : Ticket} (hticket : s.waitingOn = some ticket) (loaded : Bool) :
    (c.complete ticket loaded).1 = true := by
  have hstate := (h.track s hs).waitingOn_iff.1 (by simp [hticket])
  rw [complete_of_waiting hstate hs hticket]

/-- An input that is fed does what the operation it stands for does, and passes its error on. -/
theorem operate_feed (c : Controller) (fetch : Fetch) (input : Input) :
    c.operate (.feed fetch input) =
      (.done (match (c.operate (input.operation fetch)).1.error? with
        | some e => .error e
        | none => .ok ()), (c.operate (input.operation fetch)).2) := by
  cases input with
  | proceed | loaded | exit => rfl
  | jump a =>
    simp only [operate, feed, Input.operation, Operation.Reply.error?]
    cases (c.play fetch a).1 <;> rfl
  | refresh =>
    simp only [operate, feed, Input.operation, Operation.Reply.error?]
    cases (c.refresh fetch).1 <;> rfl
  | choose index =>
    simp only [operate, feed, Input.operation, Operation.Reply.error?]
    cases (c.choose index).1 <;> rfl

end Controller

/-! ## What is refused is rejected, and nothing else -/

/-- A controller that refuses an operation gives the answer and changes no register. -/
theorem Refused.operate_eq (hc : c.Consistent) (h : Refused c op reply) :
    c.operate op = (reply, c) := by
  induction h with
  | load hscript hfetch => simp only [Controller.operate, Controller.load_of_error hscript hfetch]
  | play a hscript hfetch =>
    simp only [Controller.operate, Controller.play_of_error hscript hfetch]
  | refresh hfetch => simp only [Controller.operate, Controller.refresh_of_error hfetch]
  | notChoosing index hstate =>
    simp only [Controller.operate, Controller.choose_of_not_awaited hstate]
  | noOption hstate hindex =>
    obtain ⟨s, hs, hchoices⟩ := hc.exists_session hstate
    rw [hchoices] at hindex ⊢
    have hnone := List.getElem?_eq_none_iff.2 hindex
    simp only [Controller.operate, Controller.choose_of_no_option hstate hs hnone]
  | advance hstate => simp only [Controller.operate, Controller.advance_of_not_awaited hstate]
  | complete loaded hticket =>
    simp only [Controller.operate, Controller.complete_of_not_waiting hticket]
  | cancel hsession => simp only [Controller.operate, Controller.cancel_of_none hsession]
  | feed _ herror ih => simp only [Controller.operate_feed, ih, herror]

theorem Refused.rejects (h : Refused c op reply) : reply.Rejects := by
  cases h with
  | advance | complete | cancel => exact Or.inr rfl
  | load | play | refresh | notChoosing | noOption | feed => exact Or.inl rfl

namespace Controller

theorem refused_play {a : Address} {e : PlaybackError} (h : (c.play fetch a).1 = .error e) :
    Refused c (.play fetch a) (.done (.error e)) := by
  obtain ⟨cause, hscript, hfetch, rfl⟩ := exists_error_of_play h
  exact .play a hscript hfetch

theorem refused_refresh {e : PlaybackError} (h : (c.refresh fetch).1 = .error e) :
    Refused c (.refresh fetch) (.done (.error e)) := by
  obtain ⟨cause, hfetch, rfl⟩ := exists_error_of_refresh h
  exact .refresh hfetch

theorem Consistent.refused_choose (hc : c.Consistent) {index : Nat} {e : PlaybackError}
    (h : (c.choose index).1 = .error e) : Refused c (.choose index) (.chosen (.error e)) := by
  by_cases hstate : c.state = .awaitingChoice
  · obtain ⟨s, hs, hchoices⟩ := hc.exists_session hstate
    cases hoption : s.choices[index]? with
    | some option =>
      rw [choose_of_option hstate hs hoption] at h
      cases h
    | none =>
      rw [choose_of_no_option hstate hs hoption] at h
      cases h
      rw [← hchoices] at hoption ⊢
      exact .noOption hstate (List.getElem?_eq_none_iff.1 hoption)
  · rw [choose_of_not_awaited hstate] at h
    cases h
    exact .notChoosing index hstate

/-- An operation that is rejected is refused on one of the grounds that `Refused` lists. -/
theorem Consistent.refused_of_rejects (hc : c.Consistent) (op : Operation)
    (h : (c.operate op).1.Rejects) : Refused c op (c.operate op).1 := by
  cases op with
  | pump | drain => simp [operate, Operation.Reply.Rejects, Operation.Reply.error?] at h
  | load fetch =>
    obtain ⟨e, he⟩ : ∃ e, (c.load fetch).1 = .error e := Operation.Reply.rejects_script_iff.1 h
    obtain ⟨cause, hscript, hfetch, rfl⟩ := exists_error_of_load he
    show Refused c _ (.script (c.load fetch).1)
    rw [he]
    exact .load hscript hfetch
  | play fetch a =>
    obtain ⟨e, he⟩ : ∃ e, (c.play fetch a).1 = .error e := Operation.Reply.rejects_done_iff.1 h
    show Refused c _ (.done (c.play fetch a).1)
    rw [he]
    exact refused_play he
  | refresh fetch =>
    obtain ⟨e, he⟩ : ∃ e, (c.refresh fetch).1 = .error e := Operation.Reply.rejects_done_iff.1 h
    show Refused c _ (.done (c.refresh fetch).1)
    rw [he]
    exact refused_refresh he
  | choose index =>
    obtain ⟨e, he⟩ : ∃ e, (c.choose index).1 = .error e := Operation.Reply.rejects_chosen_iff.1 h
    show Refused c _ (.chosen (c.choose index).1)
    rw [he]
    exact hc.refused_choose he
  | advance =>
    have hfalse : c.advance.1 = false := Operation.Reply.rejects_moved_iff.1 h
    show Refused c _ (.moved c.advance.1)
    rw [hfalse]
    refine .advance fun hstate => ?_
    simp [hc.advance_moved hstate] at hfalse
  | complete ticket loaded =>
    have hfalse : (c.complete ticket loaded).1 = false := Operation.Reply.rejects_moved_iff.1 h
    show Refused c _ (.moved (c.complete ticket loaded).1)
    rw [hfalse]
    refine .complete loaded fun s hs hticket => ?_
    simp [hc.complete_moved hs hticket] at hfalse
  | cancel =>
    have hfalse : c.cancel.1 = false := Operation.Reply.rejects_moved_iff.1 h
    show Refused c _ (.moved c.cancel.1)
    rw [hfalse]
    rw [cancel_moved] at hfalse
    exact .cancel (by simpa using hfalse)
  | feed fetch input =>
    obtain ⟨e, he⟩ : ∃ e, (c.feed fetch input).1 = .error e := Operation.Reply.rejects_done_iff.1 h
    show Refused c _ (.done (c.feed fetch input).1)
    rw [he]
    -- the inputs that stand for a rejection without an error are fed without one
    cases input with
    | proceed | loaded | exit => cases he
    | jump a => exact .feed (refused_play he) rfl
    | refresh => exact .feed (refused_refresh he) rfl
    | choose index =>
      have he : (c.choose index).1.map (fun _ => ()) = .error e := he
      cases hchoose : (c.choose index).1 with
      | ok a =>
        rw [hchoose] at he
        cases he
      | error e' =>
        rw [hchoose] at he
        cases he
        exact .feed (hc.refused_choose hchoose) rfl

/-! ## Runs with a rejected operation -/

theorem replies_append (c : Controller) (before later : List Operation) :
    c.replies (before ++ later) = c.replies before ++ (c.run before).replies later := by
  induction before generalizing c with
  | nil => rfl
  | cons op before ih =>
    rw [List.cons_append, replies, replies, ih]
    rfl

/-- An operation is rejected exactly on the grounds that `Refused` lists, in every reachable
controller. Then it gives back the very controller that it found, with all its registers: script,
session, state, counters, last played address, what is to be told, and the port with the calls that
came through it. So whatever comes later, the run ends with the same controller and gives the same
answers as the run without the operation, but for its own. An input whose operation is rejected does
nothing either, even where that is no error. -/
theorem rejected_changes_nothing (stage : Stage) (before : List Operation) (op : Operation) :
    let c := after stage before
    let result := c.operate op
    (∀ reply, result.1 = reply ∧ reply.Rejects ↔ Refused c op reply) ∧
    (result.1.Rejects → result.2 = c ∧ ∀ later,
      after stage (before ++ op :: later) = after stage (before ++ later) ∧
      (new stage).replies (before ++ later) = (new stage).replies before ++ c.replies later ∧
      (new stage).replies (before ++ op :: later) =
        (new stage).replies before ++ result.1 :: c.replies later) ∧
    ∀ fetch input, (c.operate (input.operation fetch)).1.Rejects →
      (c.operate (.feed fetch input)).2 = c := by
  intro c result
  have hc : c.Consistent := consistent_after stage before
  refine ⟨?grounds, ?nothing, ?fed⟩
  case grounds =>
    intro reply
    constructor
    · rintro ⟨rfl, hrejects⟩
      exact hc.refused_of_rejects op hrejects
    · intro hrefused
      exact ⟨congrArg Prod.fst (hrefused.operate_eq hc), hrefused.rejects⟩
  case nothing =>
    intro hrejects
    have hsame : result.2 = c :=
      congrArg Prod.snd ((hc.refused_of_rejects op hrejects).operate_eq hc)
    refine ⟨hsame, fun later => ⟨?after, ?without, ?withIt⟩⟩
    case after =>
      rw [after, after, run_append, run_append]
      exact congrArg (·.run later) hsame
    case without => exact replies_append _ _ _
    case withIt =>
      have hlater : c.replies (op :: later) = result.1 :: c.replies later :=
        congrArg (fun d => result.1 :: replies d later) hsame
      rw [replies_append, ← hlater]
      rfl
  case fed =>
    intro fetch input hrejects
    rw [operate_feed, (hc.refused_of_rejects _ hrejects).operate_eq hc]

end Controller

end Dialogue
