import Dialogue.Proofs.Playback.Reachable
import Dialogue.Proofs.Playback.Runs
import Dialogue.Proofs.Terminal.Prompts

/-!
# Playing at a console

How a run at a console ends, whatever is typed and whatever rows are given for the script.

* `Host.AtConsole` says that a host asks its questions at a console. `Host.supplied` is a host with
  another source of rows, one that may give others each time, or none.
* `Operation.Fits`: an answer fits a player if it chooses nothing but an option that is pending, and
  is refused for no reason but the source.
* `Host.AtConsole.left_iff` and `Host.AtConsole.fits` go round by round, `Host.AtConsole.run_cases`
  is for a whole run.
* `Console.run_completed_or_canceled` puts this together for every source of rows.
-/

namespace Dialogue

/-! ## Answers that fit -/

/-- An answer to a player chooses only an option that is pending, and can be refused only for want
of rows. -/
def Operation.Fits (p : Player) : Operation → Prop
  | .feed fetch answer =>
    (∀ index, answer = .choose index →
      p.state = .awaitingChoice ∧ index < p.pendingChoices.length) ∧
    ∀ e, p.feed fetch answer = .error e → ∃ cause, e = .sourceUnavailable cause
  | _ => True

namespace Player

variable {p : Player} {op : Operation} {ops : List Operation}

/-- Each operation has a property, seen with the player that it finds. -/
def Each (P : Player → Operation → Prop) (p : Player) (ops : List Operation) : Prop :=
  ∀ before op later, ops = before ++ op :: later → P (p.run before) op

theorem each_nil (P : Player → Operation → Prop) (p : Player) : p.Each P [] := by
  intro before op later h
  simp at h

theorem Each.cons {P : Player → Operation → Prop} (hop : P p op)
    (hops : (p.operate op).player.Each P ops) : p.Each P (op :: ops) := by
  intro before op' later h
  cases before with
  | nil =>
    cases h
    exact hop
  | cons first before =>
    obtain ⟨rfl, hrest⟩ := List.cons.inj h
    exact hops before op' later hrest

/-- The questions that a run finds where it gives its answers. -/
def questions (p : Player) (ops : List Operation) : List Question :=
  p.along (fun p op => if op.answer?.isSome then p.question?.toList else []) ops

theorem questions_pass (h : op.answer? = none) :
    p.questions (op :: ops) = (p.operate op).player.questions ops := by
  simp [questions, along, h]

theorem questions_answer {question : Question} {answer : Input} (h : op.answer? = some answer)
    (hwaits : p.question? = some question) :
    p.questions (op :: ops) = question :: (p.operate op).player.questions ops := by
  simp [questions, along, h, hwaits]

theorem awaitingChoice_of_question {options : List Choice}
    (h : p.question? = some (.choice options)) :
    p.state = .awaitingChoice ∧ p.pendingChoices = options := by
  obtain ⟨s, hs⟩ := live_of_question h
  simp only [question?, hs] at h
  split at h
  · cases h
  · rename_i rows cursor options' hp
    cases h
    simp [state, pendingChoices, hs, Session.state, Session.pendingChoices, Phase.state, hp]
  · cases h
  · cases h

theorem exists_choosing (h : p.state = .awaitingChoice) :
    ∃ s rows cursor, p.status = .live s ∧
      s.progress = .within rows cursor (.choosing p.pendingChoices) := by
  cases hs : p.status with
  | idle | completed | canceled => simp [Player.state, hs] at h
  | live s =>
    have hchoices : p.pendingChoices = s.pendingChoices := by simp [pendingChoices, hs]
    rw [state_live hs] at h
    rw [hchoices]
    rcases s.state_cases with hstate | hstate | ⟨_, hstate⟩ | ⟨⟨rows, cursor, hp⟩, _⟩
    · simp [hstate.1] at h
    · simp [hstate.1] at h
    · simp [hstate.1] at h
    · exact ⟨s, rows, cursor, rfl, hp⟩

theorem exists_choose_ok {index : Nat} (hstate : p.state = .awaitingChoice)
    (hindex : index < p.pendingChoices.length) : ∃ result, p.choose index = .ok result := by
  obtain ⟨s, rows, cursor, hs, hp⟩ := exists_choosing hstate
  simp [choose, hs, hp, List.getElem?_eq_getElem hindex]

/-- An answer that chooses only what is pending is refused only for want of rows. -/
theorem fits_feed (fetch : Fetch) {answer : Input}
    (hchoose : ∀ index, answer = .choose index →
      p.state = .awaitingChoice ∧ index < p.pendingChoices.length) :
    Operation.Fits p (.feed fetch answer) := by
  refine ⟨hchoose, fun e he => ?_⟩
  cases answer with
  | proceed | loaded | exit => cases he
  | choose index =>
    obtain ⟨hstate, hindex⟩ := hchoose index rfl
    obtain ⟨result, hok⟩ := exists_choose_ok hstate hindex
    simp [feed, hok, Except.map] at he
  | jump a =>
    obtain ⟨cause, _, _, hcause⟩ := play_error he
    exact ⟨cause, hcause⟩
  | refresh =>
    simp only [feed, refresh] at he
    split at he
    · split at he <;> cases he
    · rename_i cause _
      exact ⟨cause, (Except.error.inj he).symm⟩

end Player

/-! ## Hosts at a console -/

/-- Nothing is read from one console to the other, and both go on by themselves or both do not. -/
structure Console.SameInput (c d : Console) : Prop where
  autoAdvance : d.autoAdvance = c.autoAdvance
  lines : d.lines = c.lines

namespace Console

variable {b c d : Console}

theorem SameInput.refl (c : Console) : c.SameInput c := ⟨rfl, rfl⟩

theorem SameInput.trans (h : b.SameInput c) (h' : c.SameInput d) : b.SameInput d :=
  ⟨h'.autoAdvance.trans h.autoAdvance, h'.lines.trans h.lines⟩

theorem sameInput_printLines (lines : List String) (c : Console) :
    c.SameInput (c.printLines lines) :=
  ⟨autoAdvance_printLines lines c, lines_printLines lines c⟩

end Console

namespace Host

open Terminal

variable {World : Type}

/-- The world shows a console, at which the host asks all its questions, and from which it reads
nothing else. -/
structure AtConsole (h : Host World) (view : World → Console) : Prop where
  ask : ∀ q w, ((h.ask q w).1, view (h.ask q w).2) = (view w).ask q
  fetch : ∀ force w, (view w).SameInput (view (h.fetch force w).2)
  perform : ∀ calls w, (view w).SameInput (view (h.perform calls w))
  notify : ∀ event w, (view w).SameInput (view (h.notify event w))

/-- The host with another source of rows. What the source gives may depend on whatever it keeps. -/
def supplied {Rows : Type} (h : Host World)
    (give : Bool → Rows → Except SourceError (List Row) × Rows) : Host (World × Rows) where
  fetch force w := ((give force w.2).1, w.1, (give force w.2).2)
  stage w := h.stage w.1
  perform calls w := (h.perform calls w.1, w.2)
  notify event w := (h.notify event w.1, w.2)
  ask q w := ((h.ask q w.1).1, (h.ask q w.1).2, w.2)
  answers w := h.answers w.1
  answers_fetch_le _ _ := Nat.le_refl _
  answers_perform_le calls w := h.answers_perform_le calls w.1
  answers_notify_le event w := h.answers_notify_le event w.1
  ask_settles q w := h.ask_settles q w.1

/-- The console of the terminal asks at itself. -/
theorem atConsole_console : Console.host.AtConsole id where
  ask _ _ := rfl
  fetch _ _ := ⟨rfl, rfl⟩
  perform _ c := Console.sameInput_printLines _ c
  notify _ c := Console.sameInput_printLines _ c

theorem AtConsole.supplied {Rows : Type} {h : Host World} {view : World → Console}
    (hat : h.AtConsole view) (give : Bool → Rows → Except SourceError (List Row) × Rows) :
    (h.supplied give).AtConsole (view ∘ Prod.fst) where
  ask q w := hat.ask q w.1
  fetch _ _ := .refl _
  perform calls w := hat.perform calls w.1
  notify event w := hat.notify event w.1

namespace AtConsole

variable {h : Host World} {view : World → Console} {p q p' : Player} {w v u t w' : World}
  {question : Question} {answer : Input} {ops : List Operation}

/-! ## One round -/

theorem deliver (hat : h.AtConsole view) (hdeliver : h.deliver p w = (q, v)) :
    (view w).SameInput (view v) := by
  cases hdeliver
  -- one event after the other is told, from every world on
  suffices hfold : ∀ (events : List Event) (w : World),
      (view w).SameInput (view (events.foldl (fun w event => h.notify event w) w)) from hfold _ w
  intro events
  induction events with
  | nil => exact fun w => .refl _
  | cons event events ih => exact fun w => (hat.notify event w).trans (ih _)

theorem turn (hat : h.AtConsole view) (hturn : h.turn p w = (q, v)) :
    (view w).SameInput (view v) :=
  (hat.perform _ w).trans (hat.deliver hturn)

theorem give (hat : h.AtConsole view) (hgive : h.give answer p w = (q, v)) :
    (view w).SameInput (view v) := by
  rw [give_eq] at hgive
  obtain rfl := congrArg Prod.snd hgive
  cases hneed : p.asks answer with
  | none => exact .refl _
  | some force => exact hat.fetch force w

/-- What is answered is what is read at the console that the turn leaves. -/
theorem asked (hat : h.AtConsole view) (hturn : h.turn p w = (q, v))
    (hask : h.ask question v = (answer, u)) :
    (answer = .exit ↔
      ∃ m ∈ metAt (view w).autoAdvance question (view w).lines, m.Leaves) ∧
    (view u).autoAdvance = (view w).autoAdvance ∧
    (view u).lines = unreadAt (view w).autoAdvance question (view w).lines := by
  have hsame := hat.turn hturn
  have hview := hat.ask question v
  rw [hask] at hview
  have hanswer : answer = ((view v).ask question).1 := congrArg Prod.fst hview
  have hleft : view u = ((view v).ask question).2 := congrArg Prod.snd hview
  rw [hanswer, hleft, ← hsame.autoAdvance, ← hsame.lines]
  exact ⟨Console.ask_exit_iff .., Console.autoAdvance_ask .., Console.lines_ask ..⟩

/-- An answer that is read is to the question that is asked. -/
theorem choose (hat : h.AtConsole view) (hwaits : q.question? = some question)
    (hask : h.ask question v = (answer, u)) :
    ∀ index, answer = .choose index →
      q.state = .awaitingChoice ∧ index < q.pendingChoices.length := by
  rintro index rfl
  have hview := hat.ask question v
  rw [hask] at hview
  obtain ⟨options, rfl, hindex⟩ := Console.choose_of_ask (congrArg Prod.fst hview).symm
  obtain ⟨hstate, rfl⟩ := Player.awaitingChoice_of_question hwaits
  exact ⟨hstate, hindex⟩

/-! ## All rounds -/

/-- The questions of a round are that of the player after the turn, and those of the rest. -/
theorem questions_round (hturn : h.turn p w = (q, v)) (hwaits : q.question? = some question)
    {op : Operation} (hop : op.answer? = some answer) :
    p.questions (.pump (h.stage w) :: .drain :: op :: ops) =
      question :: (q.operate op).player.questions ops := by
  obtain rfl := player_of_turn hturn
  rw [Player.questions_pass rfl, Player.questions_pass rfl]
  exact Player.questions_answer hop hwaits

/-- The last answer is to leave just where some prompt met something that leaves. -/
theorem left_iff (hat : h.AtConsole view) (hr : h.Rounds p w ops p' w') :
    (ops.filterMap Operation.answer?).getLast? = some .exit ↔
      ∃ m ∈ metAll (view w).autoAdvance (p.questions ops) (view w).lines, m.Leaves := by
  induction hr with
  | @ended p q w v hturn hover =>
    have hnone : p.questions [.pump (h.stage w), .drain] = [] := rfl
    rw [hnone]
    exact iff_of_false nofun nofun
  | @left p q p' w v u w' question hturn hwaits hask hdeliver =>
    have hone : p.questions [.pump (h.stage w), .drain, .cancel, .drain] = [question] :=
      questions_round hturn hwaits rfl
    obtain ⟨m, hm, hleaves⟩ := (hat.asked hturn hask).1.1 rfl
    rw [hone]
    exact iff_of_true rfl ⟨m, List.mem_append_left _ hm, hleaves⟩
  | @next p q r p' w v u t w' question answer ops hturn hwaits hask hstays hgive _ ih =>
    obtain ⟨hexit, hauto, hlines⟩ := hat.asked hturn hask
    have hsame := hat.give hgive
    have hr : r = (q.operate (.feed (h.rows u) answer)).player := player_of_give hgive
    have hnext : metAll (view t).autoAdvance (r.questions ops) (view t).lines =
        metAll (view w).autoAdvance (r.questions ops)
          (unreadAt (view w).autoAdvance question (view w).lines) := by
      rw [hsame.autoAdvance, hsame.lines, hauto, hlines]
    have hlast : ((.pump (h.stage w) :: .drain :: .feed (h.rows u) answer :: ops).filterMap
        Operation.answer?).getLast? = some .exit ↔
        (ops.filterMap Operation.answer?).getLast? = some .exit := by
      show (answer :: ops.filterMap Operation.answer?).getLast? = _ ↔ _
      rw [List.getLast?_cons]
      cases (ops.filterMap Operation.answer?).getLast? <;> simp [hstays]
    have hnone : ¬ ∃ m ∈ metAt (view w).autoAdvance question (view w).lines, m.Leaves :=
      fun hleaves => hstays (hexit.2 hleaves)
    rw [hlast, ih, questions_round hturn hwaits rfl, ← hr, metAll, hnext]
    constructor
    · rintro ⟨m, hm, hleaves⟩
      exact ⟨m, List.mem_append_right _ hm, hleaves⟩
    · rintro ⟨m, hm, hleaves⟩
      rcases List.mem_append.1 hm with hm | hm
      · exact absurd ⟨m, hm, hleaves⟩ hnone
      · exact ⟨m, hm, hleaves⟩

/-- All answers fit the player that they are given. -/
theorem fits (hat : h.AtConsole view) (hr : h.Rounds p w ops p' w') :
    p.Each Operation.Fits ops := by
  induction hr with
  | ended => exact .cons trivial (.cons trivial (Player.each_nil _ _))
  | left =>
    exact .cons trivial (.cons trivial (.cons trivial (.cons trivial (Player.each_nil _ _))))
  | next hturn hwaits hask hstays hgive _ ih =>
    obtain rfl := player_of_turn hturn
    obtain rfl := player_of_give hgive
    exact .cons trivial (.cons trivial (.cons (Player.fits_feed _ (hat.choose hwaits hask)) ih))

end AtConsole

/-! ## A whole run -/

/-- How a run at a console comes out that plays an address. -/
structure PlaysAt (h : Host World) (c : Console) (begun : Player) (w : World) (ops : List Operation)
    (state : State) (q : Player) (w' : World) : Prop where
  /-- It comes to its end after finitely many rounds. -/
  rounds : h.Rounds begun w ops q w'
  state_eq : q.state = state
  ends : state = .completed ∨ state = .canceled
  canceled_iff : state = .canceled ↔
    ∃ m ∈ metAll c.autoAdvance (begun.questions ops) c.lines, m.Leaves
  fits : begun.Each Operation.Fits ops

/-- A run at a console fails where the script cannot be loaded, else it plays to an end. -/
theorem AtConsole.run_cases {h : Host World} {view : World → Console} (hat : h.AtConsole view)
    (a : Address) (p : Player) (w : World) :
    (∃ cause, p.load (h.rows w) = .error cause ∧
      h.run a p w = (.error (.sourceUnavailable cause), p, (h.fetch false w).2)) ∨
    ∃ begun ops state q w', p.play (h.rows w) a = .ok begun ∧
      h.run a p w = (.ok state, q, w') ∧
      h.PlaysAt (view w) begun (h.supply (p.asks (.jump a)) w).2 ops state q w' := by
  cases hplay : p.play (h.rows w) a with
  | error e =>
    obtain ⟨cause, hscript, hrows, rfl, hrun, _⟩ := run_unloaded hplay
    exact Or.inl ⟨cause, by simp [Player.load, hscript, hrows], hrun⟩
  | ok begun =>
    obtain ⟨hsound, hlive⟩ := Player.sound_of_play hplay
    obtain ⟨ops, hrounds⟩ := h.rounds_loop begun (h.supply (p.asks (.jump a)) w).2
    have hstate := hrounds.state hsound hlive
    have hsame : (view w).SameInput (view (h.supply (p.asks (.jump a)) w).2) := by
      cases p.asks (.jump a) with
      | none => exact .refl _
      | some force => exact hat.fetch force w
    have hleft := hat.left_iff hrounds
    rw [hsame.autoAdvance, hsame.lines] at hleft
    refine Or.inr ⟨begun, ops, _, _, _, rfl, run_of_played hplay, hrounds, rfl, ?_, ?_,
      hat.fits hrounds⟩
    · rw [hstate]
      split
      · exact Or.inr rfl
      · exact Or.inl rfl
    · rw [← hleft, hstate]
      split_ifs with hexit
      · exact iff_of_true rfl hexit
      · exact iff_of_false (by simp) hexit

end Host

/-- From every player on, a run at a console comes to an end, whatever is typed there, whether or
not the console goes on by itself, and whatever rows the source gives, other ones each time or none.
Where the script cannot be loaded, nothing is played. Else the run ends completed or canceled, the
latter just where a prompt met the end of the input, a line that is no text, or `exit`; and every
choice that is fed is one of the options pending, so only the source can be a reason to refuse an
answer. -/
theorem Console.run_completed_or_canceled {Rows : Type}
    (give : Bool → Rows → Except SourceError (List Row) × Rows) (a : Address) (p : Player)
    (c : Console) (rows : Rows) :
    let h := Console.host.supplied give
    (∀ cause, p.load (h.rows (c, rows)) = .error cause →
      h.run a p (c, rows) = (.error (.sourceUnavailable cause), p, c, (give false rows).2)) ∧
    ∀ loaded, p.load (h.rows (c, rows)) = .ok loaded →
      ∃ begun ops state q w', p.play (h.rows (c, rows)) a = .ok begun ∧
        h.run a p (c, rows) = (.ok state, q, w') ∧
        h.PlaysAt c begun (h.supply (p.asks (.jump a)) (c, rows)).2 ops state q w' := by
  intro h
  have hat : h.AtConsole (id ∘ Prod.fst) := Host.atConsole_console.supplied give
  rcases hat.run_cases a p (c, rows) with ⟨cause, hload, hrun⟩ | hplays
  · refine ⟨fun cause' hload' => ?_, fun loaded hloaded => ?_⟩
    · rw [hload] at hload'
      cases hload'
      exact hrun
    · rw [hload] at hloaded
      cases hloaded
  · refine ⟨fun cause hload => ?_, fun _ _ => hplays⟩
    obtain ⟨begun, _, _, _, _, hplay, _⟩ := hplays
    obtain ⟨script, r, hloaded, _⟩ := Player.play_ok hplay
    rw [hload] at hloaded
    cases hloaded

end Dialogue
