import Dialogue.Proofs.Playback.Sound
import Mathlib.Data.List.Induction
import Mathlib.Logic.Relation

/-!
# The chronicle of a run

A chronicle is kept beside a player: all calls it makes and all events it tells, and the same once
more session by session. Nothing in it is looked at by the player.

* `Chronicle.note` writes an operation down. It looks at the player before and after, at the
  calls, and at the reply: a session has begun when the live session has another generation, and
  what an operation does belongs to the session that was live before it.
* `Chronicle.Move` are the single changes that operations are made of, and `note_moves` says so.
  What every move keeps is kept by every run (`of_induction`).
-/

namespace Dialogue

/-- What is written down of one session. -/
structure Chapter where
  generation : UInt64
  address : Address
  /-- The rows that the script has at the address: those that the session looks up. -/
  group : List Row
  /-- The calls made while the session is live, each with the answer of the stage. -/
  calls : List (Call × Answer) := []
  /-- The events announced while the session is live, and at its end. -/
  events : List Event := []

namespace Chapter

def begun (p : Player) (s : Session) : Chapter :=
  { generation := s.generation, address := s.address, group := p.rowsFor s.address }

def write (ch : Chapter) (calls : List (Call × Answer)) (events : List Event) : Chapter :=
  { ch with calls := ch.calls ++ calls, events := ch.events ++ events }

/-- The calls of a chapter without tickets. -/
def bareCalls (ch : Chapter) : List Call :=
  ch.calls.map fun made => made.1.bare

@[simp] theorem write_nil (ch : Chapter) : ch.write [] [] = ch := by
  simp [write]

@[simp] theorem write_write (ch : Chapter) (calls calls' : List (Call × Answer))
    (events events' : List Event) :
    (ch.write calls events).write calls' events' =
      ch.write (calls ++ calls') (events ++ events') := by
  simp [write]

end Chapter

/-- What is written down of a run. -/
structure Chronicle where
  player : Player := {}
  /-- All calls made so far, each with the answer of the stage. -/
  calls : List (Call × Answer) := []
  /-- All events told so far. -/
  told : List Event := []
  /-- The tickets whose completion took the player on. -/
  resumed : List Ticket := []
  /-- The sessions that are over, in the order in which they began. -/
  past : List Chapter := []
  /-- The live session. -/
  current : Option Chapter := none

namespace Chronicle

def chapters (c : Chronicle) : List Chapter :=
  c.past ++ c.current.toList

def withPlayer (c : Chronicle) (p : Player) : Chronicle :=
  { c with player := p }

/-- Writes down that the player came to `q` with these calls and events. -/
def moveTo (c : Chronicle) (q : Player) (calls : List (Call × Answer)) (events : List Event) :
    Chronicle :=
  let written := c.current.map fun ch => ch.write calls events
  if q.liveGeneration? = c.player.liveGeneration? then
    { c with player := q, calls := c.calls ++ calls, current := written }
  else
    { c with
      player := q
      calls := c.calls ++ calls
      past := c.past ++ written.toList
      current := q.session?.map (Chapter.begun q) }

def note (c : Chronicle) (op : Operation) : Chronicle :=
  let turn := c.player.operate op
  { c.moveTo turn.player (turn.calls.map fun call => (call, op.stage call))
      (turn.player.events.drop c.player.events.length) with
    told := c.told ++ turn.reply.events
    resumed := c.resumed ++ (op.resumes? c.player).toList }

def of (ops : List Operation) : Chronicle :=
  ops.foldl note {}

/-! ## What moving writes -/

variable {c c' : Chronicle} {q r : Player} {s s' : Session} {calls : List (Call × Answer)}
  {events : List Event}

@[simp] theorem moveTo_player (c : Chronicle) (q : Player) (calls : List (Call × Answer))
    (events : List Event) : (c.moveTo q calls events).player = q := by
  unfold moveTo
  dsimp only
  split <;> rfl

@[simp] theorem moveTo_calls (c : Chronicle) (q : Player) (calls : List (Call × Answer))
    (events : List Event) : (c.moveTo q calls events).calls = c.calls ++ calls := by
  unfold moveTo
  dsimp only
  split <;> rfl

@[simp] theorem moveTo_told (c : Chronicle) (q : Player) (calls : List (Call × Answer))
    (events : List Event) : (c.moveTo q calls events).told = c.told := by
  unfold moveTo
  dsimp only
  split <;> rfl

@[simp] theorem moveTo_resumed (c : Chronicle) (q : Player) (calls : List (Call × Answer))
    (events : List Event) : (c.moveTo q calls events).resumed = c.resumed := by
  unfold moveTo
  dsimp only
  split <;> rfl

theorem moveTo_with_self (c : Chronicle) (q : Player) (calls : List (Call × Answer))
    (events : List Event) :
    { c.moveTo q calls events with told := c.told, resumed := c.resumed } =
      c.moveTo q calls events := by
  unfold moveTo
  dsimp only
  split <;> rfl

/-- As long as the live session is the same, all goes into its chapter. -/
theorem moveTo_same (h : q.liveGeneration? = c.player.liveGeneration?) :
    c.moveTo q calls events =
      { c with
        player := q
        calls := c.calls ++ calls
        current := c.current.map fun ch => ch.write calls events } := by
  simp [moveTo, h]

/-- With another session live, or none, a chapter is closed. -/
theorem moveTo_other (h : q.liveGeneration? ≠ c.player.liveGeneration?) :
    c.moveTo q calls events =
      { c with
        player := q
        calls := c.calls ++ calls
        past := c.past ++ (c.current.map fun ch => ch.write calls events).toList
        current := q.session?.map (Chapter.begun q) } := by
  simp [moveTo, h]

theorem moveTo_quiet (h : q.liveGeneration? = c.player.liveGeneration?) :
    c.moveTo q [] [] = c.withPlayer q := by
  simp [moveTo_same h, withPlayer]

theorem moveTo_moveTo (h : q.liveGeneration? = c.player.liveGeneration?)
    (calls calls' : List (Call × Answer)) (events events' : List Event) :
    (c.moveTo q calls events).moveTo r calls' events' =
      c.moveTo r (calls ++ calls') (events ++ events') := by
  rw [moveTo_same h]
  by_cases hr : r.liveGeneration? = c.player.liveGeneration?
  · rw [moveTo_same (hr.trans h.symm), moveTo_same hr]
    simp [Function.comp_def]
  · rw [moveTo_other (fun hq => hr (hq.trans h)), moveTo_other hr]
    simp [Function.comp_def]

theorem moveTo_moveTo_other (hs : c.player.status = .live s) (hq : q.session? = none)
    (hr : r.status = .live s') (hne : s'.generation ≠ s.generation) (events : List Event) :
    (c.moveTo q [] events).moveTo r [] [] = c.moveTo r [] events := by
  have hlive := Player.liveGeneration?_live hs
  have hnew := Player.liveGeneration?_live hr
  have hnone := Player.liveGeneration?_none hq
  have hover := Player.liveGeneration?_over_ne hs hq
  have hbegun : r.liveGeneration? ≠ q.liveGeneration? := by simp [hnone, hnew]
  have hother : r.liveGeneration? ≠ c.player.liveGeneration? := by simp [hnew, hlive, hne]
  rw [moveTo_other hover, moveTo_other hbegun, moveTo_other hother]
  simp [hq]

theorem withPlayer_moveTo (p : Player) (h : p.liveGeneration? = c.player.liveGeneration?) :
    (c.withPlayer p).moveTo q calls events = c.moveTo q calls events := by
  simp [moveTo, withPlayer, h]

theorem addresses_moveTo (c : Chronicle) (q : Player) (calls : List (Call × Answer))
    (events : List Event) :
    (c.moveTo q calls events).chapters.map Chapter.address =
      c.chapters.map Chapter.address ++ (c.player.begunBy? q).toList := by
  by_cases h : q.liveGeneration? = c.player.liveGeneration?
  · rw [moveTo_same h]
    cases hcurrent : c.current <;> simp [chapters, hcurrent, Player.begunBy?, h, Chapter.write]
  · rw [moveTo_other h]
    cases hcurrent : c.current <;> cases hq : q.session? <;>
      simp [chapters, hcurrent, Player.begunBy?, h, hq, Chapter.write, Chapter.begun]

/-- After a move a chapter is new, or as it was, or the current one with more written. -/
theorem mem_chapters_moveTo {ch : Chapter} (h : ch ∈ (c.moveTo q calls events).chapters) :
    (∃ s, q.session? = some s ∧ c.player.begunBy? q = some s.address ∧ ch = Chapter.begun q s) ∨
      ch ∈ c.chapters ∨ ∃ old, c.current = some old ∧ ch = old.write calls events := by
  by_cases hsame : q.liveGeneration? = c.player.liveGeneration?
  · rw [moveTo_same hsame] at h
    rcases List.mem_append.1 h with hpast | hcurrent
    · exact Or.inr (Or.inl (List.mem_append_left _ hpast))
    · obtain ⟨old, hold, rfl⟩ := Option.map_eq_some_iff.1 (Option.mem_toList.1 hcurrent)
      exact Or.inr (Or.inr ⟨old, hold, rfl⟩)
  · rw [moveTo_other hsame] at h
    rcases List.mem_append.1 h with hpast | hcurrent
    · rcases List.mem_append.1 hpast with hpast | hended
      · exact Or.inr (Or.inl (List.mem_append_left _ hpast))
      · obtain ⟨old, hold, rfl⟩ := Option.map_eq_some_iff.1 (Option.mem_toList.1 hended)
        exact Or.inr (Or.inr ⟨old, hold, rfl⟩)
    · obtain ⟨s, hs, rfl⟩ := Option.map_eq_some_iff.1 (Option.mem_toList.1 hcurrent)
      exact Or.inl ⟨s, hs, by rw [Player.begunBy?, if_neg hsame, hs, Option.map_some], rfl⟩

/-! ## Operations are made of moves -/

/-- The single changes of a player, written down. -/
inductive Move (c : Chronicle) : Chronicle → Prop
  | scripted (hnone : c.player.session? = none) (script : Script) :
      Move c (c.withPlayer (c.player.withScript script))
  | told : Move c { c with player := c.player.drain.2, told := c.told ++ c.player.drain.1 }
  | begun (hnone : c.player.session? = none) (hscript : c.player.script.isSome) (a : Address) :
      Move c (c.moveTo (c.player.start a) [] [])
  | dropped {s : Session} (hs : c.player.status = .live s) :
      Move c (c.moveTo c.player.cancel [] [.canceled s.address])
  | finished {s : Session} (hs : c.player.status = .live s)
      (hend : s.Finishes (c.player.rowsFor s.address)) :
      Move c (c.moveTo (c.player.finish s) [] [.rowChanged none, .sceneComplete s.address])
  | handedOver {s : Session} {rows : List Row} {cursor : Nat} {options : List Choice}
      {option : Choice} (hs : c.player.status = .live s)
      (hp : s.progress = .within rows cursor (.choosing options)) (hoption : option ∈ options) :
      Move c (c.moveTo (c.player.handOver s option.target) []
        [.branched s.address.scene s.address.branch option.target])
  | walked {stage : Stage} {s : Session} {group : List Row} {next : Progress} {made : List Beat}
      {calls : List Call} {told : List Event} (hs : c.player.status = .live s)
      (hgroup : c.player.rowsAt? s.address = some group)
      (hw : s.Walks stage c.player.nextTicket group next made calls told) :
      Move c (c.moveTo (c.player.walk s next calls told)
        (calls.map fun call => (call, stage call)) told)
  | read {s : Session} {rows : List Row} {cursor : Nat} (hs : c.player.status = .live s)
      (hp : s.progress = .within rows cursor .reading) :
      Move c (c.moveTo (c.player.place s rows (cursor + 1) .entering) [] [])
  | resumed {s : Session} {rows : List Row} {cursor : Nat} {t : Ticket} {es : List Effect}
      {d : Decision} (hs : c.player.status = .live s)
      (hp : s.progress = .within rows cursor (.loading t es d)) :
      Move c { c.moveTo (c.player.place s rows cursor (.acting es d)) [] [] with
        resumed := c.resumed ++ [t] }

/-- Every move keeps the player in order. -/
theorem Move.sound (h : Move c c') (hsound : c.player.Sound) : c'.player.Sound := by
  cases h with
  | scripted hnone script => exact hsound.withScript hnone _
  | told => exact hsound.drain
  | begun hnone hscript a =>
    rw [moveTo_player]
    exact Player.sound_start _ a hscript
  | dropped hs =>
    rw [moveTo_player]
    exact hsound.cancel
  | finished hs hend =>
    rw [moveTo_player]
    exact hsound.finish hs
  | handedOver hs hp hoption =>
    rw [moveTo_player]
    exact hsound.handOver hs _
  | walked hs hgroup hw =>
    rw [moveTo_player]
    exact hsound.walk hs hgroup hw
  | read hs hp =>
    rw [moveTo_player]
    exact hsound.read hs hp
  | resumed hs hp =>
    show Player.Sound (moveTo _ _ _ _).player
    rw [moveTo_player]
    exact hsound.resume hs hp

open Relation (ReflTransGen)

/-- Moves without calls bring the player to `q`, and are written down as one. -/
def Reaches (c : Chronicle) (q : Player) : Prop :=
  ∃ told, q.events = c.player.events ++ told ∧ ReflTransGen Move c (c.moveTo q [] told)

theorem reaches_self (c : Chronicle) : c.Reaches c.player := by
  refine ⟨[], (List.append_nil _).symm, ?_⟩
  rw [moveTo_quiet rfl]
  exact .refl

/-- A session that begins in place of what was played, with the script put in place before. -/
theorem reaches_restart (c : Chronicle) (hsound : c.player.Sound) (script : Script)
    (a : Address) : c.Reaches ((c.player.cancel.withScript script).start a) := by
  cases hs : c.player.session? with
  | none =>
    rw [Player.cancel_idle hs]
    refine ⟨[], (List.append_nil _).symm, ?_⟩
    have hscripted := Move.scripted hs script
    have hbegun := Move.begun (c := c.withPlayer (c.player.withScript script)) hs rfl a
    rw [withPlayer_moveTo (c.player.withScript script) rfl] at hbegun
    exact (ReflTransGen.single hscripted).tail hbegun
  | some s =>
    have hlive := Player.session?_eq_some_iff.1 hs
    refine ⟨[.canceled s.address], by rw [Player.cancel_live hlive]; rfl, ?_⟩
    -- three moves, of which the last begins a session two generations on
    have hdropped := Move.dropped hlive
    generalize hended : c.moveTo c.player.cancel [] [.canceled s.address] = ended at hdropped
    have hplayer : ended.player = c.player.cancel := by rw [← hended, moveTo_player]
    have hnone : ended.player.session? = none := by rw [hplayer, Player.session?_cancel]
    have hscripted := Move.scripted hnone script
    have hbegun := Move.begun (c := ended.withPlayer (ended.player.withScript script)) hnone rfl a
    rw [withPlayer_moveTo (ended.player.withScript script) rfl] at hbegun
    have hone : ended.moveTo ((c.player.cancel.withScript script).start a) [] [] =
        c.moveTo ((c.player.cancel.withScript script).start a) [] [.canceled s.address] := by
      rw [← hended, moveTo_moveTo_other hlive (Player.session?_cancel _) rfl]
      rw [Player.cancel_live hlive, hsound.generation s hlive]
      exact Player.add_one_add_one_ne _
    rw [← hone, ← hplayer]
    exact ((ReflTransGen.single hdropped).tail hscripted).tail hbegun

theorem reaches_play (hsound : c.player.Sound) {fetch : Fetch} {a : Address}
    (h : c.player.play fetch a = .ok q) : c.Reaches q := by
  obtain ⟨script, r, hload, rfl⟩ := Player.play_ok h
  rw [Player.cancel_of_load hload]
  exact reaches_restart c hsound script a

theorem reaches_withScript (hnone : c.player.session? = none) (script : Script) :
    c.Reaches (c.player.withScript script) := by
  have hmove := Move.scripted hnone script
  have hquiet : c.moveTo (c.player.withScript script) [] [] =
      c.withPlayer (c.player.withScript script) := moveTo_quiet rfl
  exact ⟨[], (List.append_nil _).symm, hquiet ▸ .single hmove⟩

theorem reaches_load (hsound : c.player.Sound) {fetch : Fetch} {script : Script}
    (h : c.player.load fetch = .ok (script, q)) : c.Reaches q := by
  rcases Player.load_ok h with ⟨_, rfl⟩ | ⟨hscript, rfl⟩
  · exact c.reaches_self
  · refine reaches_withScript ?_ script
    -- no session is live without a script
    rw [Player.session?_eq_none_iff]
    intro s hs
    have hloaded := hsound.script s hs
    rw [hscript] at hloaded
    cases hloaded

theorem reaches_refresh (hsound : c.player.Sound) {fetch : Fetch}
    (h : c.player.refresh fetch = .ok q) : c.Reaches q := by
  obtain ⟨rows, _, ⟨hlast, rfl⟩ | ⟨a, _, rfl⟩⟩ := Player.refresh_ok h
  · -- nothing was ever played, so there is no session to cancel
    have hnone : c.player.session? = none := by
      rw [Player.session?_eq_none_iff]
      intro s hs
      rw [hsound.lastPlayed s hs] at hlast
      cases hlast
    rw [Player.cancel_idle hnone]
    exact reaches_withScript hnone _
  · exact reaches_restart c hsound _ a

theorem reaches_advance (h : c.player.advance = some q) : c.Reaches q := by
  obtain ⟨s, rows, cursor, hs, hp, rfl⟩ := Player.advance_some h
  exact ⟨[], (List.append_nil _).symm, .single (.read hs hp)⟩

theorem reaches_choose {index : Nat} {a : Address} (h : c.player.choose index = .ok (a, q)) :
    c.Reaches q := by
  obtain ⟨s, rows, cursor, options, option, hs, hp, hoption, _, rfl⟩ := Player.choose_ok h
  exact ⟨_, rfl, .single (.handedOver hs hp (List.mem_of_getElem? hoption))⟩

theorem reaches_cancel (c : Chronicle) : c.Reaches c.player.cancel := by
  cases hs : c.player.session? with
  | none =>
    rw [Player.cancel_idle hs]
    exact c.reaches_self
  | some s =>
    have hlive := Player.session?_eq_some_iff.1 hs
    exact ⟨[.canceled s.address], by rw [Player.cancel_live hlive], .single (.dropped hlive)⟩

/-- An input other than the end of a load brings the player to where it leads. -/
theorem reaches_feed (hsound : c.player.Sound) {fetch : Fetch} {input : Input}
    (hinput : ∀ t, input ≠ .loaded t) (h : c.player.feed fetch input = .ok q) : c.Reaches q := by
  cases input with
  | loaded t => exact absurd rfl (hinput t)
  | jump a => exact reaches_play hsound h
  | refresh => exact reaches_refresh hsound h
  | exit =>
    cases h
    exact c.reaches_cancel
  | proceed =>
    cases h
    cases hadvance : c.player.advance with
    | none => exact c.reaches_self
    | some q => exact reaches_advance hadvance
  | choose index =>
    cases hchoose : c.player.choose index with
    | error e => simp [Player.feed, hchoose, Except.map] at h
    | ok chosen =>
      simp only [Player.feed, hchoose, Except.map, Except.ok.injEq] at h
      exact h ▸ reaches_choose hchoose

/-- The units of work of a pump all belong to one session, so they are written down as one. -/
theorem pump_moves (stage : Stage) (p : Player) (hsound : p.Sound) (c : Chronicle)
    (hc : c.player = p) :
    ∃ told, (p.pump stage).1.events = p.events ++ told ∧
      ReflTransGen Move c
        (c.moveTo (p.pump stage).1 ((p.pump stage).2.map fun call => (call, stage call)) told) := by
  -- the chronicle is general, as each unit of work writes into it
  revert c
  refine Player.Sound.pump_induction
    (motive := fun p q calls => ∀ c : Chronicle, c.player = p → ∃ told,
      q.events = p.events ++ told ∧
        ReflTransGen Move c (c.moveTo q (calls.map fun call => (call, stage call)) told))
    ?stop ?walk ?finish hsound
  case stop =>
    rintro _ _ c rfl
    refine ⟨[], (List.append_nil _).symm, ?_⟩
    rw [List.map_nil, moveTo_quiet rfl]
    exact .refl
  case walk =>
    rintro _ q s group next made calls later told _ hs hgroup hw ih c rfl
    have hmove := Move.walked hs hgroup hw
    have hsame : (c.player.walk s next calls told).liveGeneration? =
        c.player.liveGeneration? := (Player.liveGeneration?_live hs).symm
    obtain ⟨told', hevents, hmoves⟩ := ih _ (moveTo_player ..)
    refine ⟨told ++ told', ?_, ?_⟩
    · rw [hevents, ← List.append_assoc]
      rfl
    · rw [List.map_append, ← moveTo_moveTo hsame]
      exact .head hmove hmoves
  case finish =>
    rintro _ s hs hend c rfl
    exact ⟨_, List.append_assoc _ _ _, .single (Move.finished hs hend)⟩

/-- An operation that makes no calls and hands nothing over is written down as one move. -/
theorem note_eq {op : Operation} {told : List Event} {reply : Operation.Reply}
    (hturn : c.player.operate op = { player := q, reply := reply })
    (htold : q.events = c.player.events ++ told) (hreply : reply.events = []) :
    c.note op =
      { c.moveTo q [] told with
        resumed := c.resumed ++ (op.resumes? c.player).toList } := by
  simp [note, hturn, htold, hreply]

/-- An operation that completes no load is written down by moves, if the player comes to where it
leads. -/
theorem Reaches.note {op : Operation} (h : c.Reaches q) (reply : Operation.Reply)
    (hturn : c.player.operate op = { player := q, reply := reply }) (hreply : reply.events = [])
    (hresumes : op.resumes? c.player = none) : ReflTransGen Move c (c.note op) := by
  obtain ⟨told, htold, hmoves⟩ := h
  have hmove : (c.moveTo q [] told).resumed = c.resumed := moveTo_resumed ..
  rw [note_eq hturn htold hreply, hresumes, Option.toList_none, List.append_nil, ← hmove]
  exact hmoves

theorem note_attempt_moves {op : Operation} (result : Except PlaybackError Player)
    (hturn : c.player.operate op = c.player.attempt result)
    (hresumes : op.resumes? c.player = none) (h : ∀ q, result = .ok q → c.Reaches q) :
    ReflTransGen Move c (c.note op) := by
  cases result with
  | ok q => exact (h q rfl).note _ hturn rfl hresumes
  | error e => exact c.reaches_self.note _ hturn rfl hresumes

/-- An operation that completes a load writes the ticket down, if the load was waited for. -/
theorem note_complete_moves {op : Operation} {t : Ticket} {loaded : Bool} {reply : Operation.Reply}
    (hturn : c.player.operate op =
      { player := (c.player.complete t loaded).getD c.player, reply := reply })
    (hreply : reply.events = [])
    (hresumes : op.resumes? c.player =
      if (c.player.complete t loaded).isSome then some t else none) :
    ReflTransGen Move c (c.note op) := by
  cases hcomplete : c.player.complete t loaded with
  | none =>
    rw [hcomplete] at hturn hresumes
    exact c.reaches_self.note reply hturn hreply hresumes
  | some q =>
    obtain ⟨s, rows, cursor, es, d, hs, hp, rfl⟩ := Player.complete_some hcomplete
    rw [hcomplete] at hturn hresumes
    rw [note_eq hturn (List.append_nil _).symm hreply, hresumes]
    exact .single (.resumed hs hp)

theorem note_drain_moves (c : Chronicle) : Move c (c.note .drain) := by
  have hnote : c.note .drain =
      { c with player := c.player.drain.2, told := c.told ++ c.player.drain.1 } := by
    have hquiet : c.moveTo c.player.drain.2 [] [] = c.withPlayer c.player.drain.2 :=
      moveTo_quiet rfl
    -- the queue is emptied, so none of its events are new
    have hrest : c.player.drain.2.events.drop c.player.events.length = [] := List.drop_nil
    simp [note, Player.operate, hrest, hquiet, withPlayer, Operation.Reply.events,
      Operation.resumes?]
  rw [hnote]
  exact .told

theorem note_pump_moves (hsound : c.player.Sound) (stage : Stage) :
    ReflTransGen Move c (c.note (.pump stage)) := by
  obtain ⟨told, htold, hmoves⟩ := pump_moves stage c.player hsound c rfl
  have hnote : c.note (.pump stage) =
      c.moveTo (c.player.pump stage).1
        ((c.player.pump stage).2.map fun call => (call, stage call)) told := by
    simp only [note, Player.operate, htold, List.drop_left, Operation.Reply.events,
      Operation.resumes?, Operation.stage, Option.toList_none, List.append_nil]
    exact moveTo_with_self ..
  rw [hnote]
  exact hmoves

theorem note_feed_moves (hsound : c.player.Sound) (fetch : Fetch) {input : Input}
    (hinput : ∀ t, input ≠ .loaded t) : ReflTransGen Move c (c.note (.feed fetch input)) := by
  refine note_attempt_moves (c.player.feed fetch input) rfl ?_ ?_
  · cases input with
    | loaded t => exact absurd rfl (hinput t)
    | proceed | choose | jump | refresh | exit => rfl
  · exact fun q hq => reaches_feed hsound hinput hq

/-- Every operation is made of moves. -/
theorem note_moves (hsound : c.player.Sound) (op : Operation) :
    ReflTransGen Move c (c.note op) := by
  cases op with
  | drain => exact .single c.note_drain_moves
  | pump stage => exact note_pump_moves hsound stage
  | play fetch a => exact note_attempt_moves _ rfl rfl fun q hq => reaches_play hsound hq
  | refresh fetch => exact note_attempt_moves _ rfl rfl fun q hq => reaches_refresh hsound hq
  | cancel => exact c.reaches_cancel.note _ rfl rfl rfl
  | complete t loaded => exact note_complete_moves rfl rfl rfl
  | feed fetch input =>
    cases input with
    | loaded t => exact note_complete_moves rfl rfl rfl
    | proceed | choose | jump | refresh | exit =>
      exact note_feed_moves hsound fetch (fun t h => nomatch h)
  | load fetch =>
    cases hload : c.player.load fetch with
    | error e =>
      refine c.reaches_self.note (.script (.error (.sourceUnavailable e))) ?_ rfl rfl
      simp [Player.operate, hload]
    | ok loaded =>
      refine (reaches_load hsound hload).note (.script (.ok loaded.1)) ?_ rfl rfl
      simp [Player.operate, hload]
  | advance =>
    cases hadvance : c.player.advance with
    | none =>
      refine c.reaches_self.note (.moved false) ?_ rfl rfl
      simp [Player.operate, Player.attempt?, hadvance]
    | some q =>
      refine (reaches_advance hadvance).note (.moved true) ?_ rfl rfl
      simp [Player.operate, Player.attempt?, hadvance]
  | choose index =>
    cases hchoose : c.player.choose index with
    | error e =>
      refine c.reaches_self.note (.chosen (.error e)) ?_ rfl rfl
      simp [Player.operate, hchoose]
    | ok chosen =>
      refine (reaches_choose hchoose).note (.chosen (.ok chosen.1)) ?_ rfl rfl
      simp [Player.operate, hchoose]

/-! ## What holds of every run -/

@[simp] theorem note_player (c : Chronicle) (op : Operation) :
    (c.note op).player = (c.player.operate op).player := by
  simp [note]

@[simp] theorem note_calls (c : Chronicle) (op : Operation) :
    (c.note op).calls = c.calls ++ (c.player.operate op).calls.map fun call =>
      (call, op.stage call) := by
  simp [note]

@[simp] theorem note_told (c : Chronicle) (op : Operation) :
    (c.note op).told = c.told ++ (c.player.operate op).reply.events := by
  simp [note]

theorem of_concat (ops : List Operation) (op : Operation) :
    of (ops ++ [op]) = (of ops).note op := by
  simp [of, List.foldl_append]

theorem player_of (ops : List Operation) : (of ops).player = Player.after ops := by
  induction ops using List.reverseRec with
  | nil => rfl
  | append_singleton ops op ih => rw [of_concat, Player.after_concat, note_player, ih]

theorem calls_of (ops : List Operation) :
    (of ops).calls.map Prod.fst = Player.callsMade ops := by
  induction ops using List.reverseRec with
  | nil => rfl
  | append_singleton ops op ih =>
    rw [Player.callsMade, Player.along_concat, ← Player.callsMade, ← ih, of_concat, note_calls,
      player_of]
    simp [Function.comp_def]

theorem told_of (ops : List Operation) : (of ops).told = Player.eventsTold ops := by
  induction ops using List.reverseRec with
  | nil => rfl
  | append_singleton ops op ih =>
    rw [Player.eventsTold, Player.along_concat, ← Player.eventsTold, ← ih, of_concat, note_told,
      player_of]

/-- What every move keeps is kept by every operation, and the player stays in order. -/
theorem note_keeps {Holds : Chronicle → Prop}
    (keep : ∀ {c c'}, c.player.Sound → Move c c' → Holds c → Holds c')
    (hsound : c.player.Sound) (h : Holds c) (op : Operation) :
    (c.note op).player.Sound ∧ Holds (c.note op) := by
  have hmoves := note_moves hsound op
  generalize c.note op = c' at hmoves ⊢
  induction hmoves with
  | refl => exact ⟨hsound, h⟩
  | tail _ hmove ih => exact ⟨hmove.sound ih.1, keep ih.1 hmove ih.2⟩

/-- What holds of a new chronicle and is kept by every move holds of the chronicle of every run,
and the player is in order after every run. -/
theorem of_induction {Holds : Chronicle → Prop} (new : Holds {})
    (keep : ∀ {c c'}, c.player.Sound → Move c c' → Holds c → Holds c') (ops : List Operation) :
    (of ops).player.Sound ∧ Holds (of ops) := by
  induction ops using List.reverseRec with
  | nil => exact ⟨Player.sound_new, new⟩
  | append_singleton ops op ih =>
    rw [of_concat]
    exact note_keeps keep ih.1 ih.2 op

end Chronicle

/-- Every reachable player is in order. -/
theorem Player.sound_after (ops : List Operation) : (Player.after ops).Sound := by
  rw [← Chronicle.player_of]
  exact (@Chronicle.of_induction (fun _ => True) trivial (fun _ _ _ => trivial) ops).1

namespace Chronicle

/-- The chapters are those of the sessions that the operations of the run begin, in order. -/
theorem addresses_of (ops : List Operation) :
    (of ops).chapters.map Chapter.address = Player.sessionsBegun ops := by
  induction ops using List.reverseRec with
  | nil => rfl
  | append_singleton ops op ih =>
    have hmoved := addresses_moveTo (of ops) ((of ops).player.operate op).player
    rw [Player.sessionsBegun, Player.along_concat, ← Player.sessionsBegun, ← ih, of_concat,
      ← (Player.sound_after ops).begunBy?_operate op, ← player_of]
    exact hmoved _ _

/-- The rows of a chapter are those that the script has as the session begins. -/
theorem group_of (ops : List Operation) {ch : Chapter} (h : ch ∈ (of ops).chapters) :
    ∃ before op later, ops = before ++ op :: later ∧
      op.begins? (Player.after before) = some ch.address ∧
      ch.group = (Player.after (before ++ [op])).rowsFor ch.address := by
  induction ops using List.reverseRec generalizing ch with
  | nil => cases h
  | append_singleton ops op ih =>
    -- a chapter that is not new has the rows and the address of an earlier one
    have hkept : ∀ old ∈ (of ops).chapters, ch.address = old.address → ch.group = old.group →
        ∃ before op' later, ops ++ [op] = before ++ op' :: later ∧
          op'.begins? (Player.after before) = some ch.address ∧
          ch.group = (Player.after (before ++ [op'])).rowsFor ch.address := by
      intro old hold haddress hgroup
      obtain ⟨before, op', later, hops, hbegins, hfound⟩ := ih hold
      rw [haddress, hgroup]
      exact ⟨before, op', later ++ [op], by simp [hops], hbegins, hfound⟩
    rw [of_concat] at h
    rcases mem_chapters_moveTo h with ⟨s, _, hbegun, rfl⟩ | hold | ⟨old, hcurrent, rfl⟩
    · refine ⟨ops, op, [], rfl, ?_, ?_⟩
      · rw [← (Player.sound_after ops).begunBy?_operate op, ← player_of]
        exact hbegun
      · rw [Player.after_concat, ← player_of]
        rfl
    · exact hkept ch hold rfl rfl
    · exact hkept old (by simp [chapters, hcurrent]) rfl rfl

end Chronicle

end Dialogue
