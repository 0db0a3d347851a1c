import Dialogue.Proofs.Playback.Leads
import Dialogue.Proofs.Playback.Reachable

/-!
# After a refresh

A refresh puts a new script in place of the old one and begins the address last played anew. No
session goes on with rows of the old script: a session walks the rows that the script has at its
address, and the script changes by nothing but a load into an empty player and by a refresh.

* `Script.Tells` says of calls and events that they come from rows of a script.
* `Player.Sound.operate_tells` and `Player.Sound.run_tells`: what a player calls and announces comes
  from rows of its script, which stays until a refresh succeeds.
* `Player.lastPlayed_after`: the address last played is that of the last session begun.
* `Player.rows_of_refresh` puts this together for every run.
-/

namespace Dialogue

/-- A row is found in a script, at some address. -/
def Script.Holds (script : Script) (row : Row) : Prop :=
  ∃ a rows, script.lookup a = .ok rows ∧ row ∈ rows

/-- Calls and events come from rows of a script: each call is one that a row asks for, and each
row that is told of is one of the script. -/
structure Script.Tells (script : Script) (calls : List Call) (events : List Event) : Prop where
  asked : ∀ call ∈ calls, ∃ row, script.Holds row ∧ call.bare ∈ reference [row]
  shown : ∀ row : Row, row.shown ∈ events → script.Holds row

/-- Some of these operations, done from this player on, is a refresh that succeeds. -/
def Player.Refreshes (p : Player) (ops : List Operation) : Prop :=
  ∃ before op later, ops = before ++ op :: later ∧ op.refreshes (p.run before)

/-! ## Calls and events of the rows of a session -/

namespace Script.Tells

variable {script : Script} {calls calls' : List Call} {events events' : List Event}

theorem nil (script : Script) : script.Tells [] [] :=
  ⟨fun _ h => (nomatch h), fun _ h => (nomatch h)⟩

theorem append (h : script.Tells calls events) (h' : script.Tells calls' events') :
    script.Tells (calls ++ calls') (events ++ events') := by
  constructor
  · intro call hcall
    rcases List.mem_append.1 hcall with hcall | hcall
    · exact h.asked call hcall
    · exact h'.asked call hcall
  · intro row hrow
    rcases List.mem_append.1 hrow with hrow | hrow
    · exact h.shown row hrow
    · exact h'.shown row hrow

/-- Events that show no row come from any script. -/
theorem quiet (script : Script) (h : ∀ row : Row, row.shown ∉ events) : script.Tells [] events :=
  ⟨fun _ hcall => (nomatch hcall), fun row hrow => absurd hrow (h row)⟩

end Script.Tells

/-- A row asks for its effects, and for the wait that it decides on. -/
theorem reference_singleton (row : Row) : reference [row] =
    row.cue.effects.map (fun e => (Beat.effect e).call) ++
      (row.cue.decision.beats []).map Beat.call := by
  simp [reference, beats, Function.comp_def]

namespace Session

variable {stage : Stage} {id : UInt64} {group : List Row} {s : Session} {next : Progress}
  {made : List Beat} {calls : List Call} {told : List Event}

/-- What a unit of the walk calls is asked for by a row of the session. -/
theorem Walks.asked (h : s.Walks stage id group next made calls told)
    (hsound : s.Sound (some group)) : ∀ call ∈ calls, ∃ row ∈ group, call.bare ∈ reference [row] := by
  intro call hcall
  cases h with
  | @performed cursor e es d h =>
    obtain ⟨_, row, hrow, hes, _⟩ := hsound _ _ _ h
    obtain rfl := List.mem_singleton.1 hcall
    refine ⟨row, List.mem_of_getElem? hrow, ?_⟩
    rw [reference_singleton, Effect.bare_call]
    have he : e ∈ row.cue.effects := hes.subset List.mem_cons_self
    exact List.mem_append_left _ (List.mem_map_of_mem he)
  | @awaited cursor h =>
    obtain ⟨_, row, hrow, _, hd⟩ := hsound _ _ _ h
    obtain rfl := List.mem_singleton.1 hcall
    refine ⟨row, List.mem_of_getElem? hrow, ?_⟩
    rw [reference_singleton, hd]
    exact List.mem_append_right _ (List.mem_singleton_self _)
  | opened | entered | proceeded | offered => cases hcall

/-- What a unit of the walk tells of is a row of the session. -/
theorem Walks.shown (h : s.Walks stage id group next made calls told) (row : Row)
    (hrow : row.shown ∈ told) : row ∈ group := by
  cases h with
  | entered _ hentered =>
    cases List.mem_singleton.1 hrow
    exact List.mem_of_getElem? hentered
  | opened | performed | proceeded | awaited | offered => cases hrow

end Session

namespace Player

variable {p q : Player} {script : Script} {op : Operation}

theorem lookup_of_rowsAt? {a : Address} {rows : List Row} (hscript : p.script = some script)
    (h : p.rowsAt? a = some rows) : script.lookup a = .ok rows := by
  rw [rowsAt?, hscript] at h
  cases hlookup : script.lookup a with
  | ok found =>
    simp only [hlookup, Except.toOption, Option.some.injEq] at h
    rw [h]
  | error e => simp [hlookup, Except.toOption] at h

/-! ## Whatever a player does -/

/-- What a pump calls and announces comes from rows of the script. -/
theorem Sound.pump_tells (h : p.Sound) (hscript : p.script = some script) (stage : Stage) :
    (p.pump stage).1.script = some script ∧ ∃ told,
      (p.pump stage).1.events = p.events ++ told ∧ script.Tells (p.pump stage).2 told := by
  revert hscript
  refine Sound.pump_induction
    (motive := fun p q calls => p.script = some script → q.script = some script ∧ ∃ told,
      q.events = p.events ++ told ∧ script.Tells calls told)
    ?stop ?walk ?finish h
  case stop => exact fun p _ hscript => ⟨hscript, [], (List.append_nil _).symm, .nil script⟩
  case walk =>
    intro p q s group next made calls later told hsound hs hgroup hw ih hscript
    have hsession := hsound.session s hs
    rw [hgroup] at hsession
    have hlookup := lookup_of_rowsAt? hscript hgroup
    obtain ⟨hkept, told', hevents, htells⟩ := ih hscript
    refine ⟨hkept, told ++ told', ?_, .append ⟨fun call hcall => ?_, fun row hrow => ?_⟩ htells⟩
    · rw [hevents, ← List.append_assoc]
      rfl
    · obtain ⟨row, hrow, hcall⟩ := hw.asked hsession call hcall
      exact ⟨row, ⟨_, _, hlookup, hrow⟩, hcall⟩
    · exact ⟨_, _, hlookup, hw.shown row hrow⟩
  case finish =>
    intro p s _ _ hscript
    -- the end of a session is told of without a row
    refine ⟨hscript, _, List.append_assoc _ _ _, .quiet script fun row hrow => ?_⟩
    simp [Row.shown] at hrow

theorem announces_quiet (hpump : ∀ stage, op ≠ .pump stage) (p : Player) (row : Row) :
    row.shown ∉ p.announces op := by
  by_cases hdrain : op = .drain
  · subst hdrain
    simp [announces, operate, drain]
  · -- the player with nothing to be told announces the same
    intro hrow
    have hevents := congrArg Player.events (operate_behind hdrain p)
    rw [announces, hevents] at hrow
    have hnew : row.shown ∈ (p.drain.2.operate op).player.events := by simpa [shift] using hrow
    exact absurd ((operate_leads hpump hdrain _).shown hnew) (List.not_mem_nil)

/-- What an operation calls and announces comes from rows of the script that the player has. -/
theorem Sound.operate_tells (h : p.Sound) (hscript : p.script = some script) (op : Operation) :
    script.Tells (p.operate op).calls (p.announces op) := by
  by_cases hpump : ∃ stage, op = .pump stage
  · obtain ⟨stage, rfl⟩ := hpump
    obtain ⟨_, told, hevents, htells⟩ := h.pump_tells hscript stage
    have htold : p.announces (.pump stage) = told := by
      simp [announces, Player.operate, hevents]
    rw [htold]
    exact htells
  · have hother : ∀ stage, op ≠ .pump stage := fun stage hop => hpump ⟨stage, hop⟩
    rw [operate_no_calls hother]
    exact .quiet script fun row => announces_quiet hother p row

theorem Sound.operate_script (h : p.Sound) (hscript : p.script = some script)
    (hop : ¬ op.refreshes p) : (p.operate op).player.script = some script := by
  by_cases hpump : ∃ stage, op = .pump stage
  · obtain ⟨stage, rfl⟩ := hpump
    exact (h.pump_tells hscript stage).1
  · by_cases hdrain : op = .drain
    · subst hdrain
      exact hscript
    · exact (operate_leads (fun stage hop => hpump ⟨stage, hop⟩) hdrain p).script_eq hscript hop

/-- Until a refresh succeeds the script stays, and all calls and events come from its rows. -/
theorem Sound.run_tells (h : p.Sound) (hscript : p.script = some script) {ops : List Operation}
    (hops : ¬ p.Refreshes ops) :
    (p.run ops).script = some script ∧ script.Tells (p.calls ops) (p.announced ops) := by
  induction ops generalizing p with
  | nil => exact ⟨hscript, .nil script⟩
  | cons op ops ih =>
    have hop : ¬ op.refreshes p := fun hop => hops ⟨[], op, ops, rfl, hop⟩
    have hrest : ¬ (p.operate op).player.Refreshes ops := by
      rintro ⟨before, op', later, rfl, hrefreshes⟩
      exact hops ⟨op :: before, op', later, rfl, hrefreshes⟩
    obtain ⟨hkept, htells⟩ := ih (h.operate op) (h.operate_script hscript hop) hrest
    exact ⟨hkept, (h.operate_tells hscript op).append htells⟩

end Player

/-! ## The address last played -/

namespace Chronicle

variable {c c' : Chronicle}

/-- The address last played is that of the last session begun. -/
theorem Move.lastPlayed (hsound : c.player.Sound) (h : Move c c')
    (hlast : c.player.lastPlayed = (c.chapters.map Chapter.address).getLast?) :
    c'.player.lastPlayed = (c'.chapters.map Chapter.address).getLast? := by
  have hmoved : ∀ (q : Player) calls told, q.lastPlayed = (c.player.begunBy? q).or c.player.lastPlayed →
      (c.moveTo q calls told).player.lastPlayed =
        ((c.moveTo q calls told).chapters.map Chapter.address).getLast? := by
    intro q calls told hq
    rw [moveTo_player, addresses_moveTo, List.getLast?_append, ← hlast, hq]
    cases c.player.begunBy? q <;> rfl
  have hsame : ∀ s (q : Player), c.player.status = .live s → q.liveGeneration? = some s.generation →
      c.player.begunBy? q = none := by
    intro s q hs hq
    exact Player.begunBy?_same (hq.trans (Player.liveGeneration?_live hs).symm)
  cases h with
  | scripted | told => exact hlast
  | begun hnone hscript a =>
    refine hmoved _ _ _ ?_
    rw [Player.begunBy?_start _ a fun s hs => absurd hs (Player.session?_eq_none_iff.1 hnone s)]
    rfl
  | dropped hs =>
    refine hmoved _ _ _ ?_
    rw [Player.begunBy?_none (Player.session?_cancel _), Player.lastPlayed_cancel]
    rfl
  | @finished s hs hend =>
    refine hmoved _ _ _ ?_
    have hnone : (c.player.finish s).session? = none := rfl
    rw [Player.begunBy?_none hnone]
    rfl
  | @handedOver s rows cursor options option hs hp hoption =>
    refine hmoved _ _ _ ?_
    have hbegun : c.player.begunBy? (c.player.handOver s option.target) =
        some ⟨s.address.scene, option.target⟩ := by
      refine Player.begunBy?_start _ _ fun s' hs' => ?_
      rw [hsound.generation s' hs']
      simp [Player.announce]
    rw [hbegun]
    rfl
  | walked hs | read hs =>
    refine hmoved _ _ _ ?_
    rw [hsame _ _ hs rfl]
    rfl
  | @resumed s rows cursor t es d hs hp =>
    refine (hmoved (c.player.place s rows cursor (.acting es d)) [] [] ?_)
    rw [hsame _ _ hs rfl]
    rfl

end Chronicle

namespace Player

/-- The address last played is that of the last session begun. -/
theorem lastPlayed_after (ops : List Operation) :
    (after ops).lastPlayed = (sessionsBegun ops).getLast? := by
  have h := @Chronicle.of_induction
    (fun c => c.player.lastPlayed = (c.chapters.map Chapter.address).getLast?) rfl
    (fun hsound hmove => hmove.lastPlayed hsound) ops
  rw [← Chronicle.addresses_of, ← Chronicle.player_of]
  exact h.2

theorem events_cancel (p : Player) :
    p.cancel.events = p.events ++ (p.session?.map fun s => .canceled s.address).toList := by
  cases hs : p.status <;> simp [cancel, session?, hs, announce]

/-- Rows and refreshes in every run. A session that has looked its rows up walks those that the
script has at its address. A refresh that succeeds puts the script of the rows that it was given in
place. If anything was played, a session of the address last played is at its beginning then, and
only the end of the live one, if there was one, is announced; else nothing but the script changes.
Until the next refresh that succeeds, all calls and all rows announced come from the new script. -/
theorem rows_of_refresh (ops : List Operation) :
    (∀ s rows, (after ops).session? = some s → s.rows? = some rows →
      ∃ script, (after ops).script = some script ∧ script.lookup s.address = .ok rows) ∧
    ∀ fetch q, (after ops).refresh fetch = .ok q → ∃ rows, fetch true = .ok rows ∧
      q.script = some (.ofRows rows) ∧
      (Played ops → ∃ s, q.session? = some s ∧ (sessionsBegun ops).getLast? = some s.address ∧
        q.state = .playing ∧ s.cursor = 0 ∧ s.rows? = none ∧
        (∀ old, (after ops).session? = some old →
          old.address = s.address ∧ old.generation ≠ s.generation) ∧
        q.events = (after ops).events ++
          ((after ops).session?.map fun old => .canceled old.address).toList) ∧
      (¬ Played ops → q = (after ops).withScript (.ofRows rows)) ∧
      ∀ later, ¬ q.Refreshes later → (q.run later).script = some (.ofRows rows) ∧
        (Script.ofRows rows).Tells (q.calls later) (q.announced later) := by
  have hsound := sound_after ops
  have hplayed : (after ops).lastPlayed = none ↔ ¬ Played ops :=
    hsound.idle_iff.symm.trans (status_idle_iff_not_played ops)
  refine ⟨fun s rows hs hrows => ?_, fun fetch q hq => ?_⟩
  · have hlive := session?_eq_some_iff.1 hs
    obtain ⟨cursor, phase, hp⟩ := Session.exists_within_of_rows? hrows
    obtain ⟨hfound, _⟩ := hsound.session s hlive _ _ _ hp
    obtain ⟨script, hscript⟩ := Option.isSome_iff_exists.1 (hsound.script s hlive)
    exact ⟨script, hscript, lookup_of_rowsAt? hscript hfound⟩
  · have hlater := hsound.operate (.refresh fetch)
    simp only [operate, hq, attempt] at hlater
    obtain ⟨rows, hrows, ⟨hlast, rfl⟩ | ⟨a, ha, rfl⟩⟩ := refresh_ok hq
    · -- nothing was played, so there is no session to end
      have hnot := hplayed.1 hlast
      have hnone : (after ops).session? = none := by
        rw [session?_eq_none_iff]
        intro s hs
        simp [hsound.lastPlayed s hs] at hlast
      refine ⟨rows, hrows, rfl, fun h => absurd h hnot, fun _ => by rw [cancel_idle hnone], ?_⟩
      exact fun later => hlater.run_tells rfl
    · refine ⟨rows, hrows, rfl, fun _ => ?_, fun h => ?_, fun later => hlater.run_tells rfl⟩
      · refine ⟨_, rfl, (lastPlayed_after ops).symm.trans ha, rfl, rfl, rfl, fun old hold => ?_,
          events_cancel _⟩
        have hlive := session?_eq_some_iff.1 hold
        have hsame := (hsound.lastPlayed old hlive).symm.trans ha
        refine ⟨Option.some.inj hsame, ?_⟩
        rw [hsound.generation old hlive, withScript, cancel_live hlive]
        exact (add_one_add_one_ne _).symm
      · simp [hplayed.2 h] at ha

/-- A scene waits for the reader when its line is changed and the script refreshed. -/
theorem rows_of_refresh_reading :
    let row : Row := { scene := 1, command := .say, line := "Hello." }
    let changed : Row := { scene := 1, command := .say, line := "Good evening." }
    let ops : List Operation := [.play (fun _ => .ok [row]) ⟨1, 0⟩, .pump readyStage]
    let later : List Operation := [.pump readyStage, .drain]
    ∃ s q, (after ops).session? = some s ∧ s.rows? = some [row] ∧ Played ops ∧
      (after ops).refresh (fun _ => .ok [changed]) = .ok q ∧ ¬ q.Refreshes later ∧
      q.events = [row.shown, .canceled ⟨1, 0⟩] ∧ q.announced later = [changed.shown] ∧
      (∃ script, (after ops).script = some script ∧ script.lookup s.address = .ok [row]) ∧
      (Script.ofRows [changed]).Tells (q.calls later) (q.announced later) := by
  intro row changed ops later
  have hs : (after ops).session? = some ⟨1, ⟨1, 0⟩, .within [row] 0 .reading⟩ := by decide +kernel
  have hplayed : Played ops := ⟨[], _, [.pump readyStage], rfl, _, rfl⟩
  have hq : (after ops).refresh (fun _ => .ok [changed]) =
      .ok (((after ops).cancel.withScript (.ofRows [changed])).start ⟨1, 0⟩) := by decide +kernel
  have hlater : ¬ Refreshes (((after ops).cancel.withScript (.ofRows [changed])).start ⟨1, 0⟩)
      later := by
    rintro ⟨before, op, rest, heq, hop⟩
    have hmem : op ∈ later := heq ▸ List.mem_append_right _ List.mem_cons_self
    rcases List.mem_cons.1 hmem with rfl | hmem
    · exact hop
    · obtain rfl := List.mem_singleton.1 hmem
      exact hop
  obtain ⟨hlookup, hrefresh⟩ := rows_of_refresh ops
  obtain ⟨rows, hrows, _, hbegun, _, htells⟩ := hrefresh _ _ hq
  cases hrows
  obtain ⟨_, _, _, _, _, _, _, hevents⟩ := hbegun hplayed
  refine ⟨_, _, hs, rfl, hplayed, hq, hlater, ?_, by decide +kernel, hlookup _ _ hs rfl,
    (htells later hlater).2⟩
  rw [hevents]
  decide +kernel

end Player

end Dialogue
