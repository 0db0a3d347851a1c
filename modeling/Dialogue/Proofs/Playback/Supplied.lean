import Dialogue.Proofs.Playback.Passing
import Dialogue.Proofs.Script.Lookup
import Dialogue.Proofs.Sheet.WellFormed

/-!
# Playing the rows of a sheet

A sheet gives every choice at least two options, so a player whose source has the rows of a sheet
never stops in the middle of a group: a session completes behind the last row of its group, after
it entered all of them, and none of them was a choice.

* `Operation.Supplies` says that the source gives these rows, or none, whenever it is asked.
* `Player.scriptOf_after`: then the only script that is ever played is the one of these rows.
* `Player.completes_of_sheet` puts this together with what a row of a sheet is (`Row.WellFormed`)
  and what a session gets past (`Chronicle.Passing`).
-/

namespace Dialogue

/-- The source gives these rows, whether past its caches or not, or it fails. -/
def Fetch.Gives (fetch : Fetch) (rows : List Row) : Prop :=
  ∀ force found, fetch force = .ok found → found = rows

/-- What the source answers in an operation, if it is asked, are these rows. -/
def Operation.Supplies (rows : List Row) : Operation → Prop
  | .load fetch | .play fetch _ | .refresh fetch | .feed fetch _ => fetch.Gives rows
  | _ => True

/-! ## The script -/

namespace Player

/-- The script of a player, if one is loaded, is that of these rows. -/
def ScriptOf (rows : List Row) (p : Player) : Prop :=
  ∀ script, p.script = some script → script = .ofRows rows

variable {p q : Player} {rows : List Row} {fetch : Fetch}

theorem ScriptOf.congr (h : p.ScriptOf rows) (hq : q.script = p.script) : q.ScriptOf rows := by
  intro script hscript
  exact h script (hq.symm.trans hscript)

theorem ScriptOf.load (h : p.ScriptOf rows) (hfetch : fetch.Gives rows) {script : Script}
    (hload : p.load fetch = .ok (script, q)) : q.ScriptOf rows := by
  unfold Player.load at hload
  split at hload
  · cases hload
    exact h
  · split at hload
    · rename_i found hfound
      cases hload
      rw [hfetch false found hfound]
      intro script hscript
      exact (Option.some.inj hscript).symm
    · cases hload

theorem ScriptOf.play (h : p.ScriptOf rows) (hfetch : fetch.Gives rows) {a : Address}
    (hplay : p.play fetch a = .ok q) : q.ScriptOf rows := by
  obtain ⟨script, r, hload, rfl⟩ := play_ok hplay
  exact (h.load hfetch hload).congr (script_cancel r)

theorem scriptOf_refresh (hfetch : fetch.Gives rows) (hrefresh : p.refresh fetch = .ok q) :
    q.ScriptOf rows := by
  obtain ⟨found, hfound, hq⟩ := refresh_ok hrefresh
  rw [hfetch true found hfound] at hq
  have hscript : q.script = some (.ofRows rows) := by
    rcases hq with ⟨_, rfl⟩ | ⟨_, _, rfl⟩
    · rfl
    · rfl
  intro script hq
  rw [hscript] at hq
  exact (Option.some.inj hq).symm

theorem script_advance (h : p.advance = some q) : q.script = p.script := by
  obtain ⟨_, _, _, _, _, rfl⟩ := advance_some h
  rfl

theorem script_choose {index : Nat} {a : Address} (h : p.choose index = .ok (a, q)) :
    q.script = p.script := by
  obtain ⟨_, _, _, _, _, _, _, _, _, rfl⟩ := choose_ok h
  rfl

theorem script_complete {t : Ticket} {loaded : Bool} (h : p.complete t loaded = some q) :
    q.script = p.script := by
  obtain ⟨_, _, _, _, _, _, _, rfl⟩ := complete_some h
  rfl

theorem Sound.script_pump (h : p.Sound) (stage : Stage) : (p.pump stage).1.script = p.script := by
  refine Sound.pump_induction (motive := fun p q _ => q.script = p.script) ?stop ?walk ?finish h
  case stop => exact fun _ _ => rfl
  case walk => exact fun _ _ _ _ ih => ih
  case finish => exact fun _ _ => rfl

theorem ScriptOf.attempt (h : p.ScriptOf rows) (result : Except PlaybackError Player)
    (hresult : ∀ q, result = .ok q → q.ScriptOf rows) :
    (p.attempt result).player.ScriptOf rows := by
  cases result with
  | error e => exact h
  | ok q => exact hresult q rfl

theorem ScriptOf.getD (h : p.ScriptOf rows) (result : Option Player)
    (hresult : ∀ q, result = some q → q.script = p.script) :
    (result.getD p).ScriptOf rows := by
  cases result with
  | none => exact h
  | some q => exact h.congr (hresult q rfl)

/-- No operation puts a script of other rows in place. -/
theorem ScriptOf.operate (h : p.ScriptOf rows) (hsound : p.Sound) {op : Operation}
    (hop : op.Supplies rows) : (p.operate op).player.ScriptOf rows := by
  cases op with
  | pump stage => exact h.congr (hsound.script_pump stage)
  | drain => exact h
  | cancel => exact h.congr (script_cancel p)
  | play fetch a => exact h.attempt _ fun q hq => h.play hop hq
  | refresh fetch => exact h.attempt _ fun q hq => scriptOf_refresh hop hq
  | advance => exact h.getD _ fun q hq => script_advance hq
  | complete t loaded => exact h.getD _ fun q hq => script_complete hq
  | load fetch =>
    simp only [Player.operate]
    cases hload : p.load fetch with
    | error e => exact h
    | ok loaded => exact h.load hop hload
  | choose index =>
    simp only [Player.operate]
    cases hchoose : p.choose index with
    | error e => exact h
    | ok chosen => exact h.congr (script_choose hchoose)
  | feed fetch input =>
    refine h.attempt _ fun q hq => ?_
    cases input with
    | jump a => exact h.play hop hq
    | refresh => exact scriptOf_refresh hop hq
    | proceed =>
      cases hq
      exact h.getD _ fun q hq => script_advance hq
    | loaded t =>
      cases hq
      exact h.getD _ fun q hq => script_complete hq
    | exit =>
      cases hq
      exact h.congr (script_cancel p)
    | choose index =>
      cases hchoose : p.choose index with
      | error e => simp [feed, hchoose, Except.map] at hq
      | ok chosen =>
        simp only [feed, hchoose, Except.map, Except.ok.injEq] at hq
        exact hq ▸ h.congr (script_choose hchoose)

/-- In a run in which the source has these rows, the script is that of the rows. -/
theorem scriptOf_after {ops : List Operation} (hops : ∀ op ∈ ops, op.Supplies rows) :
    (after ops).ScriptOf rows := by
  induction ops using List.reverseRec with
  | nil =>
    intro script hscript
    cases hscript
  | append_singleton ops op ih =>
    rw [after_concat]
    have hbefore := ih fun op' hop' => hops op' (List.mem_append_left _ hop')
    exact hbefore.operate (sound_after ops) (hops op (by simp))

/-- A player with a script has the rows of the script for every address. -/
theorem ScriptOf.rowsFor (h : p.ScriptOf rows) (hscript : p.script.isSome) (a : Address) :
    p.rowsFor a = (Script.ofRows rows).rowsAt a := by
  obtain ⟨script, hscript⟩ := Option.isSome_iff_exists.1 hscript
  rw [Player.rowsFor, rowsAt?, hscript, h script hscript]
  rfl

end Player

/-- Every session of such a run has the rows that the script of the rows has at its address. -/
theorem Chronicle.group_eq_rowsAt {rows : List Row} {ops : List Operation}
    (hops : ∀ op ∈ ops, op.Supplies rows) {ch : Chapter} (hch : ch ∈ (of ops).chapters) :
    ch.group = (Script.ofRows rows).rowsAt ch.address := by
  obtain ⟨before, op, later, rfl, hbegins, hgroup⟩ := group_of ops hch
  have hscript : (Player.after (before ++ [op])).ScriptOf rows := by
    refine Player.scriptOf_after fun op' hop' => hops op' ?_
    rcases List.mem_append.1 hop' with hop' | hop'
    · exact List.mem_append_left _ hop'
    · exact List.mem_append_right _ (List.mem_singleton.1 hop' ▸ List.mem_cons_self)
  -- a session has just begun, so a script is loaded
  have hloaded : (Player.after (before ++ [op])).script.isSome := by
    have hbegun := (Player.sound_after before).begunBy?_operate op
    rw [hbegins, ← Player.after_concat, Player.begunBy?] at hbegun
    split at hbegun
    · cases hbegun
    · obtain ⟨s, hs, _⟩ := Option.map_eq_some_iff.1 hbegun
      exact (Player.sound_after _).script s (Player.session?_eq_some_iff.1 hs)
  rw [hgroup, hscript.rowsFor hloaded]

/-! ## Decisions of rows of a sheet -/

namespace Row

variable {r : Row}

theorem WellFormed.cue_decision_ne_stop (h : r.WellFormed) : r.cue.decision ≠ .stop := by
  intro hstop
  obtain ⟨hcommand, hnone⟩ := cue_decision_stop hstop
  have htwo := h.choices hcommand
  rw [hnone] at htwo
  cases htwo

theorem WellFormed.two_le_of_awaitChoice (h : r.WellFormed) {options : List Choice}
    (hd : r.cue.decision = .awaitChoice options) : 2 ≤ options.length := by
  obtain ⟨hcommand, rfl, _⟩ := cue_decision_awaitChoice hd
  exact h.choices hcommand

end Row

/-! ## Chapters of completed sessions -/

namespace Chronicle

variable {c : Chronicle} {ch : Chapter}

/-- A chapter tells of the rows entered, and of the end of the session if it is over. -/
theorem Faithful.events_eq (h : c.Faithful) (hch : ch ∈ c.chapters) :
    ∃ (entered : Nat) (ending : Option Ending),
      ch.events = (ch.group.take entered).map Row.shown ++
        (ending.map (Ending.events ch.address)).getD [] ∧
      ∀ e ∈ ending, e.Fits ch.group entered := by
  rcases List.mem_append.1 hch with hpast | hcurrent
  · obtain ⟨i, hi⟩ := List.getElem?_of_mem hpast
    obtain ⟨entered, ending, hclosed, _⟩ := h.past i ch hi
    refine ⟨entered, some ending, hclosed.events, fun e he => ?_⟩
    obtain rfl := Option.some.inj he
    exact hclosed.fits
  · obtain ⟨s, _, hopen⟩ := h.open_of_current (Option.mem_toList.1 hcurrent)
    exact ⟨s.entered, none, hopen.events.trans (List.append_nil _).symm, fun _ he => nomatch he⟩

theorem Faithful.mem_group (h : c.Faithful) (hch : ch ∈ c.chapters) {row : Row}
    (hrow : row.shown ∈ ch.events) : row ∈ ch.group := by
  obtain ⟨entered, ending, hevents, _⟩ := h.events_eq hch
  rw [hevents] at hrow
  rcases List.mem_append.1 hrow with hrow | hrow
  · obtain ⟨row', hrow', heq⟩ := List.mem_map.1 hrow
    cases heq
    exact List.mem_of_mem_take hrow'
  · -- the events at the end show no row
    cases ending with
    | none => cases hrow
    | some ending => cases ending <;> simp [Ending.events, Row.shown] at hrow

/-- A session that completes and meets no row that stops has entered all rows of its group. -/
theorem Faithful.events_of_complete (h : c.Faithful) (hch : ch ∈ c.chapters)
    (hrows : ∀ row ∈ ch.group, row.cue.decision ≠ .stop) {a : Address}
    (ha : .sceneComplete a ∈ ch.events) :
    a = ch.address ∧
      ch.events = ch.group.map Row.shown ++ [.rowChanged none, .sceneComplete ch.address] := by
  obtain ⟨entered, ending, hevents, hfits⟩ := h.events_eq hch
  have hend : .sceneComplete a ∈ (ending.map (Ending.events ch.address)).getD [] := by
    rw [hevents] at ha
    rcases List.mem_append.1 ha with ha | ha
    · simp [Row.shown, -List.map_take] at ha
    · exact ha
  have hcompleted : ending = some .completed ∧ a = ch.address := by
    cases ending with
    | none => cases hend
    | some ending => cases ending <;> simp_all [Ending.events]
  obtain ⟨rfl, rfl⟩ := hcompleted
  refine ⟨rfl, ?_⟩
  rcases hfits _ rfl with rfl | ⟨row, hlast, hstop⟩
  · rw [hevents, List.take_length]
    rfl
  · have hrow := List.mem_of_mem_take (List.mem_of_getLast? hlast)
    exact absurd hstop (hrows row hrow)

end Chronicle

/-! ## Runs over a sheet -/

namespace Player

theorem Sound.two_le_pendingChoices {p : Player} {rows : List Row} (h : p.Sound)
    (hscript : p.ScriptOf rows) (hrows : ∀ row ∈ rows, row.WellFormed)
    (hstate : p.state = .awaitingChoice) : 2 ≤ p.pendingChoices.length := by
  cases hs : p.status with
  | idle | completed | canceled => simp [state, hs] at hstate
  | live s =>
    rw [state_live hs] at hstate
    rcases s.state_cases with hcase | hcase | ⟨_, hcase⟩ | ⟨⟨group, cursor, hp⟩, _⟩
    · simp [hcase.1] at hstate
    · simp [hcase.1] at hstate
    · simp [hcase.1] at hstate
    · obtain ⟨hgroup, row, hrow, hd⟩ := h.session s hs _ _ _ hp
      have hfound := hscript.rowsFor (h.script s hs) s.address
      rw [Player.rowsFor, hgroup, Option.getD_some] at hfound
      have hmem : row ∈ (Script.ofRows rows).rowsAt s.address :=
        hfound ▸ List.mem_of_getElem? hrow
      rw [pendingChoices, hs]
      exact (hrows row (Script.mem_of_mem_rowsAt hmem)).two_le_of_awaitChoice hd

open Chronicle (of)

/-- Every run over the rows of a sheet, in which the source gives these rows or fails. The script is
that of the rows. Every row entered is one of the sheet, and its decision is not to stop. Where a
choice is awaited, there are two options at least. All events are those of the sessions, one after
the other, and a session that completes has told of all rows of its group, in playing order, of
which none is a choice, and then of its end. -/
theorem completes_of_sheet {text : String} {sheet : Sheet} (hsheet : Sheet.ofText text = .ok sheet)
    {ops : List Operation} (hops : ∀ op ∈ ops, op.Supplies sheet.rows) :
    (∀ script, (after ops).script = some script → script = .ofRows sheet.rows) ∧
    (∀ row : Row, row.shown ∈ eventsTold ops ++ (after ops).events →
      row ∈ sheet.rows ∧ row.cue.decision ≠ .stop) ∧
    ((after ops).state = .awaitingChoice → 2 ≤ (after ops).pendingChoices.length) ∧
    (of ops).chapters.map Chapter.address = sessionsBegun ops ∧
    eventsTold ops ++ (after ops).events = (of ops).chapters.flatMap Chapter.events ∧
    ∀ ch ∈ (of ops).chapters, ∀ a, .sceneComplete a ∈ ch.events →
      a = ch.address ∧
      ch.events = ((Script.ofRows sheet.rows).rowsAt a).map Row.shown ++
        [.rowChanged none, .sceneComplete a] ∧
      ∀ row ∈ (Script.ofRows sheet.rows).rowsAt a, row.command ≠ .setOption := by
  have hfaithful := Chronicle.faithful_of ops
  have hscript := scriptOf_after hops
  have hwell : ∀ row ∈ sheet.rows, row.WellFormed := fun row => Sheet.wellFormed_of_ofText hsheet
  have hevents := hfaithful.events
  rw [Chronicle.told_of, Chronicle.player_of] at hevents
  have hgroup : ∀ ch ∈ (of ops).chapters, ∀ row ∈ ch.group, row ∈ sheet.rows := by
    intro ch hch row hrow
    rw [Chronicle.group_eq_rowsAt hops hch] at hrow
    exact Script.mem_of_mem_rowsAt hrow
  refine ⟨hscript, ?_, (sound_after ops).two_le_pendingChoices hscript hwell,
    Chronicle.addresses_of ops, hevents, ?_⟩
  · intro row hrow
    rw [hevents] at hrow
    obtain ⟨ch, hch, hrow⟩ := List.mem_flatMap.1 hrow
    have hmem := hgroup ch hch row (hfaithful.mem_group hch hrow)
    exact ⟨hmem, (hwell row hmem).cue_decision_ne_stop⟩
  · intro ch hch a ha
    have hne : ∀ row ∈ ch.group, row.cue.decision ≠ .stop :=
      fun row hrow => (hwell row (hgroup ch hch row hrow)).cue_decision_ne_stop
    obtain ⟨rfl, htold⟩ := hfaithful.events_of_complete hch hne ha
    rw [← Chronicle.group_eq_rowsAt hops hch]
    refine ⟨rfl, htold, fun row hrow => ?_⟩
    have hshown : row.shown ∈ ch.events := by
      rw [htold]
      exact List.mem_append_left _ (List.mem_map_of_mem hrow)
    rcases (Chronicle.passing_of ops).chapters ch hch ha row hshown with hgoes | hstop
    · exact Row.command_ne_setOption_of_goesOn hgoes
    · exact absurd hstop (hne row hrow)

/-- A sheet with a choice and two branches. The first branch is chosen and played to its end. -/
theorem completes_of_sheet_choice :
    let text := "ID,Branch,Command,Name,Dialogue,Options\n1,0,SetOption,,,Stay:1|Leave:2\n" ++
      "1,1,SetCharacter,,,\n1,1,,Ann,Hello.,\n"
    let choice : Row :=
      { scene := 1, command := .setOption, choices := [⟨"Stay", 1⟩, ⟨"Leave", 2⟩] }
    let enter : Row := { scene := 1, branch := 1, command := .setCharacter }
    let hello : Row :=
      { scene := 1, branch := 1, command := .say, speaker := "Ann", line := "Hello." }
    let rows := [choice, enter, hello]
    let source : Fetch := fun _ => .ok rows
    let ops : List Operation := [.play source ⟨1, 0⟩, .pump readyStage, .choose 0,
      .pump readyStage, .advance, .pump readyStage]
    Sheet.ofText text = .ok ⟨rows, []⟩ ∧ (∀ op ∈ ops, op.Supplies rows) ∧
      ∃ ch ∈ (of ops).chapters, .sceneComplete ⟨1, 1⟩ ∈ ch.events ∧
        ch.events = [enter, hello].map Row.shown ++ [.rowChanged none, .sceneComplete ⟨1, 1⟩] := by
  intro text choice enter hello rows source ops
  have hsheet : Sheet.ofText text = .ok ⟨rows, []⟩ := by decide +kernel
  have hsource : source.Gives rows := by
    intro _ found hfound
    exact (Except.ok.inj hfound).symm
  have hops : ∀ op ∈ ops, op.Supplies rows := by
    simp [ops, Operation.Supplies, hsource]
  obtain ⟨_, _, _, _, _, hcomplete⟩ := completes_of_sheet hsheet hops
  have htold : ((of ops).chapters.filter fun ch =>
      ch.events.contains (.sceneComplete ⟨1, 1⟩)).length = 1 := by decide +kernel
  obtain ⟨ch, hone⟩ := List.length_eq_one_iff.1 htold
  obtain ⟨hch, ha⟩ := List.mem_filter.1 (hone ▸ List.mem_singleton_self ch)
  have ha := List.contains_iff_mem.1 ha
  have hrows : (Script.ofRows rows).rowsAt ⟨1, 1⟩ = [enter, hello] := by decide +kernel
  obtain ⟨_, hevents, _⟩ := hcomplete ch hch _ ha
  rw [hrows] at hevents
  exact ⟨hsheet, hops, ch, hch, ha, hevents⟩

end Player

end Dialogue
