import Dialogue.Proofs.Playback.Reachable

/-!
# Calls and events, session by session

What the sessions of a run make of the rows they walk. All calls and all events of a run are those
of its sessions, one session after the other; a session makes the calls of its rows from the front
and tells the rows it enters, and how it ends says how far it came.

* `Chapter.Open` ties the chapter of the live session to where the session stands: what is made
  and what remains are the beats of the rows, and the rows told are those entered.
* `Chapter.Closed` is what stays of that when the session ends.
* `Chronicle.Faithful` says this of all chapters of a chronicle; every move keeps it.
* `Chronicle.calls_of_sessions` and `Chronicle.events_of_sessions` read it off for every run.
-/

namespace Dialogue

/-- How a session ends. -/
inductive Ending where
  | completed
  | canceled
  /-- A choice led to this branch of the scene. -/
  | handedOver (branch : Int32)
deriving DecidableEq, Repr

/-- The events that tell of the end of a session of an address. -/
def Ending.events (a : Address) : Ending → List Event
  | .completed => [.rowChanged none, .sceneComplete a]
  | .canceled => [.canceled a]
  | .handedOver branch => [.branched a.scene a.branch branch]

/-- Where a session can end: it completes behind the last row or at a row that stops, and is
handed over at a row that offers the branch. -/
def Ending.Fits (group : List Row) (entered : Nat) : Ending → Prop
  | .completed => entered = group.length ∨
    ∃ row, (group.take entered).getLast? = some row ∧ row.cue.decision = .stop
  | .canceled => True
  | .handedOver branch => ∃ row, (group.take entered).getLast? = some row ∧
    row.command = .setOption ∧ ∃ option ∈ row.choices, option.target = branch

namespace Chapter

/-- The chapter of the live session `s` of a player. -/
structure Open (p : Player) (s : Session) (ch : Chapter) : Prop where
  generation : ch.generation = s.generation
  address : ch.address = s.address
  group : ch.group = p.rowsFor s.address
  /-- What is made and what remains is what the rows ask for. -/
  calls : ∃ made, beats ch.group = made ++ s.remaining ch.group ∧
    ch.bareCalls = made.map Beat.call
  events : ch.events = (ch.group.take s.entered).map Row.shown

/-- The chapter of a session that entered this many rows and then ended. -/
structure Closed (ch : Chapter) (entered : Nat) (ending : Ending) : Prop where
  le : entered ≤ ch.group.length
  events : ch.events = (ch.group.take entered).map Row.shown ++ ending.events ch.address
  fits : ending.Fits ch.group entered
  part : ch.bareCalls <+: reference ch.group
  whole : ending ≠ .canceled → ch.bareCalls = reference ch.group

end Chapter

/-! ## A live session comes on -/

namespace Chapter.Open

variable {p q : Player} {s s' : Session} {ch : Chapter} {calls : List (Call × Answer)}
  {told : List Event}

theorem begun (hp : s.progress = .opening) : (Chapter.begun p s).Open p s :=
  ⟨rfl, rfl, rfl, ⟨[], by simp [Session.remaining, hp], rfl⟩,
    by simp [Session.entered, hp, Chapter.begun]⟩

/-- A live session comes on by what it takes off the front of what remains, and tells the rows
that it enters. -/
theorem write (h : ch.Open p s) (made : List Beat) (hgen : s'.generation = s.generation)
    (haddress : s'.address = s.address) (hscript : q.script = p.script)
    (hremaining : s.remaining ch.group = made ++ s'.remaining ch.group)
    (hcalls : calls.map (fun made => made.1.bare) = made.map Beat.call)
    (hentered : (ch.group.take s'.entered).map Row.shown =
      (ch.group.take s.entered).map Row.shown ++ told) : (ch.write calls told).Open q s' := by
  obtain ⟨before, hbeats, hbefore⟩ := h.calls
  refine ⟨h.generation.trans hgen.symm, h.address.trans haddress.symm, ?_, ?_, ?_⟩
  · rw [haddress]
    exact h.group.trans (by simp [Player.rowsFor, Player.rowsAt?, hscript])
  · refine ⟨before ++ made, ?_, ?_⟩
    · rw [List.append_assoc]
      exact hbeats.trans (congrArg _ hremaining)
    · rw [List.map_append, ← hbefore, ← hcalls]
      exact List.map_append
  · show ch.events ++ told = _
    rw [h.events]
    exact hentered.symm

theorem bareCalls_part (h : ch.Open p s) : ch.bareCalls <+: reference ch.group := by
  obtain ⟨made, hbeats, hmade⟩ := h.calls
  refine ⟨(s.remaining ch.group).map Beat.call, ?_⟩
  rw [reference, hbeats, List.map_append, hmade]

theorem bareCalls_eq (h : ch.Open p s) (hnil : s.remaining ch.group = []) :
    ch.bareCalls = reference ch.group := by
  obtain ⟨made, hbeats, hmade⟩ := h.calls
  rw [reference, hbeats, hnil, List.append_nil, hmade]

theorem entered_le (h : ch.Open p s) (hsound : p.Sound) (hs : p.status = .live s) :
    s.entered ≤ ch.group.length := by
  rw [h.group]
  have hsession := hsound.session s hs
  cases hp : s.progress with
  | opening => simp [Session.entered, hp]
  | within rows cursor phase =>
    obtain ⟨hrows, _⟩ := hsession _ _ _ hp
    rw [Player.rowsFor, hrows]
    rw [hrows] at hsession
    exact hsession.entered_le

theorem closed (h : ch.Open p s) (hsound : p.Sound) (hs : p.status = .live s) (ending : Ending)
    (hfits : ending.Fits ch.group s.entered)
    (hwhole : ending ≠ .canceled → s.remaining ch.group = []) :
    (ch.write [] (ending.events s.address)).Closed s.entered ending := by
  refine ⟨h.entered_le hsound hs, ?_, hfits, ?_, ?_⟩
  · show ch.events ++ _ = (ch.group.take s.entered).map Row.shown ++ ending.events ch.address
    rw [h.events, h.address]
  · simpa [Chapter.bareCalls, Chapter.write] using h.bareCalls_part
  · intro hending
    simpa [Chapter.bareCalls, Chapter.write] using h.bareCalls_eq (hwhole hending)

end Chapter.Open

namespace Session

variable {group : List Row} {found : Option (List Row)} {s : Session}

theorem Finishes.fits (hend : s.Finishes group) (hsound : s.Sound found) :
    Ending.completed.Fits group s.entered := by
  cases hend with
  | missing h hgroup => exact Or.inl (by simp [entered, h, hgroup])
  | ranOut h hrow =>
    obtain ⟨_, hle⟩ := hsound _ _ _ h
    left
    rw [entered, h]
    exact Nat.le_antisymm hle (List.getElem?_eq_none_iff.1 hrow)
  | stopped h =>
    obtain ⟨_, row, hrow, _, hd⟩ := hsound _ _ _ h
    exact Or.inr ⟨row, by simp [entered, h, take_succ_of_getElem? hrow], hd⟩

/-- A session that waits for a choice is handed over where the choice is offered. -/
theorem Sound.handedOver_fits {cursor : Nat} {options : List Choice} {option : Choice}
    (hsound : s.Sound found) (hp : s.progress = .within group cursor (.choosing options))
    (hoption : option ∈ options) : (Ending.handedOver option.target).Fits group s.entered := by
  obtain ⟨_, row, hrow, hd⟩ := hsound _ _ _ hp
  obtain ⟨hcommand, rfl, _⟩ := Row.cue_decision_awaitChoice hd
  exact ⟨row, by simp [entered, hp, take_succ_of_getElem? hrow], hcommand, option, hoption, rfl⟩

end Session

/-! ## Chronicles in order -/

/-- A chapter that is closed, and after which the chapter of the right branch follows if it was
handed over. It is the one with number `i` of chapters at these addresses. -/
def Chapter.ClosedAt (addresses : List Address) (i : Nat) (ch : Chapter) : Prop :=
  ∃ entered ending, ch.Closed entered ending ∧
    ∀ branch, ending = .handedOver branch → addresses[i + 1]? = some ⟨ch.address.scene, branch⟩

theorem Chapter.ClosedAt.mono {addresses addresses' : List Address} {i : Nat} {ch : Chapter}
    (h : ch.ClosedAt addresses i) (hmore : addresses <+: addresses') :
    ch.ClosedAt addresses' i := by
  obtain ⟨entered, ending, hclosed, hnext⟩ := h
  refine ⟨entered, ending, hclosed, fun branch hbranch => ?_⟩
  have hi := hnext branch hbranch
  obtain ⟨later, rfl⟩ := hmore
  rw [List.getElem?_append_left (List.getElem?_eq_some_iff.1 hi).1, hi]

theorem getElem?_concat_cases {α : Type} {l : List α} {a b : α} {i : Nat}
    (h : (l ++ [a])[i]? = some b) : l[i]? = some b ∨ i = l.length ∧ b = a := by
  rcases Nat.lt_trichotomy i l.length with hi | rfl | hi
  · rw [List.getElem?_append_left hi] at h
    exact Or.inl h
  · rw [List.getElem?_concat_length] at h
    exact Or.inr ⟨rfl, (Option.some.inj h).symm⟩
  · have hlt := (List.getElem?_eq_some_iff.1 h).1
    rw [List.length_append, List.length_singleton] at hlt
    omega

namespace Chronicle

/-- What is written down is what happened: all calls and events are those of the chapters, each
past chapter is closed, and the current one belongs to the live session. -/
structure Faithful (c : Chronicle) : Prop where
  calls : c.calls = c.chapters.flatMap Chapter.calls
  events : c.told ++ c.player.events = c.chapters.flatMap Chapter.events
  past : ∀ i (ch : Chapter), c.past[i]? = some ch → ch.ClosedAt (c.chapters.map Chapter.address) i
  live : ∀ s, c.player.status = .live s → ∃ ch, c.current = some ch ∧ ch.Open c.player s
  idle : c.player.session? = none → c.current = none

variable {c c' : Chronicle} {q : Player} {s s' : Session} {calls : List (Call × Answer)}
  {told : List Event}

theorem faithful_new : Faithful {} :=
  ⟨rfl, rfl, fun _ _ h => (nomatch h), fun _ h => (nomatch h), fun _ => rfl⟩

theorem Faithful.same (h : c.Faithful) (hs : c.player.status = .live s) (hq : q.status = .live s')
    (hgen : s'.generation = s.generation) (hevents : q.events = c.player.events ++ told)
    (hopen : ∀ ch : Chapter, ch.Open c.player s → (ch.write calls told).Open q s') :
    (c.moveTo q calls told).Faithful := by
  have hsame : q.liveGeneration? = c.player.liveGeneration? := by
    rw [Player.liveGeneration?_live hs, Player.liveGeneration?_live hq, hgen]
  obtain ⟨ch, hcurrent, hch⟩ := h.live s hs
  have hcalls := h.calls
  have htold := h.events
  have hpast := h.past
  simp only [chapters, hcurrent, Option.toList_some, List.flatMap_append, List.flatMap_singleton,
    List.map_append] at hcalls htold hpast
  -- the current chapter is the last, so what is added to it is added to the whole
  rw [moveTo_same hsame]
  constructor
  case calls => simp [chapters, hcurrent, hcalls, Chapter.write]
  case events => simp [chapters, hcurrent, hevents, ← List.append_assoc, htold, Chapter.write]
  case past => simpa [chapters, hcurrent, Chapter.write] using hpast
  case live =>
    intro s'' hs''
    rw [hq] at hs''
    cases hs''
    exact ⟨ch.write calls told, by simp [hcurrent], hopen ch hch⟩
  case idle =>
    intro hnone
    exact absurd hq (Player.session?_eq_none_iff.1 hnone s')

theorem Faithful.still (h : c.Faithful) (hs : c.player.status = .live s) (hq : q.status = .live s')
    (hgen : s'.generation = s.generation) (haddress : s'.address = s.address)
    (hscript : q.script = c.player.script) (hevents : q.events = c.player.events)
    (hremaining : ∀ group, s.remaining group = s'.remaining group)
    (hentered : s'.entered = s.entered) : (c.moveTo q [] []).Faithful := by
  refine h.same hs hq hgen (hevents.trans (List.append_nil _).symm) fun ch hch => ?_
  exact hch.write [] hgen haddress hscript (hremaining _) rfl (by rw [hentered, List.append_nil])

theorem exists_begun (hq : q.status = .live s) (hopening : s.progress = .opening) :
    ∃ ch, q.session?.map (Chapter.begun q) = some ch ∧ ch.Open q s :=
  ⟨Chapter.begun q s, by rw [Player.session?_live hq, Option.map_some], .begun hopening⟩

theorem Faithful.begun (h : c.Faithful) (hnone : c.player.session? = none)
    (hq : q.status = .live s) (hopening : s.progress = .opening)
    (hevents : q.events = c.player.events) : (c.moveTo q [] []).Faithful := by
  have hother : q.liveGeneration? ≠ c.player.liveGeneration? := by
    simp [Player.liveGeneration?_none hnone, Player.liveGeneration?_live hq]
  have hcurrent := h.idle hnone
  have hsession := Player.session?_live hq
  have hcalls := h.calls
  have htold := h.events
  have hpast := h.past
  simp only [chapters, hcurrent, Option.toList_none, List.append_nil] at hcalls htold hpast
  rw [moveTo_other hother]
  constructor
  case calls => simp [chapters, hcurrent, hsession, hcalls, Chapter.begun]
  case events => simp [chapters, hcurrent, hsession, hevents, htold, Chapter.begun]
  case past =>
    intro i ch hi
    simp only [hcurrent, Option.map_none, Option.toList_none, List.append_nil] at hi
    refine (hpast i ch hi).mono ?_
    simp [chapters, hcurrent]
  case live =>
    intro s' hs'
    rw [hq] at hs'
    cases hs'
    exact exists_begun hq hopening
  case idle => exact fun hnone => absurd hq (Player.session?_eq_none_iff.1 hnone s)

/-- When a session ends, its chapter is closed; the next session may begin at once. -/
theorem Faithful.over (h : c.Faithful) (hs : c.player.status = .live s)
    (hother : q.liveGeneration? ≠ c.player.liveGeneration?)
    (hevents : q.events = c.player.events ++ told)
    (hopening : ∀ s', q.status = .live s' → s'.progress = .opening)
    (hclosed : ∀ ch : Chapter, ch.Open c.player s →
      ∃ entered ending, (ch.write [] told).Closed entered ending ∧
        ∀ branch, ending = .handedOver branch →
          ∃ s', q.status = .live s' ∧ s'.address = ⟨ch.address.scene, branch⟩) :
    (c.moveTo q [] told).Faithful := by
  obtain ⟨ch, hcurrent, hch⟩ := h.live s hs
  obtain ⟨entered, ending, hend, hnext⟩ := hclosed ch hch
  have hcalls := h.calls
  have htold := h.events
  have hpast := h.past
  simp only [chapters, hcurrent, Option.toList_some, List.flatMap_append, List.flatMap_singleton,
    List.map_append] at hcalls htold hpast
  -- the chapter of a session that begins is still empty
  have hfresh : (q.session?.map (Chapter.begun q)).toList.flatMap Chapter.calls = [] ∧
      (q.session?.map (Chapter.begun q)).toList.flatMap Chapter.events = [] := by
    cases q.session? with
    | none => exact ⟨rfl, rfl⟩
    | some s' => exact ⟨rfl, rfl⟩
  rw [moveTo_other hother]
  constructor
  case calls => simp [chapters, hcurrent, hcalls, hfresh.1, Chapter.write]
  case events =>
    simp [chapters, hcurrent, hevents, ← List.append_assoc, htold, hfresh.2, Chapter.write]
  case past =>
    intro i ch' hi
    rw [hcurrent, Option.map_some, Option.toList_some] at hi
    rcases getElem?_concat_cases hi with hi | ⟨rfl, rfl⟩
    · -- the list of addresses only grows
      refine (hpast i ch' hi).mono ?_
      simp [chapters, hcurrent, Chapter.write]
    · -- the chapter just closed was the last one, so a session that begins has the next
      refine ⟨entered, ending, hend, fun branch hbranch => ?_⟩
      obtain ⟨s', hs', haddress⟩ := hnext branch hbranch
      have hlength : c.past.length = (c.past.map Chapter.address).length := by simp
      rw [hlength]
      simp [chapters, hcurrent, Player.session?_live hs', Chapter.begun, haddress, Chapter.write]
  case live => exact fun s' hs' => exists_begun hs' (hopening s' hs')
  case idle =>
    intro hnone
    have hq : q.session? = none := hnone
    simp [hq]

/-- Every move keeps a chronicle faithful. -/
theorem Move.faithful (hsound : c.player.Sound) (h : Move c c') (hfaithful : c.Faithful) :
    c'.Faithful := by
  cases h with
  | scripted hnone script =>
    exact ⟨hfaithful.calls, hfaithful.events, hfaithful.past,
      fun s hs => absurd hs (Player.session?_eq_none_iff.1 hnone s), hfaithful.idle⟩
  | told =>
    refine ⟨hfaithful.calls, ?_, hfaithful.past, ?_, hfaithful.idle⟩
    · exact (List.append_nil _).trans hfaithful.events
    · intro s hs
      obtain ⟨ch, hcurrent, hch⟩ := hfaithful.live s hs
      exact ⟨ch, hcurrent, hch.generation, hch.address, hch.group, hch.calls, hch.events⟩
  | begun hnone hscript a => exact hfaithful.begun hnone rfl rfl rfl
  | @dropped s hs =>
    have hcancel := Player.cancel_live hs
    have hother := Player.liveGeneration?_over_ne hs (Player.session?_cancel c.player)
    refine hfaithful.over hs hother (by rw [hcancel]) ?_ ?_
    · intro s' hs'
      exact absurd hs' (Player.session?_eq_none_iff.1 (Player.session?_cancel _) s')
    · intro ch hch
      refine ⟨s.entered, .canceled, ?_, fun branch hbranch => nomatch hbranch⟩
      exact hch.closed hsound hs .canceled trivial fun hending => absurd rfl hending
  | @finished s hs hend =>
    have hnone : (c.player.finish s).session? = none := rfl
    have hother := Player.liveGeneration?_over_ne hs hnone
    refine hfaithful.over hs hother (List.append_assoc _ _ _) ?_ ?_
    · exact fun s' hs' => absurd hs' (Player.session?_eq_none_iff.1 hnone s')
    · intro ch hch
      refine ⟨s.entered, .completed, ?_, fun branch hbranch => nomatch hbranch⟩
      rw [← hch.group] at hend
      have hfits := hend.fits (hsound.session s hs)
      exact hch.closed hsound hs .completed hfits fun _ => hend.remaining
  | @handedOver s rows cursor options option hs hp hoption =>
    have hother := hsound.liveGeneration?_handOver_ne hs option.target
    have hsession := hsound.session s hs
    have hrows := (hsession _ _ _ hp).1
    refine hfaithful.over hs hother rfl ?_ ?_
    · intro s' hs'
      cases hs'
      rfl
    · intro ch hch
      have hgroup : ch.group = rows := by rw [hch.group, Player.rowsFor, hrows, Option.getD_some]
      refine ⟨s.entered, .handedOver option.target, ?_, ?_⟩
      · -- after the choice is offered nothing remains, so all calls are made
        refine hch.closed hsound hs (.handedOver option.target) ?_ fun _ => ?_
        · rw [hgroup]
          exact hsession.handedOver_fits hp hoption
        · simp [Session.remaining, hp, Phase.remaining]
      · intro branch hbranch
        cases hbranch
        exact ⟨_, rfl, by rw [hch.address]⟩
  | @walked stage s group next made calls told hs hgroup hw =>
    refine hfaithful.same hs rfl rfl rfl ?_
    intro ch hch
    have hrows : ch.group = group := by rw [hch.group, Player.rowsFor, hgroup, Option.getD_some]
    refine hch.write made rfl rfl rfl ?_ ?_ ?_
    · rw [hrows]
      exact hw.remaining
    · rw [← hw.calls_bare, List.map_map]
      rfl
    · rw [hrows]
      exact hw.entered_eq
  | @read s rows cursor hs hp =>
    refine hfaithful.still hs rfl rfl rfl rfl rfl (fun group => ?_) ?_
    · simp [Session.remaining, hp, Phase.remaining]
    · simp [Session.entered, hp]
  | @resumed s rows cursor t es d hs hp =>
    have hstill : (c.moveTo (c.player.place s rows cursor (.acting es d)) [] []).Faithful := ?_
    · exact ⟨hstill.calls, hstill.events, hstill.past, hstill.live, hstill.idle⟩
    · refine hfaithful.still hs rfl rfl rfl rfl rfl (fun group => ?_) ?_
      · simp [Session.remaining, hp, Phase.remaining]
      · simp [Session.entered, hp]

theorem faithful_of (ops : List Operation) : (of ops).Faithful :=
  (of_induction faithful_new Move.faithful ops).2

end Chronicle

/-! ## What the chapters say -/

namespace Chapter

def Completed (ch : Chapter) : Prop :=
  .sceneComplete ch.address ∈ ch.events

def HandedOver (ch : Chapter) : Prop :=
  ∃ branch, .branched ch.address.scene ch.address.branch branch ∈ ch.events

variable {p : Player} {s : Session} {ch : Chapter}

theorem Open.not_over (h : ch.Open p s) : ¬ (ch.Completed ∨ ch.HandedOver) := by
  simp [Completed, HandedOver, h.events, Row.shown, -List.map_take]

theorem Closed.bareCalls_eq {entered : Nat} {ending : Ending} (h : ch.Closed entered ending)
    (hover : ch.Completed ∨ ch.HandedOver) : ch.bareCalls = reference ch.group := by
  refine h.whole ?_
  rintro rfl
  simp [Completed, HandedOver, h.events, Row.shown, Ending.events, -List.map_take] at hover

end Chapter

namespace Chronicle

variable {c : Chronicle}

theorem Faithful.current_isSome_iff (h : c.Faithful) :
    c.current.isSome ↔ c.player.session?.isSome := by
  cases hs : c.player.session? with
  | none => simp [h.idle hs]
  | some s =>
    obtain ⟨ch, hcurrent, _⟩ := h.live s (Player.session?_eq_some_iff.1 hs)
    simp [hcurrent]

theorem Faithful.open_of_current (h : c.Faithful) {ch : Chapter} (hcurrent : c.current = some ch) :
    ∃ s, c.player.session? = some s ∧ ch.Open c.player s := by
  cases hs : c.player.session? with
  | none =>
    rw [h.idle hs] at hcurrent
    cases hcurrent
  | some s =>
    obtain ⟨ch', hcurrent', hch⟩ := h.live s (Player.session?_eq_some_iff.1 hs)
    rw [hcurrent'] at hcurrent
    cases hcurrent
    exact ⟨s, rfl, hch⟩

theorem Faithful.bareCalls (h : c.Faithful) {ch : Chapter} (hch : ch ∈ c.chapters) :
    ch.bareCalls <+: reference ch.group ∧
      (ch.Completed ∨ ch.HandedOver → ch.bareCalls = reference ch.group) := by
  rcases List.mem_append.1 hch with hpast | hcurrent
  · obtain ⟨i, hi⟩ := List.getElem?_of_mem hpast
    obtain ⟨entered, ending, hclosed, _⟩ := h.past i ch hi
    exact ⟨hclosed.part, hclosed.bareCalls_eq⟩
  · rw [Option.mem_toList] at hcurrent
    obtain ⟨s, _, hopen⟩ := h.open_of_current hcurrent
    exact ⟨hopen.bareCalls_part, fun hover => absurd hover hopen.not_over⟩

/-- The events of a run, those handed over and those still to be told. They are the events of its
sessions, one after the other. A session that is over tells of the rows it entered, in order, and
then of its end; what the rows say fits the end, and after a choice the session of the chosen
branch is next. The live session, if there is one, is the last and tells of rows alone. -/
theorem events_of_sessions (ops : List Operation) :
    (of ops).chapters.map Chapter.address = Player.sessionsBegun ops ∧
    Player.eventsTold ops ++ (Player.after ops).events =
      (of ops).chapters.flatMap Chapter.events ∧
    (∀ i (ch : Chapter), (of ops).past[i]? = some ch →
      ∃ (entered : Nat) (ending : Ending), entered ≤ ch.group.length ∧
      ch.events = (ch.group.take entered).map Row.shown ++ ending.events ch.address ∧
      ending.Fits ch.group entered ∧
      ∀ branch, ending = .handedOver branch → ∃ next, (of ops).chapters[i + 1]? = some next ∧
        next.address = ⟨ch.address.scene, branch⟩) ∧
    ((of ops).current.isSome ↔ (Player.after ops).session?.isSome) ∧
    ∀ ch, (of ops).current = some ch → ∃ s entered, (Player.after ops).session? = some s ∧
      ch.address = s.address ∧ ch.group = (Player.after ops).rowsFor s.address ∧
      entered ≤ ch.group.length ∧ ch.events = (ch.group.take entered).map Row.shown := by
  have h := faithful_of ops
  have hsound := Player.sound_after ops
  rw [← player_of] at hsound
  rw [← told_of, ← player_of]
  refine ⟨addresses_of ops, h.events, fun i ch hi => ?_, h.current_isSome_iff,
    fun ch hcurrent => ?_⟩
  · obtain ⟨entered, ending, hclosed, hnext⟩ := h.past i ch hi
    refine ⟨entered, ending, hclosed.le, hclosed.events, hclosed.fits, fun branch hbranch => ?_⟩
    have haddress := hnext branch hbranch
    rw [List.getElem?_map] at haddress
    exact Option.map_eq_some_iff.1 haddress
  · obtain ⟨s, hs, hopen⟩ := h.open_of_current hcurrent
    have hlive := Player.session?_eq_some_iff.1 hs
    exact ⟨s, s.entered, hs, hopen.address, hopen.group, hopen.entered_le hsound hlive,
      hopen.events⟩

end Chronicle

/-! ## The calls that come through the port -/

theorem Session.rows_track (s : Session) : s.track.rows = s.rows? := by
  cases hp : s.progress with
  | opening => simp [track, rows?, hp]
  | within rows cursor phase => cases phase <;> simp [track, trackAt, rows?, hp]

namespace Controller

/-- The address of the session that an operation begins, if it does: that of the session after it,
unless this is the one that was there before. -/
def begun? (c : Controller) (op : Operation) : Option Address :=
  let session := (c.operate op).2.session
  if session.map Track.generation = c.session.map Track.generation then none
  else session.map Track.address

/-- The addresses at which operations begin sessions from this controller on, in order. -/
def sessionsBegun (c : Controller) : List Operation → List Address
  | [] => []
  | op :: ops => (c.begun? op).toList ++ (c.operate op).2.sessionsBegun ops

theorem begun?_controller {p : Player} (h : p.Sound) (port : Port) (op : Operation) :
    (p.controller port).begun? op = op.begins? p := by
  have hgeneration : Track.generation ∘ Session.track = Session.generation :=
    funext Session.generation_track
  have haddress : Track.address ∘ Session.track = Session.address := funext Session.address_track
  rw [← h.begunBy?_operate op, begun?, Player.operate_controller]
  simp only [Player.controller, Option.map_map, hgeneration, haddress, Player.begunBy?,
    Player.liveGeneration?]
  rfl

theorem sessionsBegun_controller {p : Player} (h : p.Sound) (port : Port) (ops : List Operation) :
    (p.controller port).sessionsBegun ops =
      p.along (fun p op => (op.begins? p).toList) ops := by
  induction ops generalizing p port with
  | nil => rfl
  | cons op ops ih =>
    rw [sessionsBegun, begun?_controller h, Player.operate_controller, ih (h.operate op)]
    rfl

theorem told_controller (p : Player) (port : Port) (ops : List Operation) :
    ((p.controller port).replies ops).flatMap Operation.Reply.events = p.told ops := by
  rw [replies_controller]
  induction ops generalizing p with
  | nil => rfl
  | cons op ops ih => rw [Player.replies_cons, List.flatMap_cons, ih, Player.told_cons]

/-- The calls of a run, as they come through the port. Only pumps make any, although a choice does a
unit of work as well. They are the calls of the sessions of the run, one after the other, as its
events are theirs. Each session makes the calls of its rows from the front, and all of them if it
waits for a choice, is handed over, or comes to its end. The rows are those that the script has for
the session as it begins, and they are the ones that it looks up. -/
theorem calls_of_sessions (stage : Stage) (ops : List Operation) :
    let c := after stage ops
    let chapters := (Chronicle.of ops).chapters
    (∀ op, (∀ stage', op ≠ .pump stage') → (c.operate op).2.port = c.port) ∧
    chapters.map Chapter.address = (new stage).sessionsBegun ops ∧
    c.port.calls = chapters.flatMap (fun ch => ch.calls.map Prod.fst) ∧
    ((new stage).replies ops).flatMap Operation.Reply.events ++ c.events =
      chapters.flatMap Chapter.events ∧
    (∀ ch ∈ chapters, ch.bareCalls <+: reference ch.group ∧
      (ch.Completed ∨ ch.HandedOver → ch.bareCalls = reference ch.group) ∧
      ∃ before op later, ops = before ++ op :: later ∧
        (after stage before).begun? op = some ch.address ∧
        ch.group = ((after stage (before ++ [op])).rowsAt? ch.address).getD []) ∧
    ∀ s, c.session = some s → ∃ ch, (Chronicle.of ops).current = some ch ∧
      ch.generation = s.generation ∧ ch.address = s.address ∧
      ch.group = (c.rowsAt? s.address).getD [] ∧
      (∀ rows, s.rows = some rows → ch.group = rows) ∧
      (c.state = .awaitingChoice → ch.bareCalls = reference ch.group) := by
  intro c chapters
  have h := Chronicle.faithful_of ops
  have hsound := Player.sound_after ops
  obtain ⟨answer, hafter⟩ := exists_after_eq stage ops
  refine ⟨?quiet, ?sessions, ?calls, ?events, ?past, ?live⟩
  case quiet =>
    intro op hop
    have hport : ∀ port, op.port port = port := by
      intro port
      cases op with
      | pump stage' => exact absurd rfl (hop stage')
      | load | play | refresh | advance | choose | complete | cancel | feed | drain => rfl
    rw [show c = _ from hafter, Player.operate_controller, Player.operate_no_calls hop, hport]
    exact Port.after_nil _
  case sessions =>
    rw [Chronicle.addresses_of]
    exact (sessionsBegun_controller Player.sound_new _ ops).symm
  case calls =>
    rw [show c = _ from hafter, ← List.map_flatMap, ← h.calls, Chronicle.calls_of]
    rfl
  case events =>
    rw [show c = _ from hafter, ← h.events, Chronicle.told_of, Chronicle.player_of]
    exact congrArg (· ++ _) (told_controller {} _ ops)
  case past =>
    intro ch hch
    obtain ⟨before, op, later, hops, hbegins, hgroup⟩ := Chronicle.group_of ops hch
    refine ⟨(h.bareCalls hch).1, (h.bareCalls hch).2, before, op, later, hops, ?_, ?_⟩
    · obtain ⟨answer, hbefore⟩ := exists_after_eq stage before
      rw [hbefore, begun?_controller (Player.sound_after before), hbegins]
    · obtain ⟨answer, hbegun⟩ := exists_after_eq stage (before ++ [op])
      rw [hbegun, hgroup]
      rfl
  case live =>
    rw [show c = _ from hafter]
    intro t ht
    obtain ⟨s, hs, rfl⟩ := Option.map_eq_some_iff.1 ht
    have hlive := Player.session?_eq_some_iff.1 hs
    obtain ⟨ch, hcurrent, hopen⟩ := h.live s ((congrArg _ (Chronicle.player_of ops)).trans hlive)
    have hgroup := hopen.group
    rw [Chronicle.player_of] at hgroup
    rw [s.generation_track, s.address_track, s.rows_track]
    refine ⟨ch, hcurrent, hopen.generation, hopen.address, hgroup, ?_, ?_⟩
    · intro rows hrows
      obtain ⟨cursor, phase, hp⟩ := Session.exists_within_of_rows? hrows
      obtain ⟨hfound, _⟩ := hsound.session s hlive _ _ _ hp
      rw [hgroup, Player.rowsFor, hfound, Option.getD_some]
    · rw [show ((Player.after ops).controller _).state = s.state from Player.state_live hlive]
      intro hchoosing
      refine hopen.bareCalls_eq ?_
      rcases s.state_cases with h | h | ⟨_, h⟩ | ⟨⟨_, _, hp⟩, _⟩
      · simp [h.1] at hchoosing
      · simp [h.1] at hchoosing
      · simp [h.1] at hchoosing
      · simp [Session.remaining, hp, Phase.remaining]

end Controller

end Dialogue
