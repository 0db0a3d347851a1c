import Dialogue.Proofs.Playback.Operation
import Dialogue.Proofs.Playback.Walk

/-!
# Players in order

`Player.Sound` is what every reachable player satisfies: a live session belongs to the player's
generation, is the one last played, walks the rows that the loaded script has at its address, and
stands in them at a place that fits. Here it is shown to be kept by each single change of a
player: beginning, dropping, finishing and handing over a session, and every unit of its walk.
What the units of its walk keep, `Sound.pump_induction` gives of a whole pump.
-/

namespace Dialogue

namespace Player

/-- A player in order. -/
structure Sound (p : Player) : Prop where
  /-- A player is idle until it plays for the first time. -/
  idle_iff : p.status = .idle ↔ p.lastPlayed = none
  generation : ∀ s, p.status = .live s → s.generation = p.generation
  lastPlayed : ∀ s, p.status = .live s → p.lastPlayed = some s.address
  script : ∀ s, p.status = .live s → p.script.isSome
  session : ∀ s, p.status = .live s → s.Sound (p.rowsAt? s.address)

/-! ## Sessions of a player -/

theorem session?_eq_some_iff {p : Player} {s : Session} :
    p.session? = some s ↔ p.status = .live s := by
  unfold session?
  split
  · rename_i s' hs
    rw [hs, Option.some.injEq, Status.live.injEq]
  · rename_i hs
    exact ⟨fun h => (nomatch h), fun h => absurd h (hs s)⟩

theorem session?_eq_none_iff {p : Player} :
    p.session? = none ↔ ∀ s, p.status ≠ .live s := by
  constructor
  · intro h s hs
    rw [session?_eq_some_iff.2 hs] at h
    cases h
  · intro h
    cases hs : p.session? with
    | none => rfl
    | some s => exact absurd (session?_eq_some_iff.1 hs) (h s)

theorem session?_live {p : Player} {s : Session} (hs : p.status = .live s) :
    p.session? = some s :=
  session?_eq_some_iff.2 hs

theorem state_live {p : Player} {s : Session} (hs : p.status = .live s) : p.state = s.state := by
  simp [state, hs]

theorem exists_live_of_playing {p : Player} (h : p.state = .playing) :
    ∃ s, p.status = .live s ∧ s.state = .playing := by
  cases hs : p.status with
  | live s => exact ⟨s, rfl, by rwa [state_live hs] at h⟩
  | idle | completed | canceled => simp [state, hs] at h

theorem cancel_live {p : Player} {s : Session} (hs : p.status = .live s) :
    p.cancel = { p with
      status := .canceled
      generation := p.generation + 1
      events := p.events ++ [.canceled s.address] } := by
  simp [cancel, hs, announce]

theorem cancel_idle {p : Player} (h : p.session? = none) : p.cancel = p := by
  unfold cancel
  split
  · rename_i s hs
    exact absurd hs (session?_eq_none_iff.1 h s)
  · rfl

theorem session?_cancel (p : Player) : p.cancel.session? = none := by
  cases hs : p.session? with
  | none => rw [cancel_idle hs, hs]
  | some s =>
    rw [cancel_live (session?_eq_some_iff.1 hs)]
    rfl

/-! ## Each change keeps a player in order -/

theorem sound_new : Sound {} := by
  refine ⟨by decide, ?_, ?_, ?_, ?_⟩ <;> intro s hs <;> cases hs

theorem sound_of_idle {p : Player} (h : p.session? = none)
    (hidle : p.status = .idle ↔ p.lastPlayed = none) : p.Sound := by
  have hnot := session?_eq_none_iff.1 h
  exact ⟨hidle, fun s hs => absurd hs (hnot s), fun s hs => absurd hs (hnot s),
    fun s hs => absurd hs (hnot s), fun s hs => absurd hs (hnot s)⟩

theorem sound_of_live {p : Player} {s : Session} (hs : p.status = .live s)
    (hgen : s.generation = p.generation) (hlast : p.lastPlayed = some s.address)
    (hscript : p.script.isSome) (hsession : s.Sound (p.rowsAt? s.address)) : p.Sound := by
  have hone : ∀ s', p.status = .live s' → s' = s := by
    intro s' hs'
    rw [hs] at hs'
    exact (Status.live.inj hs').symm
  refine ⟨?_, ?_, ?_, ?_, ?_⟩
  · simp [hs, hlast]
  · intro s' hs'
    rw [hone s' hs', hgen]
  · intro s' hs'
    rw [hone s' hs', hlast]
  · exact fun _ _ => hscript
  · intro s' hs'
    rw [hone s' hs']
    exact hsession

variable {p : Player} {s : Session}

theorem Sound.withScript (h : p.Sound) (hnone : p.session? = none) (script : Script) :
    (p.withScript script).Sound :=
  sound_of_idle hnone h.idle_iff

theorem Sound.drain (h : p.Sound) : p.drain.2.Sound :=
  ⟨h.idle_iff, h.generation, h.lastPlayed, h.script, h.session⟩

theorem sound_start (p : Player) (a : Address) (hscript : p.script.isSome) :
    (p.start a).Sound :=
  sound_of_live rfl rfl rfl hscript (Session.sound_of_opening rfl)

theorem Sound.cancel (h : p.Sound) : p.cancel.Sound := by
  cases hs : p.session? with
  | none => rwa [cancel_idle hs]
  | some s =>
    have hlive := session?_eq_some_iff.1 hs
    refine sound_of_idle (session?_cancel p) ?_
    rw [cancel_live hlive]
    simp [h.lastPlayed s hlive]

theorem Sound.finish (h : p.Sound) (hs : p.status = .live s) : (p.finish s).Sound := by
  refine sound_of_idle rfl ?_
  simp [Player.finish, announce, h.lastPlayed s hs]

theorem Sound.handOver (h : p.Sound) (hs : p.status = .live s) (branch : Int32) :
    (p.handOver s branch).Sound :=
  sound_start _ _ (h.script s hs)

theorem Sound.come_on (h : p.Sound) (hs : p.status = .live s) {next : Progress}
    (hnext : Session.Sound (p.rowsAt? s.address) { s with progress := next })
    (ticket : UInt64) (events : List Event) :
    Sound { p with
      status := .live { s with progress := next }
      nextTicket := ticket
      events := events } :=
  sound_of_live rfl (h.generation s hs) (h.lastPlayed s hs) (h.script s hs) hnext

theorem Sound.read (h : p.Sound) (hs : p.status = .live s) {rows : List Row} {cursor : Nat}
    (hp : s.progress = .within rows cursor .reading) :
    (p.place s rows (cursor + 1) .entering).Sound := by
  obtain ⟨hrows, row, hrow, _⟩ := h.session s hs _ _ _ hp
  refine h.come_on hs ?_ _ _
  intro rows' cursor' phase' hp'
  cases hp'
  exact ⟨hrows, (List.getElem?_eq_some_iff.1 hrow).1⟩

theorem Sound.resume (h : p.Sound) (hs : p.status = .live s) {rows : List Row} {cursor : Nat}
    {t : Ticket} {es : List Effect} {d : Decision}
    (hp : s.progress = .within rows cursor (.loading t es d)) :
    (p.place s rows cursor (.acting es d)).Sound := by
  obtain ⟨hrows, hphase⟩ := h.session s hs _ _ _ hp
  refine h.come_on hs ?_ _ _
  intro rows' cursor' phase' hp'
  cases hp'
  exact ⟨hrows, hphase⟩

/-- A unit of the walk keeps a player in order. -/
theorem Sound.walk (h : p.Sound) (hs : p.status = .live s) {stage : Stage} {group : List Row}
    {next : Progress} {made : List Beat} {calls : List Call} {told : List Event}
    (hgroup : p.rowsAt? s.address = some group)
    (hw : s.Walks stage p.nextTicket group next made calls told) :
    (p.walk s next calls told).Sound := by
  refine h.come_on hs ?_ _ _
  have hsession := h.session s hs
  rw [hgroup] at hsession ⊢
  exact hw.sound hsession

/-- Induction on the units of work of a pump: it stops at once, or does a unit of the walk and goes
on, or comes to the end of the session. -/
theorem Sound.pump_induction {stage : Stage} {motive : Player → Player → List Call → Prop}
    (stop : ∀ p, p.state ≠ .playing → motive p p [])
    (walk : ∀ {p q : Player} {s : Session} {group : List Row} {next : Progress} {made : List Beat}
      {calls later : List Call} {told : List Event}, p.Sound → p.status = .live s →
      p.rowsAt? s.address = some group → s.Walks stage p.nextTicket group next made calls told →
      motive (p.walk s next calls told) q later → motive p q (calls ++ later))
    (finish : ∀ {p : Player} {s : Session}, p.status = .live s →
      s.Finishes (p.rowsFor s.address) → motive p (p.finish s) [])
    (h : p.Sound) : motive p (p.pump stage).1 (p.pump stage).2 := by
  induction p using Player.pump.induct stage with
  | case2 p hstop =>
    rw [pump_of_not_playing stage hstop]
    exact stop p hstop
  | case1 p hplay _ ih =>
    obtain ⟨s, hs, hstate⟩ := exists_live_of_playing hplay
    rw [pump_of_playing stage hplay]
    rcases step_live stage hs (h.session s hs) hstate with
      ⟨group, next, made, calls, told, hgroup, hw, hstep⟩ | ⟨hend, hstep⟩
    · rw [hstep] at ih ⊢
      exact walk h hs hgroup hw (ih (h.walk hs hgroup hw))
    · -- a player without a session works no more
      have hstop : (p.finish s).state ≠ .playing := by
        show State.completed ≠ .playing
        decide
      rw [hstep, pump_of_not_playing stage hstop]
      exact finish hs hend

/-! ## Which operations begin sessions -/

def liveGeneration? (p : Player) : Option UInt64 :=
  p.session?.map Session.generation

theorem liveGeneration?_live (hs : p.status = .live s) :
    p.liveGeneration? = some s.generation := by
  simp [liveGeneration?, session?_live hs]

theorem liveGeneration?_none (h : p.session? = none) : p.liveGeneration? = none := by
  simp [liveGeneration?, h]

/-- Every change of the session shows in the generation. -/
theorem liveGeneration?_start_ne (h : p.session? = none) (a : Address) :
    (p.start a).liveGeneration? ≠ p.liveGeneration? := by
  rw [liveGeneration?_none h]
  simp [liveGeneration?, start, session?]

theorem liveGeneration?_over_ne (hs : p.status = .live s) {q : Player} (hq : q.session? = none) :
    q.liveGeneration? ≠ p.liveGeneration? := by
  simp [liveGeneration?_none hq, liveGeneration?_live hs]

theorem Sound.liveGeneration?_handOver_ne (h : p.Sound) (hs : p.status = .live s)
    (branch : Int32) : (p.handOver s branch).liveGeneration? ≠ p.liveGeneration? := by
  show some (p.generation + 1) ≠ p.liveGeneration?
  rw [liveGeneration?_live hs, h.generation s hs]
  simp

/-- The address of the live session of `q`, if it has begun since the player was `p`. -/
def begunBy? (p q : Player) : Option Address :=
  if q.liveGeneration? = p.liveGeneration? then none else q.session?.map Session.address

theorem add_one_add_one_ne (g : UInt64) : g + 1 + 1 ≠ g := by
  intro h
  have hn := congrArg UInt64.toNat h
  simp only [UInt64.toNat_add, UInt64.toNat_one] at hn
  have := g.toNat_lt
  omega

theorem begunBy?_same {q : Player} (h : q.liveGeneration? = p.liveGeneration?) :
    p.begunBy? q = none := by
  simp [begunBy?, h]

theorem begunBy?_none {q : Player} (h : q.session? = none) : p.begunBy? q = none := by
  simp [begunBy?, h]

theorem begunBy?_start (q : Player) (a : Address)
    (hne : ∀ s, p.status = .live s → q.generation + 1 ≠ s.generation) :
    p.begunBy? (q.start a) = some a := by
  have hother : (q.start a).liveGeneration? ≠ p.liveGeneration? := by
    show some (q.generation + 1) ≠ p.liveGeneration?
    cases hs : p.session? with
    | none => simp [liveGeneration?_none hs]
    | some s =>
      have hlive := session?_eq_some_iff.1 hs
      simpa [liveGeneration?_live hlive] using hne s hlive
  rw [begunBy?, if_neg hother]
  rfl

/-- A session that begins in place of what was played is another one. -/
theorem Sound.begunBy?_restart (h : p.Sound) (script : Script) (a : Address) :
    p.begunBy? ((p.cancel.withScript script).start a) = some a := by
  refine begunBy?_start _ a fun s hs => ?_
  rw [cancel_live hs, h.generation s hs]
  exact add_one_add_one_ne _

theorem Sound.begunBy?_play (h : p.Sound) {q : Player} {fetch : Fetch} {a : Address}
    (hq : p.play fetch a = .ok q) : p.begunBy? q = some a := by
  obtain ⟨script, r, hload, rfl⟩ := play_ok hq
  rw [cancel_of_load hload]
  exact h.begunBy?_restart script a

theorem Sound.begunBy?_pump (h : p.Sound) (stage : Stage) :
    p.begunBy? (p.pump stage).1 = none := by
  -- a unit of the walk keeps the live session, and the end of the session leaves none
  have hpump : (p.pump stage).1.session? = none ∨
      (p.pump stage).1.liveGeneration? = p.liveGeneration? := by
    refine Sound.pump_induction
      (motive := fun p q _ => q.session? = none ∨ q.liveGeneration? = p.liveGeneration?)
      ?stop ?walk ?finish h
    case stop => exact fun p _ => Or.inr rfl
    case finish => exact fun _ _ => Or.inl rfl
    case walk =>
      intro p q s group next made calls later told _ hs _ _ ih
      have hsame : (p.walk s next calls told).liveGeneration? = p.liveGeneration? :=
        (liveGeneration?_live hs).symm
      exact ih.imp id fun hrest => hrest.trans hsame
  rcases hpump with hnone | hsame
  · exact begunBy?_none hnone
  · exact begunBy?_same hsame

/-- An operation begins a session just where its reply says so. -/
theorem Sound.begunBy?_operate (h : p.Sound) (op : Operation) :
    p.begunBy? (p.operate op).player = op.begins? p := by
  have hself : p.begunBy? p = none := begunBy?_same rfl
  have hplay : ∀ fetch a, p.begunBy? (p.attempt (p.play fetch a)).player =
      (p.play fetch a).toOption.map fun _ => a := by
    intro fetch a
    cases hq : p.play fetch a with
    | error e => exact hself
    | ok q => exact h.begunBy?_play hq
  have hrefresh : ∀ fetch, p.begunBy? (p.attempt (p.refresh fetch)).player =
      (p.refresh fetch).toOption.bind fun _ => p.lastPlayed := by
    intro fetch
    cases hq : p.refresh fetch with
    | error e => exact hself
    | ok q =>
      obtain ⟨rows, _, ⟨hlast, rfl⟩ | ⟨a, ha, rfl⟩⟩ := refresh_ok hq
      · exact (begunBy?_none (session?_cancel p)).trans hlast.symm
      · exact (h.begunBy?_restart _ a).trans ha.symm
  have hcomplete : ∀ t loaded, p.begunBy? ((p.complete t loaded).getD p) = none := by
    intro t loaded
    cases hq : p.complete t loaded with
    | none => exact hself
    | some q =>
      obtain ⟨s, rows, cursor, es, d, hs, _, rfl⟩ := complete_some hq
      exact begunBy?_same (liveGeneration?_live hs).symm
  have hadvance : p.begunBy? (p.advance.getD p) = none := by
    cases hq : p.advance with
    | none => exact hself
    | some q =>
      obtain ⟨s, rows, cursor, hs, _, rfl⟩ := advance_some hq
      exact begunBy?_same (liveGeneration?_live hs).symm
  have hchoose : ∀ index a q, p.choose index = .ok (a, q) → p.begunBy? q = some a := by
    intro index a q hq
    obtain ⟨s, rows, cursor, options, option, hs, _, _, rfl, rfl⟩ := choose_ok hq
    refine begunBy?_start _ _ fun s' hs' => ?_
    rw [h.generation s' hs']
    simp [announce]
  have hload : ∀ fetch script q, p.load fetch = .ok (script, q) → p.begunBy? q = none := by
    intro fetch script q hq
    rcases load_ok hq with ⟨_, rfl⟩ | ⟨_, rfl⟩
    · exact hself
    · exact begunBy?_same rfl
  have hcancel : p.begunBy? p.cancel = none := begunBy?_none (session?_cancel p)
  cases op with
  | play fetch a => exact hplay fetch a
  | refresh fetch => exact hrefresh fetch
  | complete t loaded => exact hcomplete t loaded
  | advance => exact hadvance
  | cancel => exact hcancel
  | pump stage => exact h.begunBy?_pump stage
  | drain => exact begunBy?_same rfl
  | load fetch =>
    cases hq : p.load fetch with
    | error e => simpa [operate, hq, Operation.begins?] using hself
    | ok loaded => simpa [operate, hq, Operation.begins?] using hload fetch loaded.1 loaded.2 hq
  | choose index =>
    cases hq : p.choose index with
    | error e => simpa [operate, hq, Operation.begins?, Except.toOption] using hself
    | ok chosen =>
      simpa [operate, hq, Operation.begins?, Except.toOption]
        using hchoose index chosen.1 chosen.2 hq
  | feed fetch input =>
    cases input with
    | proceed => exact hadvance
    | jump a => exact hplay fetch a
    | loaded t => exact hcomplete t true
    | refresh => exact hrefresh fetch
    | exit => exact hcancel
    | choose index =>
      cases hq : p.choose index with
      | error e =>
        simpa [operate, feed, attempt, Except.map, hq, Operation.begins?, Except.toOption]
          using hself
      | ok chosen =>
        simpa [operate, feed, attempt, Except.map, hq, Operation.begins?, Except.toOption]
          using hchoose index chosen.1 chosen.2 hq

end Player

end Dialogue
