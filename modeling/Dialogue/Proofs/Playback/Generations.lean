import Dialogue.Proofs.Playback.Sessions

/-!
# Generations

The generation of a player counts the sessions that it began and those that it dropped, up to
where 64 bits run over. So the sessions of a run have strictly increasing generations, as long as
there are not too many of them.

* `generations` is the count over chapters.
* `Numbered` says that each chapter has the generation that the chapters before it lead to.
* `Chronicle.numbered_of`: the chapters of every run are numbered.
* `Chronicle.generation_after`: the generation of the player is the count over all chapters.
-/

namespace Dialogue

/-- Whether the session was dropped. -/
def Chapter.dropped (ch : Chapter) : Bool :=
  ch.events.contains (.canceled ch.address)

/-- How often the generation moves on in these chapters: once as a session begins, and once more
if it is dropped. -/
def generations (chs : List Chapter) : Nat :=
  chs.length + chs.countP Chapter.dropped

/-- Each chapter has the generation that comes after those of the chapters before it. -/
def Numbered (chs : List Chapter) : Prop :=
  ∀ i (ch : Chapter), chs[i]? = some ch → ch.generation = .ofNat (generations (chs.take i) + 1)

theorem generations_concat (chs : List Chapter) (ch : Chapter) :
    generations (chs ++ [ch]) = generations chs + 1 + if ch.dropped then 1 else 0 := by
  simp only [generations, List.length_append, List.length_singleton, List.countP_append,
    List.countP_singleton]
  omega

theorem Numbered.concat {chs : List Chapter} (h : Numbered chs) {ch : Chapter}
    (hch : ch.generation = .ofNat (generations chs + 1)) : Numbered (chs ++ [ch]) := by
  intro i ch' hi
  rcases getElem?_concat_cases hi with hi | ⟨rfl, rfl⟩
  · have hle : i ≤ chs.length := Nat.le_of_lt (List.getElem?_eq_some_iff.1 hi).1
    rw [List.take_append_of_le_length hle]
    exact h i ch' hi
  · rw [List.take_left]
    exact hch

theorem ofNat_lt_ofNat {m n : Nat} (hmn : m < n) (hn : n < UInt64.size) :
    UInt64.ofNat m < UInt64.ofNat n := by
  rw [UInt64.lt_iff_toNat_lt, UInt64.toNat_ofNat_of_lt' hn,
    UInt64.toNat_ofNat_of_lt' (Nat.lt_trans hmn hn)]
  exact hmn

theorem Chapter.Open.not_dropped {p : Player} {s : Session} {ch : Chapter} (h : ch.Open p s) :
    ch.dropped = false := by
  simp [Chapter.dropped, h.events, Row.shown, -List.map_take]

namespace Chronicle

/-- The chapters are numbered, and the player has the generation that they lead to. -/
structure Numbered (c : Chronicle) : Prop where
  past : Dialogue.Numbered c.past
  player : c.player.generation = .ofNat (generations c.past + c.current.toList.length)

variable {c c' : Chronicle} {q : Player} {told : List Event}

theorem numbered_new : Numbered {} :=
  ⟨fun _ _ h => (nomatch h), rfl⟩

theorem Numbered.same (h : c.Numbered) (hsame : q.liveGeneration? = c.player.liveGeneration?)
    (hplayer : q.generation = c.player.generation) (calls : List (Call × Answer))
    (told : List Event) : (c.moveTo q calls told).Numbered := by
  rw [moveTo_same hsame]
  refine ⟨h.past, ?_⟩
  rw [hplayer, h.player]
  cases c.current <;> simp

theorem Numbered.begun (h : c.Numbered) (hcurrent : c.current = none)
    (hnone : c.player.session? = none) (a : Address) :
    (c.moveTo (c.player.start a) [] []).Numbered := by
  have hplayer := h.player
  rw [hcurrent] at hplayer
  rw [moveTo_other (Player.liveGeneration?_start_ne hnone a)]
  constructor
  · simpa [hcurrent] using h.past
  · show c.player.generation + 1 = _
    simp [hcurrent, hplayer, Player.start, Player.session?]

theorem Numbered.over (h : c.Numbered) {ch : Chapter} (hcurrent : c.current = some ch)
    (hch : ch.generation = c.player.generation)
    (hother : q.liveGeneration? ≠ c.player.liveGeneration?)
    (hplayer : q.generation = .ofNat (generations (c.past ++ [ch.write [] told]) +
      q.session?.toList.length)) : (c.moveTo q [] told).Numbered := by
  have hnumber := h.player
  rw [hcurrent] at hnumber
  rw [moveTo_other hother]
  constructor
  · simp only [hcurrent, Option.map_some, Option.toList_some]
    exact h.past.concat (hch.trans hnumber)
  · cases hq : q.session? <;> simpa [hcurrent, hq] using hplayer

/-- Every move keeps the chapters numbered. -/
theorem Move.numbered (hsound : c.player.Sound) (hfaithful : c.Faithful) (h : Move c c')
    (hnumbered : c.Numbered) : c'.Numbered := by
  -- the generation of a live session counts its own beginning, but no end of it yet
  have hopen : ∀ s, c.player.status = .live s → ∃ ch, c.current = some ch ∧
      ch.generation = c.player.generation ∧ ch.Open c.player s ∧
      c.player.generation = .ofNat (generations c.past + 1) := by
    intro s hs
    obtain ⟨ch, hcurrent, hch⟩ := hfaithful.live s hs
    have hplayer := hnumbered.player
    rw [hcurrent] at hplayer
    exact ⟨ch, hcurrent, hch.generation.trans (hsound.generation s hs), hch, hplayer⟩
  cases h with
  | scripted | told => exact ⟨hnumbered.past, hnumbered.player⟩
  | begun hnone hscript a => exact hnumbered.begun (hfaithful.idle hnone) hnone a
  | walked hs | read hs =>
    refine hnumbered.same ?_ ?_ _ _
    · exact (Player.liveGeneration?_live hs).symm
    · rfl
  | @resumed s rows cursor t es d hs hp =>
    have hsame : (c.player.place s rows cursor (.acting es d)).liveGeneration? =
        c.player.liveGeneration? := (Player.liveGeneration?_live hs).symm
    have hplaced := hnumbered.same hsame rfl [] []
    exact ⟨hplaced.past, hplaced.player⟩
  | @dropped s hs =>
    obtain ⟨ch, hcurrent, hgen, hch, hplayer⟩ := hopen s hs
    have hnone := c.player.session?_cancel
    have hdropped : (ch.write [] [.canceled s.address]).dropped = true := by
      simp [Chapter.dropped, Chapter.write, hch.address]
    refine hnumbered.over hcurrent hgen (Player.liveGeneration?_over_ne hs hnone) ?_
    rw [generations_concat, hdropped, hnone, Player.cancel_live hs]
    show c.player.generation + 1 = .ofNat (generations c.past + 1 + 1)
    rw [hplayer]
    exact (UInt64.ofNat_add _ 1).symm
  | @finished s hs hend =>
    obtain ⟨ch, hcurrent, hgen, hch, hplayer⟩ := hopen s hs
    have hnone : (c.player.finish s).session? = none := rfl
    have hdropped : (ch.write [] [.rowChanged none, .sceneComplete s.address]).dropped = false := by
      simpa [Chapter.dropped, Chapter.write] using hch.not_dropped
    refine hnumbered.over hcurrent hgen (Player.liveGeneration?_over_ne hs hnone) ?_
    rw [generations_concat, hdropped, hnone]
    exact hplayer
  | @handedOver s rows cursor options option hs hp hoption =>
    obtain ⟨ch, hcurrent, hgen, hch, hplayer⟩ := hopen s hs
    have hother := hsound.liveGeneration?_handOver_ne hs option.target
    have hdropped : (ch.write []
        [.branched s.address.scene s.address.branch option.target]).dropped = false := by
      simpa [Chapter.dropped, Chapter.write] using hch.not_dropped
    refine hnumbered.over hcurrent hgen hother ?_
    rw [generations_concat, hdropped]
    show c.player.generation + 1 = .ofNat (generations c.past + 1 + 1)
    rw [hplayer]
    exact (UInt64.ofNat_add _ 1).symm

/-- The chapters of every run are numbered, past and present, and the player counts them. -/
theorem numbered_chronicle_of (ops : List Operation) :
    (of ops).player.Sound ∧ (of ops).Faithful ∧ (of ops).Numbered :=
  @of_induction (fun c => c.Faithful ∧ c.Numbered) ⟨faithful_new, numbered_new⟩
    (fun hsound hmove h => ⟨hmove.faithful hsound h.1, hmove.numbered hsound h.1 h.2⟩) ops

/-- The generation of a player counts the sessions begun and those dropped, in 64 bits. -/
theorem generation_after (ops : List Operation) :
    (Player.after ops).generation = .ofNat (generations (of ops).chapters) := by
  obtain ⟨_, hfaithful, hnumbered⟩ := numbered_chronicle_of ops
  have hplayer := hnumbered.player
  rw [player_of] at hplayer
  cases hcurrent : (of ops).current with
  | none => simpa [chapters, hcurrent] using hplayer
  | some ch =>
    obtain ⟨s, _, hopen⟩ := hfaithful.open_of_current hcurrent
    rw [chapters, hcurrent, Option.toList_some, generations_concat, hopen.not_dropped]
    simpa [hcurrent] using hplayer

end Chronicle

end Dialogue
