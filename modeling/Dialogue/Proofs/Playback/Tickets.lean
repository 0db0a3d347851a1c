import Dialogue.Proofs.Playback.Generations
import Mathlib.Data.List.Nodup

/-!
# Tickets

Every request for an asset has a ticket of its own, and a ticket takes the player on once at most.

* The tickets of a run have the numbers of the effects they belong to, counted over the run, and
  the generation of the session that makes the request.
* A request is looked at with the beat behind its call, which says whether the session waits.
* `Chronicle.Awaited` says which ticket the live session waits for: that of the last request made,
  if the session made it, had to wait for it and did not go on yet.
-/

namespace Dialogue

def Call.ticket? (call : Call) : Option Ticket :=
  call.request?.map Prod.snd

/-- All tickets that a run hands to the stage, in order. -/
def Player.ticketsIssued (ops : List Operation) : List Ticket :=
  (callsMade ops).filterMap Call.ticket?

/-- A request for an asset: its ticket, whether playing waits for the asset, and the answer. -/
structure Request where
  ticket : Ticket
  waits : Bool
  answer : Answer
deriving DecidableEq, Repr

/-- The request of a call, if it makes one, with the beat behind it. -/
def Request.of? (made : Beat × Call × Answer) : Option Request :=
  made.2.1.ticket?.map fun ticket => ⟨ticket, made.1.waits, made.2.2⟩

namespace Chapter

def tickets (ch : Chapter) : List Ticket :=
  ch.calls.filterMap fun made => made.1.ticket?

/-- The requests of a session, in order. The calls are those of the first beats of its rows. -/
def requests (ch : Chapter) : List Request :=
  ((beats ch.group).zip ch.calls).filterMap Request.of?

end Chapter

def Chronicle.requests (c : Chronicle) : List Request :=
  c.chapters.flatMap Chapter.requests

/-- The tickets of calls have the numbers of the effects they belong to. -/
def Ticketed (calls : List Call) : Prop :=
  ∀ i (call : Call), (calls.filter Call.isEffect)[i]? = some call →
    ∀ t ∈ call.ticket?, t.id = .ofNat i

/-! ## Tickets have the numbers of effects -/

theorem Call.isEffect_of_ticket? {call : Call} {t : Ticket} (h : call.ticket? = some t) :
    call.isEffect = true := by
  cases call <;> first | rfl | simp [ticket?, request?] at h

theorem Effect.ticket?_call (e : Effect) {t t' : Ticket} (h : (e.call t).ticket? = some t') :
    t' = t := by
  cases e <;> simp [Effect.call, Call.ticket?, Call.request?] at h <;> exact h.symm

theorem filterMap_ticket?_filter (calls : List Call) :
    (calls.filter Call.isEffect).filterMap Call.ticket? = calls.filterMap Call.ticket? := by
  rw [List.filterMap_filter]
  refine List.filterMap_congr fun call _ => ?_
  cases h : call.ticket? with
  | none => simp
  | some t => simp [Call.isEffect_of_ticket? h]

theorem Ticketed.append {calls calls' : List Call} (h : Ticketed calls)
    (hone : (calls'.filter Call.isEffect).length ≤ 1)
    (hnumber : ∀ call ∈ calls', ∀ t ∈ call.ticket?,
      t.id = .ofNat (calls.countP Call.isEffect)) : Ticketed (calls ++ calls') := by
  intro i call hi t ht
  rw [List.filter_append] at hi
  rcases Nat.lt_or_ge i (calls.filter Call.isEffect).length with hlt | hge
  · rw [List.getElem?_append_left hlt] at hi
    exact h i call hi t ht
  · rw [List.getElem?_append_right hge] at hi
    have hlast := (List.getElem?_eq_some_iff.1 hi).1
    have hcall : call ∈ calls' := (List.mem_filter.1 (List.mem_of_getElem? hi)).1
    rw [hnumber call hcall t ht, List.countP_eq_length_filter]
    congr 1
    omega

/-- The next number is not used yet, as long as 64 bits hold it. -/
theorem Ticketed.id_ne {calls : List Call} (h : Ticketed calls)
    (hbound : calls.countP Call.isEffect < UInt64.size) {t : Ticket}
    (ht : t ∈ calls.filterMap Call.ticket?) : t.id ≠ .ofNat (calls.countP Call.isEffect) := by
  rw [← filterMap_ticket?_filter] at ht
  obtain ⟨call, hcall, ht⟩ := List.mem_filterMap.1 ht
  obtain ⟨i, hi⟩ := List.getElem?_of_mem hcall
  have hlt := (List.getElem?_eq_some_iff.1 hi).1
  rw [h i call hi t ht]
  rw [List.countP_eq_length_filter] at hbound ⊢
  exact (UInt64.lt_iff_le_and_ne.1 (ofNat_lt_ofNat hlt hbound)).2

namespace Session.Walks

variable {stage : Stage} {id : UInt64} {group : List Row} {s : Session} {next : Progress}
  {made : List Beat} {calls : List Call} {told : List Event}

theorem calls_length_le (h : s.Walks stage id group next made calls told) : calls.length ≤ 1 := by
  cases h <;> simp

/-- A unit of the walk hands over no ticket but the one that is next. -/
theorem ticket_eq (h : s.Walks stage id group next made calls told) :
    ∀ call ∈ calls, ∀ t ∈ call.ticket?, t = ⟨s.generation, id⟩ := by
  cases h with
  | @performed cursor e es d =>
    intro call hcall t ht
    obtain rfl := List.mem_singleton.1 hcall
    exact e.ticket?_call ht
  | awaited => simp [Call.ticket?, Call.request?]
  | opened | entered | proceeded | offered => simp

theorem waitingOn?_eq_none (h : s.Walks stage id group next made calls told) :
    s.waitingOn? = none := by
  cases h <;> simp [waitingOn?, *]

/-- A unit of the walk ends in waiting for the ticket of its request just if it has to wait. -/
theorem requests_cases (h : s.Walks stage id group next made calls told) :
    (made.zip (calls.map fun call => (call, stage call))).filterMap Request.of? = [] ∧
      waitingOn? { s with progress := next } = none ∨
    ∃ waits answer,
      (made.zip (calls.map fun call => (call, stage call))).filterMap Request.of? =
        [⟨⟨s.generation, id⟩, waits, answer⟩] ∧
      waitingOn? { s with progress := next } =
        if waits ∧ answer = .pending then some ⟨s.generation, id⟩ else none := by
  cases h with
  | opened | entered | proceeded | offered => exact Or.inl ⟨rfl, rfl⟩
  | awaited => exact Or.inl ⟨rfl, rfl⟩
  | @performed cursor e es d =>
    cases he : (e.call ⟨s.generation, id⟩).ticket? with
    | none =>
      left
      refine ⟨by simp [Request.of?, he], ?_⟩
      have hwaits : ¬ e.waits := by
        intro hwaits
        obtain ⟨key, hkey⟩ := e.request?_call ⟨s.generation, id⟩ hwaits
        simp [Call.ticket?, hkey] at he
      simp [waitingOn?, Effect.leaves, hwaits]
    | some t =>
      right
      obtain rfl := e.ticket?_call he
      refine ⟨e.waits, stage (e.call ⟨s.generation, id⟩), by simp [Request.of?, he, Beat.waits], ?_⟩
      by_cases hwaits : e.waits ∧ stage (e.call ⟨s.generation, id⟩) = .pending
      · simp [waitingOn?, Effect.leaves, hwaits]
      · simp [waitingOn?, Effect.leaves, hwaits]

end Session.Walks

/-! ## The tickets of a run -/

namespace Chronicle

def effects (c : Chronicle) : Nat :=
  (c.calls.map Prod.fst).countP Call.isEffect

/-- Each ticket issued has the number of its effect and the generation of its session. -/
structure Issued (c : Chronicle) : Prop where
  next : c.player.nextTicket = .ofNat c.effects
  numbers : Ticketed (c.calls.map Prod.fst)
  generation : ∀ ch ∈ c.chapters, ∀ t ∈ ch.tickets, t.generation = ch.generation

variable {c c' : Chronicle} {q : Player} {calls : List (Call × Answer)} {told : List Event}

/-- Tickets are issued one by one, in the name of the live session. -/
theorem Issued.moveTo (h : c.Issued) (hone : calls.length ≤ 1)
    (hticket : ∀ made ∈ calls, ∀ t ∈ made.1.ticket?, t.id = c.player.nextTicket ∧
      ∀ ch, c.current = some ch → t.generation = ch.generation)
    (hnext : q.nextTicket =
      c.player.nextTicket + .ofNat ((calls.map Prod.fst).countP Call.isEffect)) :
    (c.moveTo q calls told).Issued := by
  constructor
  · rw [moveTo_player, hnext, h.next, effects, effects, moveTo_calls, List.map_append,
      List.countP_append, UInt64.ofNat_add]
  · -- one call at most, so its number is that of the next effect
    rw [moveTo_calls, List.map_append]
    refine h.numbers.append ?_ ?_
    · exact Nat.le_trans (List.length_filter_le _ _) (by simpa using hone)
    · intro call hcall t ht
      obtain ⟨made, hmade, rfl⟩ := List.mem_map.1 hcall
      exact (hticket made hmade t ht).1.trans h.next
  · intro ch hch t ht
    rcases mem_chapters_moveTo hch with ⟨s, _, _, rfl⟩ | hold | ⟨old, hcurrent, rfl⟩
    · simp [Chapter.tickets, Chapter.begun] at ht
    · exact h.generation ch hold t ht
    · simp only [Chapter.tickets, Chapter.write, List.filterMap_append, List.mem_append] at ht
      rcases ht with ht | ht
      · refine h.generation old ?_ t ht
        simp [chapters, hcurrent]
      · obtain ⟨made, hmade, ht⟩ := List.mem_filterMap.1 ht
        exact (hticket made hmade t ht).2 old hcurrent

theorem Issued.moveTo_nil (h : c.Issued) (hnext : q.nextTicket = c.player.nextTicket)
    (told : List Event) : (c.moveTo q [] told).Issued :=
  h.moveTo (Nat.zero_le _) (by simp) (by simp [hnext])

theorem Move.issued (hfaithful : c.Faithful) (h : Move c c') (hissued : c.Issued) : c'.Issued := by
  cases h with
  | scripted | told => exact ⟨hissued.next, hissued.numbers, hissued.generation⟩
  | begun | finished | handedOver | read =>
    refine hissued.moveTo_nil ?_ _
    rfl
  | dropped hs => exact hissued.moveTo_nil (by rw [Player.cancel_live hs]) _
  | @resumed s rows cursor t es d hs hp =>
    have hplaced := hissued.moveTo_nil (q := c.player.place s rows cursor (.acting es d)) rfl []
    exact ⟨hplaced.next, hplaced.numbers, hplaced.generation⟩
  | @walked stage s group next made calls told hs hgroup hw =>
    refine hissued.moveTo (by simpa using hw.calls_length_le) ?_ ?_
    · intro made hmade t ht
      obtain ⟨call, hcall, rfl⟩ := List.mem_map.1 hmade
      obtain rfl := hw.ticket_eq call hcall t ht
      obtain ⟨ch, hcurrent, hopen⟩ := hfaithful.live s hs
      refine ⟨rfl, fun ch' hch' => ?_⟩
      rw [hcurrent] at hch'
      cases hch'
      exact hopen.generation.symm
    · simp [Player.walk, Function.comp_def]

end Chronicle

/-! ## The ticket that a session waits for -/

theorem zip_append_left {α β : Type} {l : List α} {k : List β} (h : l.length = k.length)
    (r : List α) : (l ++ r).zip k = l.zip k := by
  have hzip : (l ++ r).zip (k ++ []) = l.zip k ++ r.zip [] := List.zip_append h
  simpa using hzip

theorem Chapter.requests_ticket {ch : Chapter} (h : ch.bareCalls <+: reference ch.group) :
    ch.requests.map Request.ticket = ch.tickets := by
  have hlength : ch.calls.length ≤ (beats ch.group).length := by
    simpa [bareCalls, reference] using h.length_le
  have hcalls : ((beats ch.group).zip ch.calls).map Prod.snd = ch.calls :=
    List.map_snd_zip hlength
  rw [tickets, ← hcalls, List.filterMap_map, requests, List.map_filterMap]
  refine List.filterMap_congr fun made _ => ?_
  simp [Request.of?, Function.comp_def]

namespace Chapter.Open

variable {p : Player} {s : Session} {ch : Chapter} {stage : Stage} {id : UInt64}
  {next : Progress} {made : List Beat} {calls : List Call} {told : List Event}

theorem requests_write (h : ch.Open p s)
    (hw : s.Walks stage id ch.group next made calls told) :
    (ch.write (calls.map fun call => (call, stage call)) told).requests = ch.requests ++
      (made.zip (calls.map fun call => (call, stage call))).filterMap Request.of? := by
  obtain ⟨before, hbeats, hbefore⟩ := h.calls
  have hlength : before.length = ch.calls.length := by
    simpa [Chapter.bareCalls] using (congrArg List.length hbefore).symm
  have hmade : made.length = (calls.map fun call => (call, stage call)).length := by
    simpa using (congrArg List.length hw.calls_bare).symm
  have hwritten : (ch.write (calls.map fun call => (call, stage call)) told).requests =
      ((beats ch.group).zip (ch.calls ++ calls.map fun call => (call, stage call))).filterMap
        Request.of? := rfl
  rw [hwritten, Chapter.requests, hbeats, zip_append_left hlength, List.zip_append hlength,
    hw.remaining, zip_append_left hmade, List.filterMap_append]

end Chapter.Open

namespace Chronicle

/-- The session waits for the last request that it made, if it had to wait for that one and did
not go on yet; each ticket takes the player on once. -/
structure Awaited (c : Chronicle) : Prop where
  issued : ∀ t ∈ c.resumed, t ∈ (c.calls.map Prod.fst).filterMap Call.ticket?
  nodup : c.resumed.Nodup
  awaits : ∀ s ch, c.player.status = .live s → c.current = some ch →
    ∀ t, s.waitingOn? = some t ↔
      ch.requests.getLast? = some ⟨t, true, .pending⟩ ∧ t ∉ c.resumed

variable {c c' : Chronicle} {q : Player} {s s' : Session} {told : List Event}

theorem Awaited.other (h : c.Awaited) (hother : q.liveGeneration? ≠ c.player.liveGeneration?)
    (hopening : ∀ s, q.status = .live s → s.progress = .opening) :
    (c.moveTo q [] told).Awaited := by
  rw [moveTo_other hother]
  refine ⟨by simpa using h.issued, h.nodup, ?_⟩
  intro s ch hs hch t
  have hcurrent : ch = Chapter.begun q s := by
    have hq := Player.session?_live hs
    have hch : q.session?.map (Chapter.begun q) = some ch := hch
    simpa [show q.session? = some s from hq] using hch.symm
  simp [hcurrent, Chapter.requests, Chapter.begun, Session.waitingOn?, hopening s hs]

theorem Awaited.same (h : c.Awaited) (hsame : q.liveGeneration? = c.player.liveGeneration?)
    (hq : q.status = .live s') (calls : List (Call × Answer))
    (hawaits : ∀ ch, c.current = some ch → ∀ t, s'.waitingOn? = some t ↔
      (ch.write calls told).requests.getLast? = some ⟨t, true, .pending⟩ ∧ t ∉ c.resumed) :
    (c.moveTo q calls told).Awaited := by
  rw [moveTo_same hsame]
  refine ⟨?_, h.nodup, ?_⟩
  · intro t ht
    simp only [List.map_append, List.filterMap_append]
    exact List.mem_append_left _ (h.issued t ht)
  · intro s ch hs hch
    obtain rfl : s = s' := Status.live.inj (hs.symm.trans hq)
    obtain ⟨old, hold, rfl⟩ := Option.map_eq_some_iff.1 hch
    exact hawaits old hold

theorem Faithful.tickets (h : c.Faithful) :
    (c.calls.map Prod.fst).filterMap Call.ticket? = c.chapters.flatMap Chapter.tickets := by
  rw [h.calls, List.filterMap_map, List.filterMap_flatMap]
  rfl

/-- After the end of a load that was waited for, its ticket is used up. -/
theorem Awaited.resumed (hawaited : c.Awaited) (hfaithful : c.Faithful)
    (hs : c.player.status = .live s) {rows : List Row} {cursor : Nat} {t : Ticket}
    {es : List Effect} {d : Decision} (hp : s.progress = .within rows cursor (.loading t es d)) :
    Awaited { c.moveTo (c.player.place s rows cursor (.acting es d)) [] [] with
      resumed := c.resumed ++ [t] } := by
  have hsame : (c.player.place s rows cursor (.acting es d)).liveGeneration? =
      c.player.liveGeneration? := (Player.liveGeneration?_live hs).symm
  obtain ⟨ch, hcurrent, hopen⟩ := hfaithful.live s hs
  obtain ⟨hlast, hnew⟩ := (hawaited.awaits s ch hs hcurrent t).1
    (by simp [Session.waitingOn?, hp])
  -- the last request stays the one for `t`, but from here on `t` is used up
  rw [moveTo_same hsame]
  refine ⟨?_, ?_, ?_⟩
  · intro t' ht'
    rw [List.append_nil]
    rcases List.mem_append.1 ht' with hold | hnow
    · exact hawaited.issued t' hold
    · obtain rfl := List.mem_singleton.1 hnow
      have hticket : t' ∈ ch.tickets := by
        rw [← Chapter.requests_ticket hopen.bareCalls_part]
        exact List.mem_map.2 ⟨_, List.mem_of_getLast? hlast, rfl⟩
      rw [hfaithful.tickets]
      exact List.mem_flatMap.2 ⟨ch, by simp [chapters, hcurrent], hticket⟩
  · rw [← List.concat_eq_append]
    exact List.Nodup.concat hnew hawaited.nodup
  · intro s' ch' hs' hch' t'
    obtain rfl : _ = s' := Status.live.inj hs'
    have hch : ch = ch' := by simpa [hcurrent] using hch'
    rw [← hch, hlast]
    constructor
    · intro ht
      cases ht
    · rintro ⟨ht, hnot⟩
      cases ht
      exact absurd (List.mem_append_right _ (List.mem_singleton_self t)) hnot

/-- A unit of the walk that has to wait waits for the ticket that it hands over. -/
theorem Awaited.walked (hawaited : c.Awaited) (hfaithful : c.Faithful) (hissued : c.Issued)
    (hbound : c.effects < UInt64.size) (hs : c.player.status = .live s) {stage : Stage}
    {group : List Row} {next : Progress} {made : List Beat} {calls : List Call}
    (hgroup : c.player.rowsAt? s.address = some group)
    (hw : s.Walks stage c.player.nextTicket group next made calls told) :
    (c.moveTo (c.player.walk s next calls told)
      (calls.map fun call => (call, stage call)) told).Awaited := by
  have hsame : (c.player.walk s next calls told).liveGeneration? = c.player.liveGeneration? :=
    (Player.liveGeneration?_live hs).symm
  obtain ⟨ch, hcurrent, hopen⟩ := hfaithful.live s hs
  refine hawaited.same hsame rfl _ fun ch' hch' t => ?_
  rw [hcurrent] at hch'
  obtain rfl := Option.some.inj hch'
  have hrows : ch.group = group := by rw [hopen.group, Player.rowsFor, hgroup, Option.getD_some]
  rw [hopen.requests_write (hrows ▸ hw)]
  rcases hw.requests_cases with ⟨hnil, hnext⟩ | ⟨waits, answer, hone, hnext⟩
  · -- no request is made, and the session waits for nothing before and after
    rw [hnil, hnext, List.append_nil, ← hawaited.awaits s ch hs hcurrent t,
      hw.waitingOn?_eq_none]
  · -- the number of the request is new, so its ticket is not used up
    have hnew : (⟨s.generation, c.player.nextTicket⟩ : Ticket) ∉ c.resumed := by
      intro hold
      exact hissued.numbers.id_ne hbound (hawaited.issued _ hold) hissued.next
    rw [hone, hnext, List.getLast?_concat]
    by_cases hwaits : waits ∧ answer = .pending
    · rw [if_pos hwaits]
      constructor
      · intro ht
        cases ht
        exact ⟨by simp [hwaits], hnew⟩
      · rintro ⟨ht, _⟩
        cases ht
        rfl
    · rw [if_neg hwaits]
      constructor
      · intro ht
        cases ht
      · rintro ⟨ht, _⟩
        cases ht
        exact absurd ⟨rfl, rfl⟩ hwaits

/-- Every move keeps it so that each ticket takes the player on once. -/
theorem Move.awaited (hsound : c.player.Sound) (hfaithful : c.Faithful) (hissued : c.Issued)
    (hbound : c.effects < UInt64.size) (h : Move c c') (hawaited : c.Awaited) : c'.Awaited := by
  cases h with
  | scripted hnone script =>
    exact ⟨hawaited.issued, hawaited.nodup,
      fun s ch hs => absurd hs (Player.session?_eq_none_iff.1 hnone s)⟩
  | told => exact ⟨hawaited.issued, hawaited.nodup, hawaited.awaits⟩
  | begun hnone hscript a =>
    refine hawaited.other (Player.liveGeneration?_start_ne hnone a) fun s hs => ?_
    cases hs
    rfl
  | @dropped s hs =>
    have hnone := c.player.session?_cancel
    refine hawaited.other (Player.liveGeneration?_over_ne hs hnone) fun s' hs' => ?_
    exact absurd hs' (Player.session?_eq_none_iff.1 hnone s')
  | @finished s hs hend =>
    have hnone : (c.player.finish s).session? = none := rfl
    refine hawaited.other (Player.liveGeneration?_over_ne hs hnone) fun s' hs' => ?_
    exact absurd hs' (Player.session?_eq_none_iff.1 hnone s')
  | @handedOver s rows cursor options option hs hp hoption =>
    refine hawaited.other (hsound.liveGeneration?_handOver_ne hs _) fun s' hs' => ?_
    cases hs'
    rfl
  | @read s rows cursor hs hp =>
    have hsame : (c.player.place s rows (cursor + 1) .entering).liveGeneration? =
        c.player.liveGeneration? := (Player.liveGeneration?_live hs).symm
    refine hawaited.same hsame rfl [] fun ch hch t => ?_
    rw [Chapter.write_nil, ← hawaited.awaits s ch hs hch t]
    simp [Session.waitingOn?, hp]
  | resumed hs hp => exact hawaited.resumed hfaithful hs hp
  | walked hs hgroup hw => exact hawaited.walked hfaithful hissued hbound hs hgroup hw

end Chronicle

/-! ## What the tickets of a run do -/

namespace Chronicle

variable {c : Chronicle} {t : Ticket} {ch : Chapter}

theorem requests_ticket (ops : List Operation) :
    (of ops).requests.map Request.ticket = Player.ticketsIssued ops := by
  have h := faithful_of ops
  rw [Player.ticketsIssued, ← calls_of, h.tickets, requests, List.map_flatMap]
  exact List.flatMap_congr fun ch hch => Chapter.requests_ticket (h.bareCalls hch).1

end Chronicle

end Dialogue
