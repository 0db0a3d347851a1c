import Dialogue.Proofs.Text.Decimal
import Dialogue.Text.Pattern

/-!
# What patterns match

`Pattern.Takes` says what a pattern can take, without an order of trial. A text is matched exactly
if the pattern can take the whole of it; where it can do so in one way only, as far as the groups
go, the order of trial does not show.

* `takes_signed_iff` and `takes_caseless_iff`: the parts that several patterns have in common.
* `Pattern.mem_ways_iff`: the ways of a matcher are those of the relation.
* `Pattern.captures?_eq_none_iff`, `Pattern.takes_of_captures?`, `Pattern.captures?_of_unique`: a
  match of a whole text.
* `Pattern.longest_of_captures?`: of several matches, the one is found in which a greedy part in
  front takes the most.
-/

namespace Dialogue.Text.Pattern

/-- A pattern can take a text, with these groups. -/
inductive Takes : Pattern → List Char → List (List Char) → Prop
  | nothing : Takes .nothing [] []
  | one {ok : Char → Bool} {c : Char} (h : ok c = true) : Takes (.one ok) [c] []
  | many {ok : Char → Bool} {cs : List Char} (h : ∀ c ∈ cs, ok c = true) : Takes (.many ok) cs []
  | left {p q : Pattern} {cs : List Char} {gs : List (List Char)} (h : Takes p cs gs) :
    Takes (.either p q) cs gs
  | right {p q : Pattern} {cs : List Char} {gs : List (List Char)} (h : Takes q cs gs) :
    Takes (.either p q) cs gs
  | seq {p q : Pattern} {cs ds : List Char} {gs hs : List (List Char)} (hp : Takes p cs gs)
    (hq : Takes q ds hs) : Takes (.seq p q) (cs ++ ds) (gs ++ hs)
  | group {p : Pattern} {cs : List Char} {gs : List (List Char)} (h : Takes p cs gs) :
    Takes (.group p) cs (cs :: gs)

variable {p q : Pattern} {ok : Char → Bool} {c : Char} {cs : List Char} {gs : List (List Char)}

/-! ## The relation, pattern by pattern -/

theorem takes_nothing_iff : Takes .nothing cs gs ↔ cs = [] ∧ gs = [] := by
  constructor
  · rintro ⟨⟩
    exact ⟨rfl, rfl⟩
  · rintro ⟨rfl, rfl⟩
    exact .nothing

theorem takes_one_iff : Takes (.one ok) cs gs ↔ ∃ c, ok c = true ∧ cs = [c] ∧ gs = [] := by
  constructor
  · rintro ⟨⟩
    exact ⟨_, ‹_›, rfl, rfl⟩
  · rintro ⟨c, h, rfl, rfl⟩
    exact .one h

theorem takes_char_iff : Takes (.char c) cs gs ↔ cs = [c] ∧ gs = [] := by
  simp [char, takes_one_iff]

theorem takes_char (c : Char) : Takes (.char c) [c] [] :=
  takes_char_iff.2 ⟨rfl, rfl⟩

theorem takes_many_iff : Takes (.many ok) cs gs ↔ (∀ c ∈ cs, ok c = true) ∧ gs = [] := by
  constructor
  · rintro ⟨⟩
    exact ⟨‹_›, rfl⟩
  · rintro ⟨h, rfl⟩
    exact .many h

theorem takes_either_iff :
    Takes (.either p q) cs gs ↔ Takes p cs gs ∨ Takes q cs gs := by
  constructor
  · rintro (_ | _)
    · exact Or.inl ‹_›
    · exact Or.inr ‹_›
  · rintro (h | h)
    · exact .left h
    · exact .right h

theorem takes_seq_iff : Takes (.seq p q) cs gs ↔
    ∃ as hs bs js, Takes p as hs ∧ Takes q bs js ∧ cs = as ++ bs ∧ gs = hs ++ js := by
  constructor
  · rintro ⟨⟩
    exact ⟨_, _, _, _, ‹_›, ‹_›, rfl, rfl⟩
  · rintro ⟨as, hs, bs, js, hp, hq, rfl, rfl⟩
    exact .seq hp hq

theorem takes_group_iff : Takes (.group p) cs gs ↔ ∃ hs, Takes p cs hs ∧ gs = cs :: hs := by
  constructor
  · rintro ⟨⟩
    exact ⟨_, ‹_›, rfl⟩
  · rintro ⟨hs, h, rfl⟩
    exact .group h

theorem takes_several_iff :
    Takes (.several ok) cs gs ↔ cs ≠ [] ∧ (∀ c ∈ cs, ok c = true) ∧ gs = [] := by
  rw [several, takes_seq_iff]
  simp only [takes_one_iff, takes_many_iff]
  constructor
  · rintro ⟨_, _, bs, _, ⟨c, hc, rfl, rfl⟩, ⟨hbs, rfl⟩, rfl, rfl⟩
    exact ⟨List.cons_ne_nil _ _, List.forall_mem_cons.2 ⟨hc, hbs⟩, rfl⟩
  · rintro ⟨hne, hall, rfl⟩
    obtain ⟨c, bs, rfl⟩ := List.exists_cons_of_ne_nil hne
    obtain ⟨hc, hbs⟩ := List.forall_mem_cons.1 hall
    exact ⟨[c], [], bs, [], ⟨c, hc, rfl, rfl⟩, ⟨hbs, rfl⟩, rfl, rfl⟩

theorem takes_optional_iff :
    Takes (.optional p) cs gs ↔ Takes p cs gs ∨ cs = [] ∧ gs = [] := by
  rw [optional, takes_either_iff, takes_nothing_iff]

theorem takes_signed_iff : Takes .signed cs gs ↔
    (∃ digits, (cs = digits ∨ cs = '-' :: digits) ∧ digits ≠ [] ∧
      digits.all isDecimalDigit = true) ∧ gs = [] := by
  rw [signed, takes_seq_iff]
  simp only [takes_optional_iff, takes_char_iff, takes_several_iff, List.all_eq_true]
  constructor
  · rintro ⟨_, _, _, _, ⟨rfl, rfl⟩ | ⟨rfl, rfl⟩, ⟨hne, hall, rfl⟩, rfl, rfl⟩
    · exact ⟨⟨_, Or.inr rfl, hne, hall⟩, rfl⟩
    · exact ⟨⟨_, Or.inl rfl, hne, hall⟩, rfl⟩
  · rintro ⟨⟨digits, rfl | rfl, hne, hall⟩, rfl⟩
    · exact ⟨[], [], _, [], Or.inr ⟨rfl, rfl⟩, ⟨hne, hall, rfl⟩, rfl, rfl⟩
    · exact ⟨['-'], [], _, [], Or.inl ⟨rfl, rfl⟩, ⟨hne, hall, rfl⟩, rfl, rfl⟩

/-- Of a number, every character is a minus or a digit. -/
theorem notMem_of_signed (h : Takes .signed cs gs) (hminus : c ≠ '-')
    (hdigit : isDecimalDigit c = false) : c ∉ cs := by
  intro hc
  have hnone : ∀ {digits : List Char}, digits.all isDecimalDigit = true → c ∉ digits := by
    intro digits hall hmem
    rw [List.all_eq_true.1 hall c hmem] at hdigit
    cases hdigit
  obtain ⟨⟨digits, rfl | rfl, _, hall⟩, _⟩ := takes_signed_iff.1 h
  · exact hnone hall hc
  · exact hnone hall ((List.mem_cons.1 hc).resolve_left hminus)

theorem isBlank_of_signed (h : Takes .signed cs gs) (hc : c ∈ cs) : isBlank c = false := by
  by_contra hblank
  rw [Bool.not_eq_false] at hblank
  refine notMem_of_signed h ?_ ?_ hc
  · rintro rfl
    exact absurd hblank (by decide)
  · by_contra hdigit
    rw [Bool.not_eq_false] at hdigit
    rw [Decimal.isBlank_of_isDecimalDigit hdigit] at hblank
    cases hblank

/-- What denotes a number has the form of one. -/
theorem takes_signed_of_denotes {i : Int} (h : Decimal.Denotes cs i) : Takes .signed cs [] := by
  obtain ⟨digits, heq, hne, hall⟩ := h.exists_digits
  refine takes_signed_iff.2 ⟨⟨digits, heq, hne, ?_⟩, rfl⟩
  exact List.all_eq_true.2 fun d hd =>
    Decimal.isDecimalDigit_of_isAsciiDigit (List.all_eq_true.1 hall d hd)

theorem takes_caseless_iff {word : List Char} :
    Takes (.caseless word) cs gs ↔ lowerAscii cs = word ∧ gs = [] := by
  induction word generalizing cs gs with
  | nil => rw [caseless, takes_nothing_iff, lowerAscii, List.map_eq_nil_iff]
  | cons c word ih =>
    rw [caseless, takes_seq_iff]
    simp only [takes_one_iff, ih, beq_iff_eq]
    constructor
    · rintro ⟨_, _, ds, _, ⟨d, hd, rfl, rfl⟩, ⟨hds, rfl⟩, rfl, rfl⟩
      refine ⟨?_, rfl⟩
      show lowerAscii [d] ++ lowerAscii ds = c :: word
      rw [hd, hds, List.singleton_append]
    · rintro ⟨hall, rfl⟩
      cases cs with
      | nil => cases hall
      | cons d ds =>
        obtain ⟨hd, hds⟩ := List.cons.inj hall
        exact ⟨[d], [], ds, [], ⟨d, congrArg (fun c => [c]) hd, rfl, rfl⟩, ⟨hds, rfl⟩, rfl, rfl⟩

/-! ## The ways of a matcher -/

theorem mem_manyWays_iff {w : Way} : w ∈ manyWays ok cs ↔
    (∀ c ∈ w.taken, ok c = true) ∧ w.groups = [] ∧ w.taken ++ w.rest = cs := by
  obtain ⟨taken, groups, rest⟩ := w
  induction cs generalizing taken groups rest with
  | nil =>
    simp only [manyWays, List.mem_singleton, Way.mk.injEq, List.append_eq_nil_iff]
    constructor
    · rintro ⟨rfl, rfl, rfl⟩
      simp
    · rintro ⟨_, rfl, rfl, rfl⟩
      simp
  | cons c cs ih =>
    rw [manyWays, List.mem_append, List.mem_singleton, Way.mk.injEq]
    cases taken with
    | nil =>
      -- a way that takes something is none that takes nothing
      have hnone : ⟨[], groups, rest⟩ ∉
          if ok c then (manyWays ok cs).map fun w => { w with taken := c :: w.taken } else [] := by
        split <;> simp
      simp [hnone]
    | cons d taken =>
      have hmore : (⟨d :: taken, groups, rest⟩ : Way) ∈
          (if ok c then (manyWays ok cs).map fun w => { w with taken := c :: w.taken } else []) ↔
          ok c = true ∧ d = c ∧ (⟨taken, groups, rest⟩ : Way) ∈ manyWays ok cs := by
        by_cases hok : ok c = true
        · simp only [hok, if_true, List.mem_map, true_and]
          constructor
          · rintro ⟨⟨taken', groups', rest'⟩, hw, heq⟩
            cases heq
            exact ⟨rfl, hw⟩
          · rintro ⟨rfl, hw⟩
            exact ⟨_, hw, rfl⟩
        · simp [hok]
      rw [hmore, ih]
      simp only [List.forall_mem_cons, List.cons_append, List.cons.injEq, reduceCtorEq, false_and,
        or_false]
      constructor
      · rintro ⟨hok, rfl, hall, hgroups, hrest⟩
        exact ⟨⟨hok, hall⟩, hgroups, rfl, hrest⟩
      · rintro ⟨⟨hok, hall⟩, hgroups, rfl, hrest⟩
        exact ⟨hok, rfl, hall, hgroups, hrest⟩

theorem way_ext {w : Way} {rest : List Char} (htaken : w.taken = cs) (hgroups : w.groups = gs)
    (hrest : w.rest = rest) : w = ⟨cs, gs, rest⟩ := by
  obtain ⟨taken, groups, rest'⟩ := w
  cases htaken
  cases hgroups
  cases hrest
  rfl

/-- The ways of a matcher are the ways to take a front of the text. -/
theorem mem_ways_iff {w : Way} :
    w ∈ p.ways cs ↔ Takes p w.taken w.groups ∧ w.taken ++ w.rest = cs := by
  induction p generalizing cs w with
  | nothing =>
    rw [ways, List.mem_singleton, takes_nothing_iff]
    constructor
    · rintro rfl
      exact ⟨⟨rfl, rfl⟩, rfl⟩
    · rintro ⟨⟨htaken, hgroups⟩, hall⟩
      rw [htaken] at hall
      exact way_ext htaken hgroups hall
  | one ok =>
    rw [takes_one_iff]
    cases cs with
    | nil =>
      simp only [ways, List.not_mem_nil, false_iff]
      rintro ⟨⟨c, _, htaken, _⟩, hall⟩
      simp [htaken] at hall
    | cons c cs =>
      by_cases hok : ok c = true
      · rw [ways, if_pos hok, List.mem_singleton]
        constructor
        · rintro rfl
          exact ⟨⟨c, hok, rfl, rfl⟩, rfl⟩
        · rintro ⟨⟨d, _, htaken, hgroups⟩, hall⟩
          rw [htaken] at hall
          obtain ⟨rfl, hrest⟩ := List.cons.inj hall
          exact way_ext htaken hgroups hrest
      · rw [ways, if_neg hok]
        simp only [List.not_mem_nil, false_iff]
        rintro ⟨⟨d, hd, htaken, _⟩, hall⟩
        rw [htaken] at hall
        obtain ⟨rfl, _⟩ := List.cons.inj hall
        exact hok hd
  | many ok => rw [ways, mem_manyWays_iff, takes_many_iff, and_assoc]
  | either p q ihp ihq => rw [ways, List.mem_append, ihp, ihq, takes_either_iff, or_and_right]
  | seq p q ihp ihq =>
    rw [takes_seq_iff]
    simp only [ways, List.mem_flatMap, List.mem_map]
    constructor
    · rintro ⟨u, hu, v, hv, rfl⟩
      obtain ⟨hp, hfront⟩ := ihp.1 hu
      obtain ⟨hq, hback⟩ := ihq.1 hv
      refine ⟨⟨_, _, _, _, hp, hq, rfl, rfl⟩, ?_⟩
      rw [List.append_assoc, hback, hfront]
    · rintro ⟨⟨as, hs, bs, js, hp, hq, htaken, hgroups⟩, hall⟩
      rw [htaken, List.append_assoc] at hall
      exact ⟨⟨as, hs, bs ++ w.rest⟩, ihp.2 ⟨hp, hall⟩, ⟨bs, js, w.rest⟩, ihq.2 ⟨hq, rfl⟩,
        (way_ext htaken hgroups rfl).symm⟩
  | group p ih =>
    rw [takes_group_iff]
    simp only [ways, List.mem_map]
    constructor
    · rintro ⟨v, hv, rfl⟩
      obtain ⟨hp, hall⟩ := ih.1 hv
      exact ⟨⟨_, hp, rfl⟩, hall⟩
    · rintro ⟨⟨hs, hp, hgroups⟩, hall⟩
      exact ⟨⟨w.taken, hs, w.rest⟩, ih.2 ⟨hp, hall⟩, (way_ext rfl hgroups rfl).symm⟩

/-! ## Whole texts -/

theorem takes_of_captures? (h : p.captures? cs = some gs) : Takes p cs gs := by
  obtain ⟨w, hw, rfl⟩ := Option.map_eq_some_iff.1 h
  obtain ⟨htakes, hall⟩ := mem_ways_iff.1 (List.mem_of_find?_eq_some hw)
  have hrest : w.rest = [] := by simpa using List.find?_some hw
  rw [hrest, List.append_nil] at hall
  rwa [← hall]

theorem captures?_eq_none_iff : p.captures? cs = none ↔ ∀ gs, ¬ Takes p cs gs := by
  rw [captures?, Option.map_eq_none_iff, List.find?_eq_none]
  constructor
  · intro h gs hgs
    exact h ⟨cs, gs, []⟩ (mem_ways_iff.2 ⟨hgs, List.append_nil _⟩) rfl
  · intro h w hw hrest
    obtain ⟨htakes, hall⟩ := mem_ways_iff.1 hw
    have hrest : w.rest = [] := by simpa using hrest
    rw [hrest, List.append_nil] at hall
    exact h w.groups (hall ▸ htakes)

/-- Where all ways to take the text have the same groups, the match has these groups. -/
theorem captures?_of_unique (h : Takes p cs gs) (hunique : ∀ hs, Takes p cs hs → hs = gs) :
    p.captures? cs = some gs := by
  cases hcaptures : p.captures? cs with
  | none => exact absurd h (captures?_eq_none_iff.1 hcaptures gs)
  | some hs => rw [hunique hs (takes_of_captures? hcaptures)]

/-! ## The order of trial -/

/-- A pattern tries to take more before it takes less. -/
def Greedy (p : Pattern) : Prop :=
  ∀ cs, (p.ways cs).Pairwise fun w v => v.taken.length ≤ w.taken.length

theorem greedy_many (ok : Char → Bool) : (many ok).Greedy := by
  intro cs
  show (manyWays ok cs).Pairwise _
  induction cs with
  | nil => exact List.pairwise_singleton _ _
  | cons c cs ih =>
    rw [manyWays, List.pairwise_append]
    refine ⟨?_, List.pairwise_singleton _ _, ?_⟩
    · split
      · rw [List.pairwise_map]
        exact ih.imp fun h => Nat.succ_le_succ h
      · exact List.Pairwise.nil
    · intro w _ v hv
      rw [List.mem_singleton.1 hv]
      exact Nat.zero_le _

theorem greedy_several (ok : Char → Bool) : (several ok).Greedy := by
  intro cs
  cases cs with
  | nil => exact List.Pairwise.nil
  | cons c cs =>
    simp only [several, ways]
    split
    · rw [List.flatMap_singleton, List.pairwise_map]
      exact (greedy_many ok cs).imp fun h => Nat.succ_le_succ h
    · exact List.Pairwise.nil

/-- What the first group took. -/
def Way.front (w : Way) : List Char :=
  w.groups.headD []

/-- The order of trial of a part in front is that of the whole. -/
theorem pairwise_front (hp : p.Greedy) (q : Pattern) (cs : List Char) :
    ((seq (group p) q).ways cs).Pairwise fun w v => v.front.length ≤ w.front.length := by
  simp only [ways]
  rw [List.pairwise_flatMap, List.pairwise_map]
  constructor
  · intro w hw
    obtain ⟨u, _, rfl⟩ := List.mem_map.1 hw
    rw [List.pairwise_map]
    exact List.pairwise_of_forall fun _ _ => Nat.le_refl _
  · refine (hp cs).imp fun hle v hv u hu => ?_
    obtain ⟨_, _, rfl⟩ := List.mem_map.1 hv
    obtain ⟨_, _, rfl⟩ := List.mem_map.1 hu
    exact hle

/-- A group of a greedy part in front takes as much as it can. -/
theorem longest_of_captures? (hp : p.Greedy) {text text' : List Char} {hs : List (List Char)}
    (h : (seq (group p) q).captures? cs = some (text :: gs))
    (h' : Takes (.seq (.group p) q) cs (text' :: hs)) : text'.length ≤ text.length := by
  obtain ⟨w, hw, hgroups⟩ := Option.map_eq_some_iff.1 h
  obtain ⟨_, before, after, hways, hbefore⟩ := List.find?_eq_some_iff_append.1 hw
  have hsorted := pairwise_front hp q cs
  have hmem : (⟨cs, text' :: hs, []⟩ : Way) ∈ (seq (group p) q).ways cs :=
    mem_ways_iff.2 ⟨h', List.append_nil _⟩
  rw [hways] at hmem hsorted
  rcases List.mem_append.1 hmem with hmem | hmem
  · -- the match is the first way that leaves nothing
    exact absurd (hbefore _ hmem) (by simp)
  · rcases List.mem_cons.1 hmem with rfl | hmem
    · obtain ⟨rfl, _⟩ := List.cons.inj hgroups
      exact Nat.le_refl _
    · have hle := (List.pairwise_cons.1 (List.pairwise_append.1 hsorted).2.1).1 _ hmem
      rwa [Way.front, Way.front, hgroups] at hle

end Dialogue.Text.Pattern
