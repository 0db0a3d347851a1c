import Dialogue.Terminal.Console
import Dialogue.Proofs.Sheet.Naming
import Dialogue.Proofs.Text.Decimal

/-!
# Prompts

What the prompts of a console meet, and what comes of it.

* `Met` is what a prompt meets when it reads: a line, the end of the input, or what is no text.
  `met` lists this for one prompt, `metAll` for one question after the other.
* `Understands` says what a reading of lines has to keep to: the reader leaves by `exit` and by
  nothing else, and a choice is one of the options. Both readings of a terminal keep to it.
* `Console.ask_exit_iff`: a question is answered by leaving just where something is met that leaves.
  `Console.choose_of_ask`: a choice is made only of options that were asked about.
-/

namespace Dialogue

open Text

namespace Terminal

/-- What a prompt meets. -/
inductive Met where
  /-- Nothing more is typed. -/
  | endOfInput
  /-- What is typed is no text. -/
  | unreadable
  /-- A line, without the blanks around it. -/
  | line (text : String)
deriving DecidableEq, Repr

/-- Whether the reader leaves by what is met: a line does this that is `exit`, the case of its
letters aside. -/
def Met.Leaves : Met → Prop
  | .endOfInput | .unreadable => True
  | .line text => lowerAscii text.toList = "exit".toList

/-- What a prompt meets of the lines that are typed. It goes on behind a line that is refused. -/
def met (understand : String → Reply) : List (Option String) → List Met
  | [] => [.endOfInput]
  | none :: _ => [.unreadable]
  | some text :: rest =>
    .line (strip text) ::
      match understand (strip text) with
      | .refused _ => met understand rest
      | _ => []

/-- The lines that a prompt leaves for the next. -/
def unread (understand : String → Reply) : List (Option String) → List (Option String)
  | [] => []
  | none :: rest => rest
  | some text :: rest =>
    match understand (strip text) with
    | .refused _ => unread understand rest
    | _ => rest

/-! ## How lines are understood -/

/-- A reading of lines in which the reader leaves by `exit` only, and chooses one of so many
options. -/
structure Understands (understand : String → Reply) (options : Nat) : Prop where
  leave_iff : ∀ line, understand line = .leave ↔ (Met.line line).Leaves
  ne_exit : ∀ line, understand line ≠ .input .exit
  lt_of_choose : ∀ line index, understand line = .input (.choose index) → index < options

/-- What is `exit` but for its case is no number. -/
theorem uint64?_of_exit {cs : List Char} (h : lowerAscii cs = "exit".toList) :
    Decimal.uint64? cs = none := by
  cases cs with
  | nil => cases h
  | cons c cs =>
    have hsmall : Sheet.small c = 'e' := (List.cons.inj h).1
    -- so its first character is a letter, no sign and no digit
    have hlow : 65 ≤ c.toNat := by
      rcases Sheet.small_cases c with hsame | ⟨⟨hlow, _⟩, _⟩
      · rw [hsmall] at hsame
        subst hsame
        decide
      · exact hlow
    have hdigit : isAsciiDigit c = false := by
      by_contra hdigit
      have hrange := Decimal.toNat_of_isAsciiDigit (Bool.not_eq_false _ ▸ hdigit)
      omega
    have hplus : c ≠ '+' := by
      rintro rfl
      exact absurd hlow (by decide)
    have hnat : Decimal.nat? (c :: cs) = none := by
      unfold Decimal.nat?
      split
      · rename_i heq
        exact absurd (List.cons.inj heq).1 hplus
      · simp [Decimal.digits?, hdigit]
    rw [Decimal.uint64?, hnat]
    rfl

/-- A line that is `exit` leaves; every other one is a command, or is refused. -/
theorem commandReply_cases (line : String) :
    ((Met.line line).Leaves ∧ commandReply line = .leave) ∨
    (¬ (Met.line line).Leaves ∧ (commandReply line = .input .refresh ∨
      (∃ a, commandReply line = .input (.jump a)) ∨
      ∃ notes, commandReply line = .refused notes)) := by
  by_cases hleaves : (Met.line line).Leaves
  · exact Or.inl ⟨hleaves, if_pos hleaves⟩
  · refine Or.inr ⟨hleaves, ?_⟩
    have hnot : ¬ lowerAscii line.toList = "exit".toList := hleaves
    rw [commandReply, if_neg hnot]
    split
    · exact Or.inl rfl
    · split
      · split
        · exact Or.inr (Or.inl ⟨_, rfl⟩)
        · exact Or.inr (Or.inr ⟨_, rfl⟩)
      · exact Or.inr (Or.inr ⟨_, rfl⟩)

theorem understands_commandReply (options : Nat) : Understands commandReply options := by
  constructor
  case leave_iff =>
    intro line
    rcases commandReply_cases line with ⟨hleaves, h⟩ | ⟨hstays, h | ⟨a, h⟩ | ⟨notes, h⟩⟩ <;>
      simp [*]
  case ne_exit =>
    intro line
    rcases commandReply_cases line with ⟨_, h⟩ | ⟨_, h | ⟨a, h⟩ | ⟨notes, h⟩⟩ <;> simp [h]
  case lt_of_choose =>
    intro line index
    rcases commandReply_cases line with ⟨_, h⟩ | ⟨_, h | ⟨a, h⟩ | ⟨notes, h⟩⟩ <;> simp [h]

theorem understands_proceedReply (options : Nat) : Understands proceedReply options := by
  have hcommand := understands_commandReply options
  have hempty : ¬ (Met.line "").Leaves := by simp [Met.Leaves, lowerAscii]
  constructor
  case leave_iff =>
    intro line
    unfold proceedReply
    split
    · rename_i h
      subst h
      refine ⟨fun h => ?_, fun h => absurd h hempty⟩
      cases h
    · exact hcommand.leave_iff line
  case ne_exit =>
    intro line h
    unfold proceedReply at h
    split at h
    · cases h
    · exact hcommand.ne_exit line h
  case lt_of_choose =>
    intro line index h
    unfold proceedReply at h
    split at h
    · cases h
    · exact hcommand.lt_of_choose line index h

/-- A line at a choice takes one of the options, or is understood as everywhere. -/
theorem choiceReply_cases (count : Nat) (line : String) :
    (∃ n, Decimal.uint64? line.toList = some n ∧ 1 ≤ n ∧ n ≤ count ∧
      choiceReply count line = .input (.choose (n - 1))) ∨
    choiceReply count line = commandReply line := by
  unfold choiceReply
  split
  · rename_i n hn
    by_cases h : 1 ≤ n ∧ n ≤ count
    · exact Or.inl ⟨n, hn, h.1, h.2, if_pos h⟩
    · exact Or.inr (if_neg h)
  · exact Or.inr rfl

theorem understands_choiceReply (count : Nat) : Understands (choiceReply count) count := by
  have hcommand := understands_commandReply count
  constructor
  case leave_iff =>
    intro line
    rcases choiceReply_cases count line with ⟨n, hn, _, _, h⟩ | h
    · rw [h]
      refine ⟨nofun, fun hleaves => ?_⟩
      rw [uint64?_of_exit hleaves] at hn
      cases hn
    · rw [h]
      exact hcommand.leave_iff line
  case ne_exit =>
    intro line
    rcases choiceReply_cases count line with ⟨n, _, _, _, h⟩ | h
    · simp [h]
    · rw [h]
      exact hcommand.ne_exit line
  case lt_of_choose =>
    intro line index hchoose
    rcases choiceReply_cases count line with ⟨n, _, hone, hle, h⟩ | h
    · rw [h] at hchoose
      cases hchoose
      omega
    · rw [h] at hchoose
      exact hcommand.lt_of_choose line index hchoose

/-! ## The questions of a player -/

/-- How lines are understood at a question, where any are read. -/
def understanding? (autoAdvance : Bool) : Question → Option (String → Reply)
  | .asset _ => none
  | .proceed => if autoAdvance then none else some proceedReply
  | .choice options => some (choiceReply options.length)

/-- What the prompt at a question meets, if there is one. -/
def metAt (autoAdvance : Bool) (q : Question) (lines : List (Option String)) : List Met :=
  match understanding? autoAdvance q with
  | some understand => met understand lines
  | none => []

/-- The lines that are left behind a question. -/
def unreadAt (autoAdvance : Bool) (q : Question) (lines : List (Option String)) :
    List (Option String) :=
  match understanding? autoAdvance q with
  | some understand => unread understand lines
  | none => lines

/-- What the prompts at one question after the other meet. -/
def metAll (autoAdvance : Bool) : List Question → List (Option String) → List Met
  | [], _ => []
  | q :: qs, lines =>
    metAt autoAdvance q lines ++ metAll autoAdvance qs (unreadAt autoAdvance q lines)

end Terminal

namespace Console

open Terminal

variable {sign : String} {understand : String → Reply} {options : Nat}

/-! ## What a prompt reads -/

theorem readReply_exit_iff (h : Understands understand options) (lines : List (Option String))
    (c : Console) :
    (readReply sign understand lines c).1 = .exit ↔ ∃ m ∈ met understand lines, m.Leaves := by
  fun_induction readReply sign understand lines c with
  | case1 c => exact ⟨fun _ => ⟨_, List.mem_singleton_self _, trivial⟩, fun _ => rfl⟩
  | case2 rest c => exact ⟨fun _ => ⟨_, List.mem_singleton_self _, trivial⟩, fun _ => rfl⟩
  | case3 text rest c input hinput =>
    have hstays : ¬ (Met.line (strip text)).Leaves := by
      simp [← h.leave_iff, hinput]
    have hinput' : input ≠ .exit := by
      rintro rfl
      exact h.ne_exit _ hinput
    simp [met, hinput, hstays, hinput']
  | case4 text rest c hleave =>
    have hleaves := (h.leave_iff _).1 hleave
    exact ⟨fun _ => ⟨_, List.mem_cons_self, hleaves⟩, fun _ => rfl⟩
  | case5 text rest c notes hrefused ih =>
    have hstays : ¬ (Met.line (strip text)).Leaves := by
      simp [← h.leave_iff, hrefused]
    rw [ih]
    simp [met, hrefused, hstays]

theorem lines_readReply (lines : List (Option String)) (c : Console) :
    (readReply sign understand lines c).2.lines = unread understand lines := by
  fun_induction readReply sign understand lines c with
  | case1 | case2 => rfl
  | case3 text rest c input hinput => simp [unread, hinput]
  | case4 text rest c hleave => simp [unread, hleave, leave]
  | case5 text rest c notes hrefused ih => simp [unread, hrefused, ih]

@[simp] theorem autoAdvance_printLines (lines : List String) (c : Console) :
    (c.printLines lines).autoAdvance = c.autoAdvance := by
  unfold printLines
  induction lines generalizing c with
  | nil => rfl
  | cons line lines ih => exact ih _

theorem autoAdvance_readReply (lines : List (Option String)) (c : Console) :
    (readReply sign understand lines c).2.autoAdvance = c.autoAdvance := by
  fun_induction readReply sign understand lines c with
  | case1 | case2 | case3 | case4 => rfl
  | case5 text rest c notes hrefused ih =>
    rw [ih, autoAdvance_printLines]
    rfl

theorem exists_of_readReply {input : Input} {lines : List (Option String)} {c : Console}
    (h : (readReply sign understand lines c).1 = input) (hstays : input ≠ .exit) :
    ∃ line, understand line = .input input := by
  fun_induction readReply sign understand lines c with
  | case1 | case2 | case4 => exact absurd h.symm hstays
  | case3 text rest c input' hinput =>
    have hsame : input' = input := h
    exact ⟨_, hsame ▸ hinput⟩
  | case5 text rest c notes hrefused ih => exact ih h

/-! ## What is answered -/

/-- A question is answered by just what is awaited, or by what a prompt reads. -/
theorem ask_cases (q : Question) (c : Console) :
    (understanding? c.autoAdvance q = none ∧ ∃ input, q.awaited? = some input ∧
      c.ask q = (input, c)) ∨
    ∃ sign understand, understanding? c.autoAdvance q = some understand ∧
      c.ask q = readReply sign understand c.lines c := by
  cases q with
  | asset ticket => exact Or.inl ⟨rfl, _, rfl, rfl⟩
  | choice options => exact Or.inr ⟨_, _, rfl, rfl⟩
  | proceed =>
    by_cases hauto : c.autoAdvance
    · exact Or.inl ⟨by simp [understanding?, hauto], .proceed, rfl, by simp [ask, hauto]⟩
    · exact Or.inr ⟨"> ", proceedReply, by simp [understanding?, hauto], by simp [ask, hauto]⟩

/-- What is awaited is no leaving and no choice. -/
theorem awaited?_cases {q : Question} {input : Input} (h : q.awaited? = some input) :
    input = .proceed ∨ ∃ ticket, input = .loaded ticket := by
  cases q with
  | proceed => exact Or.inl (Option.some.inj h).symm
  | choice options => cases h
  | asset ticket => exact Or.inr ⟨ticket, (Option.some.inj h).symm⟩

theorem exists_understands {autoAdvance : Bool} {q : Question}
    (h : understanding? autoAdvance q = some understand) : ∃ n, Understands understand n := by
  cases q with
  | asset ticket => cases h
  | choice options =>
    cases h
    exact ⟨_, understands_choiceReply _⟩
  | proceed =>
    simp only [understanding?] at h
    split at h
    · cases h
    · cases h
      exact ⟨0, understands_proceedReply 0⟩

/-- The reader leaves at a question just where its prompt meets something that leaves. -/
theorem ask_exit_iff (q : Question) (c : Console) :
    (c.ask q).1 = .exit ↔ ∃ m ∈ metAt c.autoAdvance q c.lines, m.Leaves := by
  rcases c.ask_cases q with ⟨hnone, input, hawaited, hask⟩ | ⟨sign, understand, hsome, hask⟩
  · have hstays : input ≠ .exit := by
      rcases awaited?_cases hawaited with rfl | ⟨ticket, rfl⟩ <;> simp
    simp [hask, metAt, hnone, hstays]
  · obtain ⟨n, hunderstands⟩ := exists_understands hsome
    rw [hask, readReply_exit_iff hunderstands]
    simp only [metAt, hsome]

theorem lines_ask (q : Question) (c : Console) :
    (c.ask q).2.lines = unreadAt c.autoAdvance q c.lines := by
  rcases c.ask_cases q with ⟨hnone, input, _, hask⟩ | ⟨sign, understand, hsome, hask⟩
  · simp [hask, unreadAt, hnone]
  · rw [hask, lines_readReply]
    simp only [unreadAt, hsome]

theorem autoAdvance_ask (q : Question) (c : Console) :
    (c.ask q).2.autoAdvance = c.autoAdvance := by
  rcases c.ask_cases q with ⟨_, input, _, hask⟩ | ⟨sign, understand, _, hask⟩
  · rw [hask]
  · rw [hask, autoAdvance_readReply]

/-- A choice is made only where one is asked for, and of the options there. -/
theorem choose_of_ask {q : Question} {c : Console} {index : Nat}
    (h : (c.ask q).1 = .choose index) :
    ∃ options, q = .choice options ∧ index < options.length := by
  rcases c.ask_cases q with ⟨_, input, hawaited, hask⟩ | ⟨sign, understand, hsome, hask⟩
  · rw [hask] at h
    rcases awaited?_cases hawaited with rfl | ⟨ticket, rfl⟩ <;> cases h
  · rw [hask] at h
    obtain ⟨line, hline⟩ := exists_of_readReply h (by simp)
    cases q with
    | asset ticket => cases hsome
    | choice options =>
      cases hsome
      exact ⟨options, rfl, (understands_choiceReply _).lt_of_choose line index hline⟩
    | proceed =>
      simp only [understanding?] at hsome
      split at hsome
      · cases hsome
      · cases hsome
        exact absurd ((understands_proceedReply 0).lt_of_choose line index hline)
          (Nat.not_lt_zero _)

end Console

end Dialogue
