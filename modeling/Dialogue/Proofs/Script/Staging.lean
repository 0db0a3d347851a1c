import Dialogue.Script.Cue
import Mathlib.Data.List.Basic

/-!
# How a row is staged

The shape of what a row asks for, whatever stands in it. The effects tell a host what to expect: a
text is shown exactly if the reader is awaited then, and choices exactly if one of them is.

* `Row.Ends` lists what comes last of a row, after its pictures, together with the decision.
  `Row.cue_eq` says that every cue is the pictures of its row and then one of these. From there
  `cue_decision_awaitChoice` and `cue_decision_stop` read off a decision what the row is.
* `Effect.lit?` is what an effect says of the portrait on a side, and `Highlight.covers` which sides
  stand out. `Highlight.filterMap_lit?`: a line says of each side once whether it stands out.
* `Row.Stages` is the shape, and `Row.stages_cue` says that every cue has it.
-/

namespace Dialogue

/-- Whether a portrait on this side stands out. -/
def Highlight.covers : Highlight → Side → Bool
  | .left, .left | .right, .right | .all, .left | .all, .right => true
  | _, _ => false

namespace Effect

/-- What an effect says of the portrait on a side: that it stands out, or that it does not. -/
def lit? (side : Side) : Effect → Option Bool
  | .highlight which => if which.covers side then some true else none
  | .dehighlight which => if which.covers side then some false else none
  | _ => none

def isLight : Effect → Bool
  | .highlight _ | .dehighlight _ => true
  | _ => false

def isPortrait : Effect → Bool
  | .portrait _ _ _ => true
  | _ => false

/-- An effect that changes the pictures on the screen. -/
def isPicture : Effect → Bool
  | .background _ | .cg _ | .portrait _ _ _ | .clearPortraits => true
  | _ => false

/-- An effect for a key that is there and not empty. -/
def keyed (effect : String → Effect) : Option String → List Effect
  | some key => if key = "" then [] else [effect key]
  | none => []

theorem keyed_eq (effect : String → Effect) (key : Option String) :
    keyed effect key = ((assetKey key).map effect).toList := by
  cases key with
  | none => rfl
  | some key =>
    by_cases hkey : key = ""
    · simp [keyed, assetKey, hkey]
    · simp [keyed, assetKey, hkey, Option.filter]

theorem mem_keyed {effect : String → Effect} {key : Option String} {e : Effect} :
    e ∈ keyed effect key ↔ ∃ k, key = some k ∧ k ≠ "" ∧ e = effect k := by
  cases key with
  | none => simp [keyed]
  | some key => by_cases hkey : key = "" <;> simp [keyed, hkey]

end Effect

namespace Highlight

theorem isLight_of_mem_effects {h : Highlight} {e : Effect} (he : e ∈ h.effects) :
    e.isLight = true := by
  cases h <;> simp [effects] at he <;> rcases he with rfl | rfl <;> rfl

/-- Of each side it is said once whether it stands out, as the highlight has it. -/
theorem filterMap_lit? (h : Highlight) {side : Side} (hside : side ≠ .none) :
    h.effects.filterMap (Effect.lit? side) = [h.covers side] := by
  cases side with
  | none => exact absurd rfl hside
  | left | right => cases h <;> rfl

end Highlight

namespace Row

open Effect

variable {r : Row} {last : List Effect} {d : Decision} {e : Effect}

/-- What a row does with the portraits. -/
def figures (r : Row) : List Effect :=
  match r.command with
  | .setCharacter => r.portrait
  | .cleanCharacter => [.clearPortraits]
  | _ => []

/-- What a row does with the pictures on the screen. -/
def pictures (r : Row) : List Effect :=
  keyed .background r.background ++ (keyed .cg r.cg ++ r.figures)

theorem mem_figures : e ∈ r.figures ↔
    r.command = .cleanCharacter ∧ e = .clearPortraits ∨
      r.command = .setCharacter ∧ r.side ≠ .none ∧
        e = .portrait r.side r.character (r.loadMode = .wait) := by
  unfold figures portrait
  cases r.command with
  | setCharacter => by_cases hside : r.side = .none <;> simp [hside]
  | say | cleanCharacter | setOption | unknown => simp

theorem isPicture_of_mem_pictures (he : e ∈ r.pictures) : e.isPicture = true := by
  simp only [pictures, List.mem_append, mem_keyed, mem_figures] at he
  rcases he with ⟨_, _, _, rfl⟩ | ⟨_, _, _, rfl⟩ | ⟨_, rfl⟩ | ⟨_, _, rfl⟩ <;> rfl

/-- Whether a row has its line read. -/
def Speaks (r : Row) : Prop :=
  r.command = .say ∨ r.command = .setCharacter ∧ r.loadMode = .wait ∧ r.line ≠ ""

theorem Speaks.command_ne (h : r.Speaks) : r.command ≠ .setOption := by
  rcases h with h | ⟨h, _⟩ <;> simp [h]

/-- What comes last of a row, and the decision then. -/
inductive Ends (r : Row) : List Effect → Decision → Prop
  | speaks (h : r.Speaks) : Ends r r.speech .awaitReader
  | offers (hcommand : r.command = .setOption) (hchoices : r.choices ≠ []) :
      Ends r [.choices r.choices] (.awaitChoice r.choices)
  | stops (hcommand : r.command = .setOption) (hchoices : r.choices = []) : Ends r [] .stop
  | goesOn (h : ¬ r.Speaks) (hcommand : r.command ≠ .setOption) : Ends r [] .proceed

/-- The command of a row moves the portraits and then ends in one of these ways. -/
theorem action_eq (r : Row) : ∃ last, r.action.effects = r.figures ++ last ∧
    r.Ends last r.action.decision := by
  cases hcommand : r.command with
  | say =>
    exact ⟨r.speech, by simp [action, figures, hcommand],
      by simpa [action, hcommand] using .speaks (.inl hcommand)⟩
  | setCharacter =>
    -- a row that waits for its portrait and has a line goes on as a line to say
    by_cases h : r.loadMode = .wait ∧ r.hasDialogue
    · have hspeaks : r.Speaks := .inr ⟨hcommand, h.1, by simpa [hasDialogue] using h.2⟩
      exact ⟨r.speech, by simp [action, figures, hcommand, h],
        by simpa [action, hcommand, h] using .speaks hspeaks⟩
    · have hspeaks : ¬ r.Speaks := by simpa [Speaks, hcommand, hasDialogue] using h
      exact ⟨[], by simp [action, figures, hcommand, h],
        by simpa [action, hcommand, h] using .goesOn hspeaks (by simp [hcommand])⟩
  | cleanCharacter =>
    exact ⟨[], by simp [action, figures, hcommand],
      by simpa [action, hcommand] using .goesOn (by simp [Speaks, hcommand]) (by simp [hcommand])⟩
  | setOption =>
    by_cases h : r.choices = []
    · exact ⟨[], by simp [action, figures, hcommand, h],
        by simpa [action, hcommand, h] using .stops hcommand h⟩
    · exact ⟨[.choices r.choices], by simp [action, figures, hcommand, h],
        by simpa [action, hcommand, h] using .offers hcommand h⟩
  | unknown name =>
    exact ⟨[], by simp [action, figures, hcommand],
      by simpa [action, hcommand] using .goesOn (by simp [Speaks, hcommand]) (by simp [hcommand])⟩

theorem cue_effects (r : Row) : r.cue.effects =
    keyed .background r.background ++ (keyed .cg r.cg ++ r.action.effects) := by
  simp [cue, scenery, keyed_eq]

/-- Every row changes its pictures and then ends in one of these ways. -/
theorem cue_eq (r : Row) : ∃ last, r.cue.effects = r.pictures ++ last ∧
    r.Ends last r.cue.decision := by
  obtain ⟨last, hlast, hends⟩ := r.action_eq
  exact ⟨last, by simp [cue_effects, pictures, hlast], hends⟩

namespace Ends

theorem isPicture_eq_false (h : r.Ends last d) (he : e ∈ last) : e.isPicture = false := by
  cases h with
  | speaks =>
    rcases List.mem_cons.mp he with rfl | he
    · rfl
    · have hlight := Highlight.isLight_of_mem_effects he
      cases e <;> first | rfl | cases hlight
  | offers => obtain rfl := List.mem_singleton.mp he; rfl
  | stops | goesOn => cases he

theorem exists_text_iff (h : r.Ends last d) :
    (∃ speaker line, .text speaker line ∈ last) ↔ d = .awaitReader := by
  cases h with
  | speaks => exact iff_of_true ⟨r.speaker, r.line, List.mem_cons_self⟩ rfl
  | offers | stops | goesOn => simp

theorem exists_choices_iff (h : r.Ends last d) :
    (∃ options, .choices options ∈ last) ↔ ∃ options, d = .awaitChoice options := by
  cases h with
  | speaks =>
    have hnone : ∀ options, .choices options ∉ r.highlight.effects := fun options ho =>
      Bool.false_ne_true (Highlight.isLight_of_mem_effects ho)
    simp [speech, hnone]
  | offers | stops | goesOn => simp

theorem awaitReader_iff (h : r.Ends last d) : d = .awaitReader ↔ r.Speaks := by
  cases h with
  | speaks h => exact iff_of_true rfl h
  | offers hcommand | stops hcommand => simp [Speaks, hcommand]
  | goesOn h => simp [h]

theorem stop_iff (h : r.Ends last d) : d = .stop ↔ r.command = .setOption ∧ r.choices = [] := by
  cases h with
  | speaks h => simp [h.command_ne]
  | offers _ hchoices => simp [hchoices]
  | stops hcommand hchoices => simp [hcommand, hchoices]
  | goesOn _ hcommand => simp [hcommand]

theorem eq_speech (h : r.Ends last .awaitReader) : last = r.speech := by
  cases h; rfl

theorem eq_choices {options : List Choice} (h : r.Ends last (.awaitChoice options)) :
    last = [.choices options] ∧ r.command = .setOption ∧ options = r.choices ∧ options ≠ [] := by
  cases h with
  | offers hcommand hchoices => exact ⟨rfl, hcommand, rfl, hchoices⟩

end Ends

/-- Only a row with choices waits for a choice, and it waits for one of all its choices. -/
theorem cue_decision_awaitChoice {options : List Choice}
    (h : r.cue.decision = .awaitChoice options) :
    r.command = .setOption ∧ options = r.choices ∧ options ≠ [] := by
  obtain ⟨last, -, hends⟩ := r.cue_eq
  rw [h] at hends
  exact hends.eq_choices.2

/-- Only a choice without options stops. -/
theorem cue_decision_stop (h : r.cue.decision = .stop) :
    r.command = .setOption ∧ r.choices = [] := by
  obtain ⟨last, -, hends⟩ := r.cue_eq
  exact hends.stop_iff.1 h

/-- A row behind which playing goes on, with the reader or by itself, is no choice. -/
theorem command_ne_setOption_of_goesOn
    (h : r.cue.decision = .proceed ∨ r.cue.decision = .awaitReader) : r.command ≠ .setOption := by
  obtain ⟨last, -, hends⟩ := r.cue_eq
  rcases h with h | h
  · rw [h] at hends
    cases hends with
    | goesOn _ hcommand => exact hcommand
  · exact (hends.awaitReader_iff.1 h).command_ne

/-- The shape of what a row asks for. -/
structure Stages (r : Row) (c : Cue) : Prop where
  /-- The background comes first and the picture second, each exactly if it has a key. -/
  scenery : c.effects = keyed .background r.background ++
    (keyed .cg r.cg ++ r.action.effects)
  /-- The command changes neither. -/
  scenery_once : ∀ key, .background key ∉ r.action.effects ∧ .cg key ∉ r.action.effects
  /-- Choices are shown exactly if one of them is awaited. -/
  choices_iff : (∃ options, .choices options ∈ c.effects) ↔
    ∃ options, c.decision = .awaitChoice options
  /-- The choices that are awaited are those of the row; they are shown once, and last. -/
  choices_last : ∀ options, c.decision = .awaitChoice options →
    options = r.choices ∧ options ≠ [] ∧ ∃ before, c.effects = before ++ [.choices options] ∧
      ∀ others, .choices others ∉ before
  /-- A text is shown exactly if the reader is awaited. -/
  text_iff : (∃ speaker line, .text speaker line ∈ c.effects) ↔ c.decision = .awaitReader
  /-- The text is shown once, and what follows it says of each side once whether it stands out. -/
  text_last : c.decision = .awaitReader →
    ∃ before lights, c.effects = before ++ .text r.speaker r.line :: lights ∧
      (∀ speaker line, .text speaker line ∉ before) ∧ (∀ e ∈ lights, e.isLight = true) ∧
      ∀ side ≠ .none, lights.filterMap (lit? side) = [r.highlight.covers side]
  /-- A portrait is shown exactly if the row sets one and names a side for it. -/
  portrait_iff : ∀ side key wait, .portrait side key wait ∈ c.effects ↔
    r.command = .setCharacter ∧ side ≠ .none ∧ side = r.side ∧ key = r.character ∧
      (wait = true ↔ r.loadMode = .wait)
  portrait_once : (c.effects.filter Effect.isPortrait).length ≤ 1
  /-- No portrait comes after a text. -/
  portrait_before_text : c.effects.Pairwise fun e e' =>
    (∃ speaker line, e = .text speaker line) → e'.isPortrait = false
  /-- The reader is awaited exactly if the row has its line read. -/
  awaitReader_iff : c.decision = .awaitReader ↔ r.Speaks
  /-- A choice without options stops the script, and nothing else does. -/
  stop_iff : c.decision = .stop ↔ r.command = .setOption ∧ r.choices = []
  not_handOver : ∀ branch, c.decision ≠ .handOver branch

/-- The pictures of a row and what comes last have no effect in common. -/
theorem Ends.mem_cue_iff (h : r.cue.effects = r.pictures ++ last) (hends : r.Ends last d) :
    e ∈ r.cue.effects ↔ if e.isPicture then e ∈ r.pictures else e ∈ last := by
  rw [h, List.mem_append]
  split
  · next he =>
    have hlast : e ∉ last := fun hmem =>
      Bool.false_ne_true ((hends.isPicture_eq_false hmem).symm.trans he)
    simp [hlast]
  · next he =>
    have hpictures : e ∉ r.pictures := fun hmem => he (isPicture_of_mem_pictures hmem)
    simp [hpictures]

theorem portrait_mem_pictures {side : Side} {key : String} {wait : Bool} :
    .portrait side key wait ∈ r.pictures ↔
      r.command = .setCharacter ∧ side ≠ .none ∧ side = r.side ∧ key = r.character ∧
        (wait = true ↔ r.loadMode = .wait) := by
  have hwait : (wait = true ↔ r.loadMode = .wait) ↔ wait = decide (r.loadMode = .wait) := by
    cases wait <;> simp
  rw [hwait]
  simp only [pictures, List.mem_append, mem_keyed, mem_figures]
  constructor
  · rintro (⟨_, _, _, hk⟩ | ⟨_, _, _, hk⟩ | ⟨_, hk⟩ | ⟨hcommand, hside, hk⟩)
    · cases hk
    · cases hk
    · cases hk
    · cases hk
      exact ⟨hcommand, hside, rfl, rfl, rfl⟩
  · rintro ⟨hcommand, hside, rfl, rfl, rfl⟩
    exact .inr (.inr (.inr ⟨hcommand, hside, rfl⟩))

theorem length_filter_isPortrait_pictures (r : Row) :
    (r.pictures.filter Effect.isPortrait).length ≤ 1 := by
  have hkeyed (effect : String → Effect) (h : ∀ k, (effect k).isPortrait = false)
      (key : Option String) : (keyed effect key).filter Effect.isPortrait = [] := by
    rw [List.filter_eq_nil_iff]
    intro e he
    obtain ⟨k, _, _, rfl⟩ := mem_keyed.mp he
    simp [h]
  rw [pictures, List.filter_append, List.filter_append, hkeyed _ fun _ => rfl,
    hkeyed _ fun _ => rfl, List.nil_append, List.nil_append]
  refine Nat.le_trans (List.length_filter_le _ _) ?_
  unfold figures portrait
  cases r.command with
  | setCharacter => dsimp only; split <;> simp
  | say | cleanCharacter | setOption | unknown => simp

/-- What the command asks for changes neither the background nor the picture. -/
theorem scenery_notMem_action (r : Row) (key : String) :
    .background key ∉ r.action.effects ∧ .cg key ∉ r.action.effects := by
  obtain ⟨last, hlast, hends⟩ := r.action_eq
  have hnone (e : Effect) (he : e ∈ r.action.effects) (hpicture : e.isPicture = true) :
      e ∈ r.figures := by
    rw [hlast, List.mem_append] at he
    refine he.resolve_right fun hmem => ?_
    exact Bool.false_ne_true ((hends.isPicture_eq_false hmem).symm.trans hpicture)
  constructor <;> intro he <;> simpa [mem_figures] using hnone _ he rfl

/-- Every row is staged in this shape. -/
theorem stages_cue (r : Row) : r.Stages r.cue := by
  obtain ⟨last, heffects, hends⟩ := r.cue_eq
  have hmem {e : Effect} := hends.mem_cue_iff heffects (e := e)
  have hpictures {e : Effect} (he : e ∈ r.pictures) := isPicture_of_mem_pictures he
  have hportrait (e : Effect) (he : e ∈ last) : ¬ e.isPortrait = true := fun h => by
    have hpicture := hends.isPicture_eq_false he
    cases e <;> cases h
    cases hpicture
  exact {
    scenery := r.cue_effects
    scenery_once := r.scenery_notMem_action
    choices_iff := by simpa [hmem, isPicture] using hends.exists_choices_iff
    choices_last := fun options hdecision => by
      rw [hdecision] at hends
      obtain ⟨rfl, -, hoptions, hne⟩ := hends.eq_choices
      exact ⟨hoptions, hne, r.pictures, heffects,
        fun others he => Bool.false_ne_true (hpictures he)⟩
    text_iff := by simpa [hmem, isPicture] using hends.exists_text_iff
    text_last := fun hdecision => by
      rw [hdecision] at hends
      obtain rfl := hends.eq_speech
      exact ⟨r.pictures, r.highlight.effects, heffects,
        fun speaker line he => Bool.false_ne_true (hpictures he),
        fun e he => Highlight.isLight_of_mem_effects he,
        fun side hside => r.highlight.filterMap_lit? hside⟩
    portrait_iff := fun side key wait => by
      simpa [hmem, isPicture] using portrait_mem_pictures
    portrait_once := by
      rw [heffects, List.filter_append, List.filter_eq_nil_iff.mpr hportrait, List.append_nil]
      exact r.length_filter_isPortrait_pictures
    portrait_before_text := by
      rw [heffects, List.pairwise_append]
      refine ⟨?pictures, ?last, fun _ _ _ he' _ => by simpa using hportrait _ he'⟩
      case pictures =>
        refine List.pairwise_of_forall_mem_list ?_
        rintro _ he _ _ ⟨speaker, line, rfl⟩
        exact absurd (hpictures he) Bool.false_ne_true
      case last =>
        exact List.pairwise_of_forall_mem_list fun _ _ _ he' _ => by simpa using hportrait _ he'
    awaitReader_iff := hends.awaitReader_iff
    stop_iff := hends.stop_iff
    not_handOver := r.cue_decision_ne_handOver }

end Row

end Dialogue
