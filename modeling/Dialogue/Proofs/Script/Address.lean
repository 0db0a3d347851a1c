import Dialogue.Proofs.Text.Pattern
import Dialogue.Script.Address

/-!
# The texts of an address

Which texts are read as an address, and as which one.

* `Address.Shaped` are the texts without blanks around them that have the form of an address: one
  number, or two with a point between them. `Address.takes_pattern_iff`: with blanks, these are the
  texts that the pattern takes, and `Address.Shaped.splitOn_eq` is what its groups take of them.
* `Address.Spelled` are those of them whose numbers fit 32 bits. `Address.Written` adds the blanks.
* `Address.ofChars?_eq_some_iff` and `Address.ofText_eq_ok_iff`: nothing else is an address.
* `Address.spelled_text`: what is written for an address is one of its texts.
* `Address.ofText_grammar` joins them.
-/

namespace Dialogue

open Text

namespace Address

variable {cs : List Char} {gs : List (List Char)} {c : Char} {a b : Address} {s : String}

/-! ## The form of an address -/

/-- A text without blanks around it that has the form of an address, and its numbers. -/
inductive Shaped : List Char → List (List Char) → Prop
  | scene {scene : List Char} (hscene : Pattern.Takes .signed scene []) : Shaped scene [scene]
  | branch {scene branch : List Char} (hscene : Pattern.Takes .signed scene [])
    (hbranch : Pattern.Takes .signed branch []) : Shaped (scene ++ '.' :: branch) [scene, branch]

theorem takes_pattern_iff : pattern.Takes cs gs ↔ ∃ before word after,
    cs = before ++ (word ++ after) ∧ allBlank before = true ∧ allBlank after = true ∧
      Shaped word gs := by
  constructor
  · intro h
    simp only [pattern, Pattern.takes_seq_iff, Pattern.takes_group_iff, Pattern.takes_optional_iff,
      Pattern.takes_char_iff, Pattern.takes_many_iff] at h
    obtain ⟨before, _, _, _, ⟨hbefore, rfl⟩, ⟨scene, _, _, _, ⟨hs, hscene, rfl⟩,
      ⟨rest, _, after, _, hrest, ⟨hafter, rfl⟩, rfl, rfl⟩, rfl, rfl⟩, rfl, rfl⟩ := h
    obtain ⟨_, rfl⟩ := Pattern.takes_signed_iff.1 hscene
    rcases hrest with ⟨_, _, _, _, ⟨rfl, rfl⟩, ⟨js, hbranch, rfl⟩, rfl, rfl⟩ | ⟨rfl, rfl⟩
    · obtain ⟨_, rfl⟩ := Pattern.takes_signed_iff.1 hbranch
      refine ⟨before, _, after, ?_, List.all_eq_true.2 hbefore, List.all_eq_true.2 hafter,
        .branch hscene hbranch⟩
      simp
    · exact ⟨before, scene, after, rfl, List.all_eq_true.2 hbefore, List.all_eq_true.2 hafter,
        .scene hscene⟩
  · rintro ⟨before, word, after, rfl, hbefore, hafter, hword⟩
    have hbefore := Pattern.Takes.many (List.all_eq_true.1 hbefore)
    have hafter := Pattern.Takes.many (List.all_eq_true.1 hafter)
    cases hword with
    | scene hscene =>
      have htakes : pattern.Takes (before ++ (word ++ ([] ++ after)))
          ([] ++ ([word] ++ ([] ++ []))) :=
        .seq hbefore (.seq (.group hscene)
          (.seq (Pattern.takes_optional_iff.2 (Or.inr ⟨rfl, rfl⟩)) hafter))
      exact htakes
    | @branch scene branch hscene hbranch =>
      have hpoint := Pattern.Takes.seq (Pattern.takes_char '.') (.group hbranch)
      have htakes : pattern.Takes (before ++ (scene ++ (['.'] ++ branch ++ after)))
          ([] ++ ([scene] ++ ([] ++ [branch] ++ []))) :=
        .seq hbefore (.seq (.group hscene)
          (.seq (Pattern.takes_optional_iff.2 (Or.inl hpoint)) hafter))
      rw [List.append_assoc scene]
      exact htakes

namespace Shaped

/-- The point between two numbers is in neither of them, so it tells which they are. -/
theorem splitOn_eq (h : Shaped cs gs) : cs.splitOn '.' = gs := by
  have hpoint : ∀ {number : List Char}, Pattern.Takes .signed number [] → '.' ∉ number :=
    fun hnumber => Pattern.notMem_of_signed hnumber (by decide) (by decide)
  have hjoin : ['.'].intercalate gs = cs ∧ (∀ number ∈ gs, '.' ∉ number) ∧ gs ≠ [] := by
    cases h with
    | scene hscene => simpa using hpoint hscene
    | branch hscene hbranch => simpa using ⟨hpoint hscene, hpoint hbranch⟩
  rw [← hjoin.1]
  exact List.splitOn_intercalate '.' hjoin.2.1 hjoin.2.2

theorem isBlank_eq_false (h : Shaped cs gs) (hc : c ∈ cs) : isBlank c = false := by
  cases h with
  | scene hscene => exact Pattern.isBlank_of_signed hscene hc
  | branch hscene hbranch =>
    rcases List.mem_append.1 hc with hc | hc
    · exact Pattern.isBlank_of_signed hscene hc
    · rcases List.mem_cons.1 hc with rfl | hc
      · decide
      · exact Pattern.isBlank_of_signed hbranch hc

theorem trim_eq {before word after : List Char} (h : Shaped word gs)
    (hbefore : allBlank before = true) (hafter : allBlank after = true) :
    trim (before ++ (word ++ after)) = word := by
  rw [trim_blank_append hbefore, trim_append_blank _ hafter]
  exact Decimal.trim_of_not_blank fun _ => h.isBlank_eq_false

/-- Of a text with the form of an address, the match has the numbers. -/
theorem captures?_eq {before word after : List Char} (h : Shaped word gs)
    (hbefore : allBlank before = true) (hafter : allBlank after = true) :
    pattern.captures? (before ++ (word ++ after)) = some gs := by
  apply Pattern.captures?_of_unique
  · exact takes_pattern_iff.2 ⟨before, word, after, rfl, hbefore, hafter, h⟩
  · intro hs hs'
    obtain ⟨before', word', after', heq, hbefore', hafter', h'⟩ := takes_pattern_iff.1 hs'
    have hword : word = word' := by
      rw [← h.trim_eq hbefore hafter, heq, h'.trim_eq hbefore' hafter']
    subst hword
    rw [← h.splitOn_eq, ← h'.splitOn_eq]

end Shaped

/-! ## Addresses without blanks -/

/-- The texts of an address without blanks around them. -/
inductive Spelled : List Char → Address → Prop
  | scene {cs : List Char} {scene : Int32} (hscene : Decimal.Denotes cs scene.toInt) :
    Spelled cs ⟨scene, 0⟩
  | branch {cs ds : List Char} {scene branch : Int32} (hscene : Decimal.Denotes cs scene.toInt)
    (hbranch : Decimal.Denotes ds branch.toInt) : Spelled (cs ++ '.' :: ds) ⟨scene, branch⟩

theorem spelled_text (a : Address) : Spelled a.text.toList a := by
  have htext : a.text.toList =
      Decimal.ofInt a.scene.toInt ++ '.' :: Decimal.ofInt a.branch.toInt := by
    simp [text, Decimal.text]
  rw [htext]
  exact .branch (Decimal.signed32?_eq_some_iff.1 (Decimal.signed32?_ofInt a.scene))
    (Decimal.signed32?_eq_some_iff.1 (Decimal.signed32?_ofInt a.branch))

/-! ## Addresses with blanks -/

/-- A text is written for an address: blanks, one of its texts, and blanks. -/
def Written (s : String) (a : Address) : Prop :=
  ∃ before cs after, s.toList = before ++ (cs ++ after) ∧ allBlank before = true ∧
    allBlank after = true ∧ Spelled cs a

/-- The reader of addresses takes exactly the texts of the grammar, each for its address. -/
theorem ofChars?_eq_some_iff : ofChars? cs = some a ↔ ∃ before word after,
    cs = before ++ (word ++ after) ∧ allBlank before = true ∧ allBlank after = true ∧
      Spelled word a := by
  constructor
  · intro h
    unfold ofChars? at h
    split at h
    · rename_i scene hcaptures
      obtain ⟨n, hn, rfl⟩ := Option.map_eq_some_iff.1 h
      obtain ⟨before, word, after, hcs, hbefore, hafter, hword⟩ :=
        takes_pattern_iff.1 (Pattern.takes_of_captures? hcaptures)
      cases hword
      exact ⟨before, scene, after, hcs, hbefore, hafter,
        .scene (Decimal.signed32?_eq_some_iff.1 hn)⟩
    · rename_i scene branch hcaptures
      obtain ⟨m, hm, h⟩ := Option.bind_eq_some_iff.1 h
      obtain ⟨n, hn, h⟩ := Option.bind_eq_some_iff.1 h
      cases h
      obtain ⟨before, word, after, hcs, hbefore, hafter, hword⟩ :=
        takes_pattern_iff.1 (Pattern.takes_of_captures? hcaptures)
      cases hword
      exact ⟨before, _, after, hcs, hbefore, hafter,
        .branch (Decimal.signed32?_eq_some_iff.1 hm) (Decimal.signed32?_eq_some_iff.1 hn)⟩
    · cases h
  · rintro ⟨before, word, after, rfl, hbefore, hafter, hword⟩
    cases hword with
    | scene hscene =>
      have hshaped := Shaped.scene (Pattern.takes_signed_of_denotes hscene)
      rw [ofChars?, hshaped.captures?_eq hbefore hafter]
      dsimp only
      rw [Decimal.signed32?_eq_some_iff.2 hscene, Option.map_some]
    | branch hscene hbranch =>
      have hshaped := Shaped.branch (Pattern.takes_signed_of_denotes hscene)
        (Pattern.takes_signed_of_denotes hbranch)
      rw [ofChars?, hshaped.captures?_eq hbefore hafter]
      dsimp only
      rw [Decimal.signed32?_eq_some_iff.2 hscene, Decimal.signed32?_eq_some_iff.2 hbranch]
      rfl

theorem ofText_eq_ok_iff : ofText s = .ok a ↔ Written s a := by
  rw [Written, ← ofChars?_eq_some_iff, ofText]
  cases ofChars? s.toList <;> simp

/-- What is no address is refused with its text. -/
theorem ofText_eq_error_iff {e : BadAddress} :
    ofText s = .error e ↔ (∀ a, ¬ Written s a) ∧ e = ⟨s⟩ := by
  constructor
  · intro h
    refine ⟨fun a ha => ?_, ?_⟩
    · rw [ofText_eq_ok_iff.2 ha] at h
      cases h
    · unfold ofText at h
      split at h
      · cases h
      · cases h
        rfl
  · rintro ⟨hnone, rfl⟩
    cases hread : ofChars? s.toList with
    | some a => exact absurd (ofChars?_eq_some_iff.1 hread) (hnone a)
    | none => rw [ofText, hread]

/-- A text is an address exactly if it is one number, or two numbers with a point between them, with
blanks around them: the scene and the branch, which is `0` where it is left out. Every other text is
refused with the text itself. What is written for an address is read as that address, whatever
blanks are around it, and differs from what is written for any other. -/
theorem ofText_grammar :
    (∀ s a, ofText s = .ok a ↔ Written s a) ∧
      (∀ s e, ofText s = .error e ↔ (∀ a, ¬ Written s a) ∧ e = ⟨s⟩) ∧
      (∀ a before after, allBlank before = true → allBlank after = true →
        ofText (String.ofList (before ++ (a.text.toList ++ after))) = .ok a) ∧
      ∀ a b : Address, a.text = b.text → a = b := by
  have hwritten : ∀ (a : Address) (before after : List Char), allBlank before = true →
      allBlank after = true → ofText (String.ofList (before ++ (a.text.toList ++ after))) = .ok a := by
    intro a before after hbefore hafter
    rw [ofText_eq_ok_iff]
    exact ⟨before, a.text.toList, after, String.toList_ofList, hbefore, hafter, spelled_text a⟩
  refine ⟨fun s a => ofText_eq_ok_iff, fun s e => ofText_eq_error_iff, hwritten, ?_⟩
  intro a b htext
  have ha := hwritten a [] [] rfl rfl
  have hb := hwritten b [] [] rfl rfl
  rw [htext, hb] at ha
  cases ha
  rfl

/-- Leading zeros, a minus in front of zero, the least number of 32 bits and blanks of other scripts
are read; a number that is too large and digits of another script are not. -/
theorem ofText_grammar_edges :
    Written "\u3000007.-0\t" ⟨7, 0⟩ ∧ Written " -2147483648" ⟨-2147483648, 0⟩ ∧
      (∀ a, ¬ Written "2147483648.1" a) ∧ (∀ a, ¬ Written "٣.1" a) ∧ (∀ a, ¬ Written "1." a) ∧
      ofText (String.ofList ("\u2003".toList ++ ((⟨-3, 12⟩ : Address).text.toList ++ "\n".toList))) =
        .ok ⟨-3, 12⟩ :=
  ⟨(ofText_grammar.1 _ _).1 (by decide +kernel), (ofText_grammar.1 _ _).1 (by decide +kernel),
    ((ofText_grammar.2.1 "2147483648.1" ⟨"2147483648.1"⟩).1 (by decide +kernel)).1,
    ((ofText_grammar.2.1 "٣.1" ⟨"٣.1"⟩).1 (by decide +kernel)).1,
    ((ofText_grammar.2.1 "1." ⟨"1."⟩).1 (by decide +kernel)).1,
    ofText_grammar.2.2.1 _ _ _ (by decide) (by decide)⟩

end Address

end Dialogue
