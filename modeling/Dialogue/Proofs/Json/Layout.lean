import Dialogue.Proofs.Json.RoundTrip
import Mathlib.Data.List.Chain

/-!
# Texts laid out in any way

A JSON text can be written in many ways: with any separators between its tokens, and with the
characters of its strings as they are or escaped. All of them are read as the same value.

* `Spells` are the ways to write characters between quotes, `Form` those to write a token, and
  `Laid` those to write tokens one after another.
* `Laid.tokens_eq` reads the tokens back, by induction on the layout. An integer ends where it
  should because no other token follows it than one that closes something (`Separated`).
* `Plain.separated` finds this of the tokens of a value, `Plain.ofSymbols_of_laid` reads the value.
-/

namespace Dialogue.Json

open Text

variable {cs ds blanks : List Char} {t : Token} {ts us : List Token} {rest : List Symbol} {j : Json}

/-! ## Ways to write a token -/

/-- A unit of UTF-16 that stands for a character without another one. -/
def IsLone (n : Nat) : Prop :=
  n < 0xD800 ∨ 0xE000 ≤ n

/-- What is written between the quotes of a string, and the characters that it spells. -/
inductive Spells : List Char → List Char → Prop
  | nil : Spells [] []
  | char {c : Char} {ws cs : List Char} (hquote : c ≠ '"') (hslash : c ≠ '\\')
    (hcontrol : ¬ c < ' ') (hrest : Spells ws cs) : Spells (c :: ws) (c :: cs)
  | escape {e c : Char} {ws cs : List Char} (he : (e, c) ∈ escapes) (hrest : Spells ws cs) :
    Spells ('\\' :: e :: ws) (c :: cs)
  | unit {a b c d : Char} {n : Nat} {ws cs : List Char}
    (hn : hexUnit? [some a, some b, some c, some d] = some n) (hlone : IsLone n)
    (hrest : Spells ws cs) : Spells ('\\' :: 'u' :: a :: b :: c :: d :: ws) (Char.ofNat n :: cs)
  | pair {a b c d a' b' c' d' : Char} {m n : Nat} {ws cs : List Char}
    (hm : hexUnit? [some a, some b, some c, some d] = some m)
    (hn : hexUnit? [some a', some b', some c', some d'] = some n)
    (hfirst : 0xD800 ≤ m ∧ m < 0xDC00) (hsecond : 0xDC00 ≤ n ∧ n < 0xE000)
    (hrest : Spells ws cs) :
    Spells ('\\' :: 'u' :: a :: b :: c :: d :: '\\' :: 'u' :: a' :: b' :: c' :: d' :: ws)
      (Char.ofNat (0x10000 + (m - 0xD800) * 0x400 + (n - 0xDC00)) :: cs)

/-- The ways to write a token. -/
inductive Form : Token → List Char → Prop
  | beginArr : Form .beginArr ['[']
  | endArr : Form .endArr [']']
  | beginObj : Form .beginObj ['\x7b']
  | endObj : Form .endObj ['\x7d']
  | colon : Form .colon [':']
  | comma : Form .comma [',']
  | str {ws cs : List Char} (hspells : Spells ws cs) :
    Form (.str (some (String.ofList cs))) ('"' :: (ws ++ ['"']))
  | null : Form (.value .null) "null".toList
  | yes : Form (.value (.bool true)) "true".toList
  | no : Form (.value (.bool false)) "false".toList
  | int (i : Int) : Form (.value (.int i)) (Decimal.ofInt i)

/-- Whether characters are blanks, tabs and line ends. -/
def AllSeparators (cs : List Char) : Prop :=
  ∀ c ∈ cs, isSeparator (some c) = true

/-- Tokens in their order, with any separators in front of each and behind the last. -/
inductive Laid : List Token → List Char → Prop
  | nil {blanks : List Char} (hblanks : AllSeparators blanks) : Laid [] blanks
  | cons {t : Token} {ts : List Token} {blanks form cs : List Char} (hblanks : AllSeparators blanks)
    (hform : Form t form) (hrest : Laid ts cs) : Laid (t :: ts) (blanks ++ (form ++ cs))

theorem allSeparators_nil : AllSeparators [] :=
  fun _ h => absurd h List.not_mem_nil

/-- A token right behind the one before it. -/
theorem Laid.tight {form : List Char} (hform : Form t form) (hrest : Laid ts cs) :
    Laid (t :: ts) (form ++ cs) :=
  .cons allSeparators_nil hform hrest

/-! ## Strings -/

/-- Characters that can stand as they are spell themselves. -/
theorem Spells.plain (h : ∀ c ∈ cs, c ≠ '"' ∧ c ≠ '\\' ∧ ¬ c < ' ') : Spells cs cs := by
  induction cs with
  | nil => exact .nil
  | cons c cs ih =>
    obtain ⟨⟨hquote, hslash, hcontrol⟩, hcs⟩ := List.forall_mem_cons.1 h
    exact .char hquote hslash hcontrol (ih hcs)

theorem Form.plain (s : String) (h : ∀ c ∈ s.toList, c ≠ '"' ∧ c ≠ '\\' ∧ ¬ c < ' ') :
    Form (.str (some s)) ('"' :: (s.toList ++ ['"'])) := by
  have hform := Form.str (Spells.plain h)
  rwa [String.ofList_toList] at hform

/-- Characters are read as they are spelled. -/
theorem Spells.scanText_eq (h : Spells ds cs) (acc : List Char) (rest : List Symbol) :
    scanText (.text acc) (ds.map some ++ rest) = scanText (.text (cs.reverse ++ acc)) rest := by
  induction h generalizing acc with
  | nil => rfl
  | @char c ws cs hquote hslash hcontrol hrest ih =>
    show scanText _ (some c :: (ws.map some ++ rest)) = _
    rw [scanText_char hquote hslash hcontrol, Spelling.char, ih]
    simp
  | @escape e c ws cs he hrest ih =>
    have hescapes : ∀ p ∈ escapes, escapes.lookup p.1 = some p.2 := by decide
    have hlookup : escapes.lookup e = some c := hescapes (e, c) he
    have hu : e ≠ 'u' := by
      rintro rfl
      cases hlookup
    show scanText _ (some '\\' :: some e :: (ws.map some ++ rest)) = _
    rw [scanText_escape hu hlookup, Spelling.char, ih]
    simp
  | @unit a b c d n ws cs hn hlone hrest ih =>
    have hlow : ¬ (0xD800 ≤ n ∧ n < 0xDC00) := by
      unfold IsLone at hlone
      omega
    have hhigh : ¬ (0xDC00 ≤ n ∧ n < 0xE000) := by
      unfold IsLone at hlone
      omega
    show scanText _ (some '\\' :: some 'u' :: some a :: some b :: some c :: some d ::
      (ws.map some ++ rest)) = _
    rw [scanText_unit hn, Spelling.unit, if_neg hlow, if_neg hhigh, ih]
    simp
  | @pair a b c d a' b' c' d' m n ws cs hm hn hfirst hsecond hrest ih =>
    show scanText _ (some '\\' :: some 'u' :: some a :: some b :: some c :: some d :: some '\\' ::
      some 'u' :: some a' :: some b' :: some c' :: some d' :: (ws.map some ++ rest)) = _
    rw [scanText_unit hm, Spelling.unit, if_pos hfirst, scanText_unit hn, Spelling.unit,
      if_pos hsecond, ih]
    simp

theorem Spells.scanToken_eq (h : Spells ds cs) (rest : List Symbol) :
    scanToken (('"' :: (ds ++ ['"'])).map some ++ rest) =
      some (.str (some (String.ofList cs)), rest) := by
  have hread : scanText (.text []) ((ds ++ ['"']).map some ++ rest) =
      some (some (String.ofList cs), rest) := by
    rw [List.map_append, List.append_assoc, h.scanText_eq]
    show scanText _ (some '"' :: rest) = _
    rw [scanText_quote, Spelling.text?, List.append_nil, List.reverse_reverse]
  show scanToken (some '"' :: ((ds ++ ['"']).map some ++ rest)) = _
  rw [scanToken, hread]
  rfl

/-! ## Tokens -/

/-- Whether a token could go on in digits that follow it. -/
def Token.isInt : Token → Bool
  | .value (.int _) => true
  | _ => false

/-- Whether a token ends an item or a member in front of it. -/
def Token.closes : Token → Bool
  | .comma | .endArr | .endObj => true
  | _ => false

/-- A token is read off what it is written as, an integer where it stops. -/
theorem Form.tokens_eq (h : Form t ds) (hstops : t.isInt = true → Stops rest) :
    tokens (ds.map some ++ rest) = (tokens rest).map (t :: ·) := by
  cases h with
  | beginArr | endArr | beginObj | endObj | colon | comma => exact tokens_of_scanToken rfl rfl
  | null | yes | no => exact tokens_of_scanToken rfl rfl
  | str hspells => exact tokens_of_scanToken rfl (hspells.scanToken_eq rest)
  | int i => exact readsAs_ofInt i rest (hstops rfl)

theorem tokens_separators (h : AllSeparators blanks) (rest : List Symbol) :
    tokens (blanks.map some ++ rest) = tokens rest := by
  induction blanks with
  | nil => rfl
  | cons c blanks ih =>
    obtain ⟨hc, hblanks⟩ := List.forall_mem_cons.1 h
    exact (tokens_separator hc _).trans (ih hblanks)

theorem stops_separators (h : AllSeparators blanks) (hrest : Stops rest) :
    Stops (blanks.map some ++ rest) := by
  cases blanks with
  | nil => exact hrest
  | cons c blanks =>
    have hc := h c List.mem_cons_self
    refine stops_cons ?_ _
    simp only [isSeparator, Option.some.injEq, Bool.or_eq_true, decide_eq_true_eq] at hc
    rcases hc with ((rfl | rfl) | rfl) | rfl <;> decide

/-- A number stops in front of separators, and of a token that closes something. -/
theorem Laid.stops (h : Laid ts ds) (hcloses : ∀ t ∈ ts.head?, t.closes = true) :
    Stops (ds.map some) := by
  cases h with
  | nil hblanks => simpa using stops_separators hblanks stops_nil
  | @cons t ts blanks form cs hblanks hform hrest =>
    have ht : t.closes = true := hcloses t rfl
    rw [List.map_append]
    refine stops_separators hblanks ?_
    cases hform with
    | comma | endArr | endObj => exact stops_cons (by decide) _
    | beginArr | beginObj | colon | str | null | yes | no | int => cases ht

/-- Behind an integer stands nothing, or a token that closes something. -/
def Separated (ts : List Token) : Prop :=
  ts.IsChain fun t u => t.isInt = true → u.closes = true

/-- Tokens are read off any layout. -/
theorem Laid.tokens_eq (h : Laid ts ds) (hseparated : Separated ts) :
    tokens (ds.map some) = some ts := by
  induction h with
  | @nil blanks hblanks =>
    have hread := tokens_separators hblanks []
    have hend : tokens [] = some [] := by rw [tokens]
    rwa [List.append_nil, hend] at hread
  | @cons t ts blanks form cs hblanks hform hrest ih =>
    obtain ⟨hnext, hmore⟩ := List.isChain_cons.1 hseparated
    rw [List.map_append, List.map_append, tokens_separators hblanks,
      hform.tokens_eq fun hint => hrest.stops fun u hu => hnext u hu hint, ih hmore]
    rfl

/-! ## Values -/

theorem separated_cons_of_not_int (ht : t.isInt = false) (h : Separated ts) :
    Separated (t :: ts) :=
  List.isChain_cons.2 ⟨fun _ _ hint => absurd (ht.symm.trans hint) Bool.false_ne_true, h⟩

/-- What comes behind a value: nothing, or a token that closes something. -/
def Behind (ts : List Token) : Prop :=
  Separated ts ∧ ∀ t ∈ ts.head?, t.closes = true

theorem behind_nil : Behind [] :=
  ⟨.nil, by simp⟩

theorem behind_cons (hint : t.isInt = false) (hcloses : t.closes = true) (h : Separated ts) :
    Behind (t :: ts) :=
  ⟨separated_cons_of_not_int hint h, by simpa using hcloses⟩

theorem separated_cons_of_behind (t : Token) (h : Behind ts) : Separated (t :: ts) :=
  List.isChain_cons.2 ⟨fun u hu _ => h.2 u hu, h.1⟩

theorem behind_lexemesOfItems {items : List Json}
    (hitems : ∀ item ∈ items, ∀ ts, Behind ts → Separated (lexemes item ++ ts))
    (h : Behind ts) : Behind (lexemesOfItems items ++ ts) := by
  induction items with
  | nil => exact h
  | cons item items ih =>
    obtain ⟨hitem, hitems⟩ := List.forall_mem_cons.1 hitems
    rw [lexemesOfItems, List.cons_append, List.append_assoc]
    exact behind_cons rfl rfl (hitem _ (ih hitems))

theorem separated_lexemesOfMember {m : Option String × Json}
    (hvalue : ∀ ts, Behind ts → Separated (lexemes m.2 ++ ts)) (h : Behind ts) :
    Separated (lexemesOfMember m ++ ts) := by
  obtain ⟨key, value⟩ := m
  exact separated_cons_of_not_int rfl (separated_cons_of_not_int rfl (hvalue ts h))

theorem behind_lexemesOfMembers {members : List (Option String × Json)}
    (hvalues : ∀ m ∈ members, ∀ ts, Behind ts → Separated (lexemes m.2 ++ ts))
    (h : Behind ts) : Behind (lexemesOfMembers members ++ ts) := by
  induction members with
  | nil => exact h
  | cons m members ih =>
    obtain ⟨hvalue, hvalues⟩ := List.forall_mem_cons.1 hvalues
    rw [lexemesOfMembers, List.cons_append, List.append_assoc]
    exact behind_cons rfl rfl (separated_lexemesOfMember hvalue (ih hvalues))

/-- In a value every integer is followed by a token that closes something. -/
theorem Plain.separated (h : j.Plain) (hts : Behind ts) : Separated (lexemes j ++ ts) := by
  induction h generalizing ts with
  | null | bool | int | str => exact separated_cons_of_behind _ hts
  | @arr items hitems ih =>
    have hend : Behind (.endArr :: ts) := behind_cons rfl rfl hts.1
    cases items with
    | nil => exact separated_cons_of_not_int rfl hend.1
    | cons item items =>
      obtain ⟨hitem, hmore⟩ := List.forall_mem_cons.1 ih
      rw [lexemes]
      simp only [List.cons_append, List.append_assoc, List.nil_append]
      exact separated_cons_of_not_int rfl
        (hitem (behind_lexemesOfItems (fun item hitem _ => hmore item hitem) hend))
  | @obj members hkeys hvalues ih =>
    have hend : Behind (.endObj :: ts) := behind_cons rfl rfl hts.1
    cases members with
    | nil => exact separated_cons_of_not_int rfl hend.1
    | cons m members =>
      obtain ⟨hvalue, hmore⟩ := List.forall_mem_cons.1 ih
      rw [lexemes]
      simp only [List.cons_append, List.append_assoc, List.nil_append]
      exact separated_cons_of_not_int rfl (separated_lexemesOfMember (fun _ => hvalue)
        (behind_lexemesOfMembers (fun m hm _ => hmore m hm) hend))

/-- A value is read off any layout of its tokens. -/
theorem Plain.ofSymbols_of_laid (h : j.Plain) (hlaid : Laid (lexemes j) ds) :
    ofSymbols (ds.map some) = some j := by
  have hseparated : Separated (lexemes j) := by
    simpa using h.separated behind_nil
  rw [ofSymbols, hlaid.tokens_eq hseparated, Option.bind_some, h.ofTokens_lexemes]

end Dialogue.Json
