import Dialogue.Json.Reader
import Dialogue.Proofs.Json.Tokens

/-!
# Printed values read back

A value that is printed is read as itself, whatever its depth and its size.

* `Plain` are the values that can be printed: every key spells characters, and there is no value
  without a use.
* `lexemes` are the tokens of a value. `Plain.readsAs` finds them in the printed value, and
  `Plain.foldlM_read` reads the value from them; both are inductions on `Plain`, with the items of
  a list and the members of an object gone through one by one.
* `Plain.ofText_pretty` joins them.
-/

namespace Dialogue.Json

open Text

/-- A value of which a printed text tells all. -/
inductive Plain : Json → Prop
  | null : Plain .null
  | bool (value : Bool) : Plain (.bool value)
  | int (value : Int) : Plain (.int value)
  | str (value : String) : Plain (.str value)
  | arr {items : List Json} (hitems : ∀ item ∈ items, Plain item) : Plain (.arr items)
  | obj {members : List (Option String × Json)} (hkeys : ∀ m ∈ members, m.1.isSome)
      (hvalues : ∀ m ∈ members, Plain m.2) : Plain (.obj members)

mutual

/-- The tokens of a value. -/
def lexemes : Json → List Token
  | str s => [.str (some s)]
  | arr [] => [.beginArr, .endArr]
  | arr (item :: items) => .beginArr :: (lexemes item ++ (lexemesOfItems items ++ [.endArr]))
  | obj [] => [.beginObj, .endObj]
  | obj (member :: members) =>
    .beginObj :: (lexemesOfMember member ++ (lexemesOfMembers members ++ [.endObj]))
  | j => [.value j]

/-- The tokens of the items behind the first one. -/
def lexemesOfItems : List Json → List Token
  | [] => []
  | item :: items => .comma :: (lexemes item ++ lexemesOfItems items)

/-- The tokens of the members behind the first one. -/
def lexemesOfMembers : List (Option String × Json) → List Token
  | [] => []
  | member :: members => .comma :: (lexemesOfMember member ++ lexemesOfMembers members)

def lexemesOfMember : Option String × Json → List Token
  | (key, value) => .str (some (key.getD "")) :: .colon :: lexemes value

end

/-! ## Tokens of a printed value -/

/-- These characters are read as these tokens in front of anything at which a number stops. -/
def ReadsAs (cs : List Char) (ts : List Token) : Prop :=
  ∀ rest, Stops rest → tokens (cs.map some ++ rest) = (tokens rest).map (ts ++ ·)

/-- A number stops at these characters, or behind them if there are none. -/
def Halts (cs : List Char) : Prop :=
  ∀ rest, Stops rest → Stops (cs.map some ++ rest)

variable {cs ds : List Char} {ts us : List Token} {c : Char}

theorem halts_nil : Halts [] :=
  fun _ h => h

theorem halts_cons (hc : isAsciiDigit c = false ∧ c ≠ '.' ∧ c ≠ 'e' ∧ c ≠ 'E') (cs : List Char) :
    Halts (c :: cs) :=
  fun _ _ => stops_cons hc _

theorem readsAs_nil : ReadsAs [] [] := by
  intro rest _
  show tokens rest = (tokens rest).map fun ts => ts
  rw [Option.map_id']

theorem ReadsAs.append (hcs : ReadsAs cs ts) (hds : ReadsAs ds us) (hhalts : Halts ds) :
    ReadsAs (cs ++ ds) (ts ++ us) := by
  intro rest hrest
  rw [List.map_append, List.append_assoc, hcs _ (hhalts rest hrest), hds rest hrest,
    Option.map_map]
  simp only [Function.comp_def, List.append_assoc]

/-- A token that ends with its last character, whatever follows. -/
theorem ReadsAs.cons {t : Token} (hc : isSeparator (some c) = false)
    (ht : ∀ rest, scanToken (some c :: rest) = some (t, rest)) (hcs : ReadsAs cs ts) :
    ReadsAs (c :: cs) (t :: ts) := by
  intro rest hrest
  show tokens (some c :: (cs.map some ++ rest)) = _
  rw [tokens_of_scanToken hc (ht _), hcs rest hrest, Option.map_map]
  rfl

theorem ReadsAs.separator (hc : isSeparator (some c) = true) (hcs : ReadsAs cs ts) :
    ReadsAs (c :: cs) ts := by
  intro rest hrest
  show tokens (some c :: (cs.map some ++ rest)) = _
  rw [tokens_separator hc, hcs rest hrest]

theorem ReadsAs.newLine (depth : Nat) (hcs : ReadsAs cs ts) :
    ReadsAs (newLine depth ++ cs) ts := by
  intro rest hrest
  rw [List.map_append, List.append_assoc, tokens_newLine, hcs rest hrest]

/-- One token, the first character of which is no separator. -/
theorem readsAs_singleton {t : Token} (hc : isSeparator (some c) = false)
    (ht : ∀ rest, Stops rest → scanToken ((c :: cs).map some ++ rest) = some (t, rest)) :
    ReadsAs (c :: cs) [t] := by
  intro rest hrest
  exact tokens_of_scanToken hc (ht rest hrest)

theorem readsAs_quotedText (s : String) : ReadsAs (quotedText s) [.str (some s)] :=
  readsAs_singleton rfl fun rest _ => scanToken_quotedText s rest

theorem readsAs_ofInt (i : Int) : ReadsAs (Decimal.ofInt i) [.value (.int i)] := by
  cases hcs : Decimal.ofInt i with
  | nil => exact absurd hcs (Decimal.ofInt_ne_nil i)
  | cons c cs =>
    refine readsAs_singleton ?_ fun rest hrest => ?_
    · rcases Decimal.mem_ofInt (hcs ▸ List.mem_cons_self) with rfl | hdigit
      · rfl
      · simp only [isSeparator, Option.some.injEq, Bool.or_eq_false_iff, decide_eq_false_iff_not]
        refine ⟨⟨⟨?_, ?_⟩, ?_⟩, ?_⟩ <;> exact Decimal.ne_of_isAsciiDigit hdigit rfl
    · rw [← hcs]
      exact scanToken_ofInt i hrest

theorem halts_newLine (depth : Nat) (cs : List Char) : Halts (newLine depth ++ cs) :=
  halts_cons (by decide) _

theorem halts_printItems (depth : Nat) (items : List Json) (hcs : Halts cs) :
    Halts (printItems depth items ++ cs) := by
  cases items with
  | nil => exact hcs
  | cons item items => exact halts_cons (by decide) _

theorem halts_printMembers (depth : Nat) (members : List (Option String × Json)) (hcs : Halts cs) :
    Halts (printMembers depth members ++ cs) := by
  cases members with
  | nil => exact hcs
  | cons member members => exact halts_cons (by decide) _

/-- The items behind the first one, each on a line of its own. -/
theorem readsAs_printItems {items : List Json}
    (hitems : ∀ item ∈ items, ∀ depth, ReadsAs (print depth item) (lexemes item)) (depth : Nat) :
    ReadsAs (printItems depth items) (lexemesOfItems items) := by
  induction items with
  | nil => exact readsAs_nil
  | cons item items ih =>
    obtain ⟨hitem, hitems⟩ := List.forall_mem_cons.1 hitems
    have hhalts : Halts (printItems depth items) := by
      simpa using halts_printItems depth items halts_nil
    have hrest := (hitem depth).append (ih hitems) hhalts
    simpa only [printItems, lexemesOfItems, List.append_assoc, List.cons_append]
      using (hrest.newLine depth).cons (c := ',') rfl fun _ => rfl

theorem readsAs_printMember (key : Option String) {value : Json}
    (hvalue : ∀ depth, ReadsAs (print depth value) (lexemes value)) (depth : Nat) :
    ReadsAs (printMember depth (key, value)) (lexemesOfMember (key, value)) := by
  have hcolon : ReadsAs (':' :: ' ' :: print depth value) (.colon :: lexemes value) :=
    ((hvalue depth).separator rfl).cons rfl fun _ => rfl
  have hmember := (readsAs_quotedText (key.getD "")).append hcolon (halts_cons (by decide) _)
  simpa only [printMember, lexemesOfMember, List.append_assoc, List.cons_append, List.nil_append]
    using hmember

theorem readsAs_printMembers {members : List (Option String × Json)}
    (hvalues : ∀ m ∈ members, ∀ depth, ReadsAs (print depth m.2) (lexemes m.2)) (depth : Nat) :
    ReadsAs (printMembers depth members) (lexemesOfMembers members) := by
  induction members with
  | nil => exact readsAs_nil
  | cons member members ih =>
    obtain ⟨hvalue, hvalues⟩ := List.forall_mem_cons.1 hvalues
    have hhalts : Halts (printMembers depth members) := by
      simpa using halts_printMembers depth members halts_nil
    have hrest := (readsAs_printMember member.1 hvalue depth).append (ih hvalues) hhalts
    simpa only [printMembers, lexemesOfMembers, List.append_assoc, List.cons_append]
      using (hrest.newLine depth).cons (c := ',') rfl fun _ => rfl

/-- A printed value is read as its tokens. -/
theorem Plain.readsAs {j : Json} (h : j.Plain) (depth : Nat) :
    ReadsAs (print depth j) (lexemes j) := by
  induction h generalizing depth with
  | null => exact readsAs_singleton rfl fun _ _ => rfl
  | bool value => cases value <;> exact readsAs_singleton rfl fun _ _ => rfl
  | int value => exact readsAs_ofInt value
  | str value => exact readsAs_quotedText value
  | @arr items hitems ih =>
    have hend : ReadsAs [']'] [.endArr] := readsAs_nil.cons rfl fun _ => rfl
    cases items with
    | nil => exact hend.cons rfl fun _ => rfl
    | cons item items =>
      obtain ⟨hitem, hmore⟩ := List.forall_mem_cons.1 ih
      have hclose := hend.newLine depth
      have hitems := (readsAs_printItems hmore (depth + 1)).append hclose (halts_newLine depth _)
      have hall := (hitem (depth + 1)).append hitems
        (halts_printItems (depth + 1) items (halts_newLine depth _))
      simpa only [print, lexemes, List.append_assoc, List.cons_append]
        using (hall.newLine (depth + 1)).cons (c := '[') rfl fun _ => rfl
  | @obj members hkeys hvalues ih =>
    have hend : ReadsAs ['\x7d'] [.endObj] := readsAs_nil.cons rfl fun _ => rfl
    cases members with
    | nil => exact hend.cons rfl fun _ => rfl
    | cons member members =>
      obtain ⟨hvalue, hmore⟩ := List.forall_mem_cons.1 ih
      have hclose := hend.newLine depth
      have hmembers := (readsAs_printMembers hmore (depth + 1)).append hclose
        (halts_newLine depth _)
      have hmember := readsAs_printMember member.1 hvalue (depth + 1)
      have hall := hmember.append hmembers
        (halts_printMembers (depth + 1) members (halts_newLine depth _))
      simpa only [print, lexemes, List.append_assoc, List.cons_append]
        using (hall.newLine (depth + 1)).cons (c := '\x7b') rfl fun _ => rfl

/-! ## The value of its tokens -/

variable {opened : List Open}

/-- No value begins with the end of a list. -/
theorem lexemes_eq_cons (j : Json) : ∃ t ts, lexemes j = t :: ts ∧ t ≠ .endArr := by
  cases j with
  | null | bool | int | str | other => exact ⟨_, _, rfl, by simp⟩
  | arr items => cases items <;> exact ⟨_, _, rfl, by simp⟩
  | obj members => cases members <;> exact ⟨_, _, rfl, by simp⟩

theorem read_firstItem {t : Token} (ht : t ≠ .endArr) (opened : List Open) :
    Due.read (.firstItem opened) t = Due.read (.value (.arr [] :: opened)) t := by
  cases t with
  | endArr => exact absurd rfl ht
  | beginArr | beginObj | endObj | colon | comma | str | value => rfl

/-- The first item of a list is read as any value is. -/
theorem foldlM_firstItem (j : Json) (opened : List Open) :
    (lexemes j).foldlM Due.read (.firstItem opened) =
      (lexemes j).foldlM Due.read (.value (.arr [] :: opened)) := by
  obtain ⟨t, ts, hcons, ht⟩ := lexemes_eq_cons j
  rw [hcons, List.foldlM_cons, List.foldlM_cons, read_firstItem ht]

theorem foldlM_lexemesOfItems {items : List Json}
    (hitems : ∀ item ∈ items, ∀ opened,
      (lexemes item).foldlM Due.read (.value opened) = some (.after item opened))
    (v : Json) (before : List Json) (opened : List Open) :
    (lexemesOfItems items ++ [Token.endArr]).foldlM Due.read (.after v (.arr before :: opened)) =
      some (.after (.arr ((v :: before).reverse ++ items)) opened) := by
  induction items generalizing v before with
  | nil =>
    rw [List.append_nil]
    rfl
  | cons item items ih =>
    obtain ⟨hitem, hitems⟩ := List.forall_mem_cons.1 hitems
    have hread := ih hitems item (v :: before)
    rw [lexemesOfItems, List.cons_append, List.append_assoc, List.foldlM_cons]
    show ((lexemes item ++ (lexemesOfItems items ++ [Token.endArr])).foldlM Due.read
      (.value (.arr (v :: before) :: opened))) = _
    rw [List.foldlM_append, hitem, Option.bind_eq_bind, Option.bind_some, hread]
    simp

theorem foldlM_lexemesOfMembers {members : List (Option String × Json)}
    (hkeys : ∀ m ∈ members, m.1.isSome)
    (hvalues : ∀ m ∈ members, ∀ opened,
      (lexemes m.2).foldlM Due.read (.value opened) = some (.after m.2 opened))
    (key : Option String) (v : Json) (before : List (Option String × Json)) (opened : List Open) :
    (lexemesOfMembers members ++ [Token.endObj]).foldlM Due.read (.after v (.obj before key :: opened)) =
      some (.after (.obj (((key, v) :: before).reverse ++ members)) opened) := by
  induction members generalizing key v before with
  | nil =>
    rw [List.append_nil]
    rfl
  | cons member members ih =>
    obtain ⟨k, value⟩ := member
    obtain ⟨hkey, hmoreKeys⟩ := List.forall_mem_cons.1 hkeys
    obtain ⟨hvalue, hmore⟩ := List.forall_mem_cons.1 hvalues
    obtain ⟨k', hk⟩ := Option.isSome_iff_exists.1 hkey
    obtain rfl : k = some k' := hk
    have hread := ih hmoreKeys hmore (some k') value ((key, v) :: before)
    rw [lexemesOfMembers, lexemesOfMember, List.cons_append, List.append_assoc]
    show ((lexemes value ++ (lexemesOfMembers members ++ [Token.endObj])).foldlM Due.read
      (.value (.obj ((key, v) :: before) (some k') :: opened))) = _
    rw [List.foldlM_append, hvalue, Option.bind_eq_bind, Option.bind_some, hread]
    simp

/-- The tokens of a value are read as that value, in any list or object. -/
theorem Plain.foldlM_read {j : Json} (h : j.Plain) (opened : List Open) :
    (lexemes j).foldlM Due.read (.value opened) = some (.after j opened) := by
  induction h generalizing opened with
  | null | bool | int | str => rfl
  | @arr items hitems ih =>
    cases items with
    | nil => rfl
    | cons item items =>
      obtain ⟨hitem, hmore⟩ := List.forall_mem_cons.1 ih
      rw [lexemes]
      show ((lexemes item ++ (lexemesOfItems items ++ [Token.endArr])).foldlM Due.read
        (.firstItem opened)) = _
      rw [List.foldlM_append, foldlM_firstItem, hitem, Option.bind_eq_bind, Option.bind_some,
        foldlM_lexemesOfItems hmore]
      rfl
  | @obj members hkeys hvalues ih =>
    cases members with
    | nil => rfl
    | cons member members =>
      obtain ⟨key, value⟩ := member
      obtain ⟨hkey, hmoreKeys⟩ := List.forall_mem_cons.1 hkeys
      obtain ⟨hvalue, hmore⟩ := List.forall_mem_cons.1 ih
      obtain ⟨key, rfl⟩ := Option.isSome_iff_exists.1 hkey
      rw [lexemes, lexemesOfMember]
      show ((lexemes value ++ (lexemesOfMembers members ++ [Token.endObj])).foldlM Due.read
        (.value (.obj [] (some key) :: opened))) = _
      rw [List.foldlM_append, hvalue, Option.bind_eq_bind, Option.bind_some,
        foldlM_lexemesOfMembers hmoreKeys hmore]
      rfl

theorem Plain.ofTokens_lexemes {j : Json} (h : j.Plain) : ofTokens (lexemes j) = some j := by
  rw [ofTokens, h.foldlM_read]
  rfl

/-- A printed value is read as itself. -/
theorem Plain.ofText_pretty {j : Json} (h : j.Plain) : ofText j.pretty = some j := by
  have hread := h.readsAs 0 [] stops_nil
  have hend : tokens [] = some [] := by rw [tokens]
  rw [List.append_nil, hend, Option.map_some, List.append_nil] at hread
  rw [ofText, pretty, String.toList_ofList, ofSymbols, hread, Option.bind_some, h.ofTokens_lexemes]

end Dialogue.Json
