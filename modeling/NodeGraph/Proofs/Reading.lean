import Mathlib.Data.List.Forall2
import NodeGraph.Document.Canonical
import NodeGraph.Document.Node

/-!
# Reading what was written

The text of a value never stands alone: it is followed by a comma, by the closing bracket of what it
is part of, or by nothing (`Ended`). A reader reads a text as a value (`Reads`) when it takes
exactly the text off the front of whatever goes on so. A string is read back as it was written; a
list, when its elements are; an object, when each of its members carries the state on (`Carries`).

The loops of the readers walk along a clock. A comma stands before every element and every member
after the first, so the text itself is a clock that is long enough.
-/

namespace NodeGraph.Document

/-! ### Texts -/

/-- The text goes on with a comma or a closing bracket, or not at all. -/
def Ended (text : List Char) : Prop :=
  ∀ c ∈ text.head?, c = ',' ∨ c = ']' ∨ c = '\x7d'

theorem ended_comma (text : List Char) : Ended (',' :: text) := by simp [Ended]

theorem ended_listEnd (text : List Char) : Ended (']' :: text) := by simp [Ended]

theorem ended_objectEnd (text : List Char) : Ended ('\x7d' :: text) := by simp [Ended]

/-- The text starts with a character that is no blank and closes no list. -/
def Opens (text : List Char) : Prop := ∃ c rest, text = c :: rest ∧ isBlank c = false ∧ c ≠ ']'

/-- What follows the first element of a list. -/
def itemsTail : List (List Char) → List Char
  | [] => [']']
  | item :: rest => ',' :: (item ++ itemsTail rest)

/-- A member of an object. -/
def memberText (member : String × List Char) : List Char := stringText member.1 ++ ':' :: member.2

/-- What follows the first member of an object. -/
def membersTail : List (String × List Char) → List Char
  | [] => ['\x7d']
  | member :: rest => ',' :: (memberText member ++ membersTail rest)

theorem intercalate_cons (item : List Char) (items : List (List Char)) :
    [','].intercalate (item :: items) = item ++ (items.map (',' :: ·)).flatten := by
  induction items generalizing item with
  | nil => simp [List.intercalate]
  | cons next items ih =>
    have := ih next
    simp only [List.intercalate, List.intersperse_cons_cons, List.flatten_cons, List.map_cons] at *
    rw [this]
    simp

theorem itemsTail_eq (items : List (List Char)) :
    itemsTail items = (items.map (',' :: ·)).flatten ++ [']'] := by
  induction items with
  | nil => rfl
  | cons item items ih => simp [itemsTail, ih]

theorem membersTail_eq (members : List (String × List Char)) :
    membersTail members = (members.map (',' :: memberText ·)).flatten ++ ['\x7d'] := by
  induction members with
  | nil => rfl
  | cons member members ih => simp [membersTail, ih]

theorem listText_cons (item : List Char) (items : List (List Char)) :
    listText (item :: items) = '[' :: (item ++ itemsTail items) := by
  rw [listText, intercalate_cons, itemsTail_eq]
  simp

theorem objectText_cons (member : String × List Char) (members : List (String × List Char)) :
    objectText (member :: members) = '\x7b' :: (memberText member ++ membersTail members) := by
  rw [objectText, List.map_cons, intercalate_cons, membersTail_eq, List.map_map]
  simp [memberText, Function.comp_def]

theorem ended_itemsTail (items : List (List Char)) (rest : List Char) :
    Ended (itemsTail items ++ rest) := by
  cases items with
  | nil => exact ended_listEnd _
  | cons item items => exact ended_comma _

theorem ended_membersTail (members : List (String × List Char)) (rest : List Char) :
    Ended (membersTail members ++ rest) := by
  cases members with
  | nil => exact ended_objectEnd _
  | cons member members => exact ended_comma _

theorem length_lt_itemsTail (items : List (List Char)) (rest : List Char) :
    items.length < (itemsTail items ++ rest).length := by
  induction items with
  | nil => simp [itemsTail]
  | cons item items ih =>
    simp only [itemsTail, List.cons_append, List.length_cons, List.length_append] at ih ⊢
    omega

theorem length_lt_membersTail (members : List (String × List Char)) (rest : List Char) :
    members.length < (membersTail members ++ rest).length := by
  induction members with
  | nil => simp [membersTail]
  | cons member members ih =>
    simp only [membersTail, List.cons_append, List.length_cons, List.length_append] at ih ⊢
    omega

/-! ### Reading a text -/

theorem skipBlanks_cons {c : Char} (h : isBlank c = false) (text : List Char) :
    skipBlanks (c :: text) = c :: text := by
  simp [skipBlanks, h]

/-- The reader reads a text as a value, whatever the text goes on with. -/
structure Reads {α : Type} (reader : Reader α) (text : List Char) (a : α) : Prop where
  opens : Opens text
  read : ∀ rest, Ended rest → reader (text ++ rest) = .ok (a, rest)

/-- A text that is read is told apart from what follows it. -/
theorem Reads.unique {α : Type} {reader : Reader α} {text text' rest rest' : List Char} {a b : α}
    (h : Reads reader text a) (h' : Reads reader text' b) (ended : Ended rest)
    (ended' : Ended rest') (e : text ++ rest = text' ++ rest') : a = b ∧ rest = rest' := by
  have := (h.read rest ended).symm.trans ((congrArg reader e).trans (h'.read rest' ended'))
  simpa using this

/-! ### Strings -/

theorem hexValue?_hexDigit {n : Nat} (h : n < 16) : hexValue? (Text.hexDigit n) = some n := by
  have all : ∀ n : Fin 16, hexValue? (Text.hexDigit n) = some n.val := by decide
  exact all ⟨n, h⟩

/-- A control is read back from its number. -/
theorem unicodeEscape_hexByte {c : Char} (h : c.toNat < 0x20) (rest : List Char) :
    unicodeEscape ('0' :: '0' :: (Text.hexByte c.toNat ++ rest)) = .ok (c, rest) := by
  have zero : hexValue? '0' = some 0 := rfl
  have high := hexValue?_hexDigit (show c.toNat / 16 < 16 by omega)
  have low := hexValue?_hexDigit (show c.toNat % 16 < 16 by omega)
  have number : ((0 * 16 + 0) * 16 + c.toNat / 16) * 16 + c.toNat % 16 = c.toNat := by omega
  have trailing : isTrailing c.toNat = false := by simp [isTrailing]; omega
  have leading : isLeading c.toNat = false := by simp [isLeading]; omega
  have four : hexFour ('0' :: '0' :: (Text.hexByte c.toNat ++ rest)) = .ok (c.toNat, rest) := by
    simp only [Text.hexByte, List.cons_append, List.nil_append, hexFour, zero, high, low, number]
  unfold unicodeEscape
  rw [four]
  simp [bind, Except.bind, pure, Except.pure, trailing, leading]

/-- A character of a string is read back, whether it was escaped or not. -/
theorem stringStep_stringChar (c : Char) (rest : List Char) :
    stringStep unicodeEscape (stringChar c ++ rest) = .ok (some c, rest) := by
  unfold stringChar
  split
  · rfl
  · rfl
  · rfl
  · rfl
  · rfl
  · rfl
  · rfl
  · rename_i quote backslash _ _ _ _ _
    split
    · rename_i control
      have escape := unicodeEscape_hexByte control rest
      simp only [List.cons_append, List.nil_append, stringStep, escape]
      rfl
    · rename_i plain
      unfold stringStep
      split
      all_goals simp_all

theorem stringWithin_stringChars (cs : List Char) (rest clock : List Char)
    (h : cs.length < clock.length) :
    stringWithin unicodeEscape clock (cs.flatMap stringChar ++ '"' :: rest) = .ok (cs, rest) := by
  induction cs generalizing clock with
  | nil =>
    cases clock with
    | nil => cases h
    | cons _ clock => rfl
  | cons c cs ih =>
    cases clock with
    | nil => cases h
    | cons _ clock =>
      have step := stringStep_stringChar c (cs.flatMap stringChar ++ '"' :: rest)
      have others := ih clock (by simpa using h)
      rw [List.flatMap_cons, List.append_assoc, stringWithin, step]
      simp [bind, Except.bind, others, pure, Except.pure]

theorem length_le_stringChars (cs : List Char) : cs.length ≤ (cs.flatMap stringChar).length := by
  induction cs with
  | nil => exact Nat.le_refl _
  | cons c cs ih =>
    have one : 1 ≤ (stringChar c).length := by
      unfold stringChar
      repeat' split
      all_goals simp
    rw [List.flatMap_cons, List.length_append, List.length_cons]
    omega

/-- A string is read back after its opening quotation mark. -/
theorem string_stringChars (s : String) (rest : List Char) :
    string (s.toList.flatMap stringChar ++ '"' :: rest) = .ok (s, rest) := by
  have long := length_le_stringChars s.toList
  have read := stringWithin_stringChars s.toList rest (s.toList.flatMap stringChar ++ '"' :: rest)
    (by rw [List.length_append, List.length_cons]; omega)
  unfold string
  rw [read]
  simp [bind, Except.bind, pure, Except.pure]

theorem stringText_append (s : String) (rest : List Char) :
    stringText s ++ rest = '"' :: (s.toList.flatMap stringChar ++ '"' :: rest) := by
  simp [stringText]

theorem opens_stringText (s : String) : Opens (stringText s) := ⟨_, _, rfl, rfl, by decide⟩

/-! ### Lists -/

theorem moreItems_itemsTail {α : Type} {item : Reader α} {texts : List (List Char)} {as : List α}
    (h : List.Forall₂ (Reads item) texts as) (rest clock : List Char)
    (long : texts.length < clock.length) :
    moreItems item clock (itemsTail texts ++ rest) = .ok (as, rest) := by
  induction h generalizing clock with
  | nil =>
    cases clock with
    | nil => cases long
    | cons _ clock => rfl
  | @cons text a texts as head _ ih =>
    cases clock with
    | nil => cases long
    | cons _ clock =>
      obtain ⟨c, cs, rfl, blank, notEnd⟩ := head.opens
      have first := head.read (itemsTail texts ++ rest) (ended_itemsTail _ _)
      have others := ih clock (by simpa using long)
      have comma : skipBlanks (itemsTail ((c :: cs) :: texts) ++ rest) =
          ',' :: (c :: cs ++ (itemsTail texts ++ rest)) := by
        simp [itemsTail, skipBlanks_cons (show isBlank ',' = false from rfl)]
      rw [moreItems, comma]
      simp only [List.cons_append, skipBlanks_cons blank] at first ⊢
      split
      · rename_i e; cases e
      · rename_i e
        injection e with e
        exact absurd e notEnd
      · simp [first, others, bind, Except.bind, pure, Except.pure]

/-- A list is read when each of its elements is. -/
theorem Reads.list {α : Type} {item : Reader α} {texts : List (List Char)} {as : List α}
    (h : List.Forall₂ (Reads item) texts as) : Reads (listOf item) (listText texts) as := by
  refine ⟨⟨'[', _, rfl, rfl, by decide⟩, fun rest _ => ?_⟩
  cases h with
  | nil => rfl
  | @cons text a texts as head tail =>
    obtain ⟨c, cs, rfl, blank, notEnd⟩ := head.opens
    have first := head.read (itemsTail texts ++ rest) (ended_itemsTail _ _)
    have others := moreItems_itemsTail tail rest _ (length_lt_itemsTail texts rest)
    rw [listText_cons, List.cons_append, List.append_assoc, listOf,
      skipBlanks_cons (show isBlank '[' = false from rfl)]
    simp only [items]
    simp only [List.cons_append, skipBlanks_cons blank] at first ⊢
    split
    · rename_i e; cases e
    · rename_i e
      injection e with e
      exact absurd e notEnd
    · simp [first, others, bind, Except.bind, pure, Except.pure]

/-! ### Objects -/

/-- The members of an object carry a state on to another one, each from where its colon stands. -/
inductive Carries {σ : Type} (member : σ → String → Reader σ) :
    σ → List (String × List Char) → σ → Prop where
  | nil (state : σ) : Carries member state [] state
  | cons {before between after : σ} {key : String} {text : List Char}
      {members : List (String × List Char)}
      (read : ∀ rest, Ended rest → member before key (':' :: (text ++ rest)) = .ok (between, rest))
      (others : Carries member between members after) :
      Carries member before ((key, text) :: members) after

theorem Carries.append {σ : Type} {member : σ → String → Reader σ} {before between after : σ}
    {texts texts' : List (String × List Char)} (h : Carries member before texts between)
    (h' : Carries member between texts' after) : Carries member before (texts ++ texts') after := by
  induction h with
  | nil => exact h'
  | cons read _ ih => exact .cons read (ih h')

theorem moreMembers_membersTail {σ : Type} {member : σ → String → Reader σ}
    {texts : List (String × List Char)} {before after : σ} (h : Carries member before texts after)
    (rest clock : List Char) (long : texts.length < clock.length) :
    moreMembers member clock before (membersTail texts ++ rest) = .ok (after, rest) := by
  induction h generalizing clock with
  | nil =>
    cases clock with
    | nil => cases long
    | cons _ clock => rfl
  | @cons before between after key text texts read _ ih =>
    cases clock with
    | nil => cases long
    | cons _ clock =>
      have key' := string_stringChars key (':' :: (text ++ (membersTail texts ++ rest)))
      have first := read (membersTail texts ++ rest) (ended_membersTail _ _)
      have others := ih clock (by simpa using long)
      have comma : skipBlanks (membersTail ((key, text) :: texts) ++ rest) =
          ',' :: (stringText key ++ ':' :: (text ++ (membersTail texts ++ rest))) := by
        simp [membersTail, memberText, skipBlanks_cons (show isBlank ',' = false from rfl)]
      rw [moreMembers, comma]
      simp only [stringText_append, skipBlanks_cons (show isBlank '"' = false from rfl), key',
        first, others, bind, Except.bind]

/-- The members of an object are read when they carry the state on. -/
theorem members_objectText {σ : Type} {member : σ → String → Reader σ} {key : String}
    {text : List Char} {texts : List (String × List Char)} {before after : σ}
    (h : Carries member before ((key, text) :: texts) after) (rest : List Char) :
    ∃ inside, objectText ((key, text) :: texts) ++ rest = '\x7b' :: inside ∧
      members member before inside = .ok (after, rest) := by
  refine ⟨memberText (key, text) ++ (membersTail texts ++ rest), ?_, ?_⟩
  · rw [objectText_cons, List.cons_append, List.append_assoc]
  · cases h with
    | cons read others =>
      have key' := string_stringChars key (':' :: (text ++ (membersTail texts ++ rest)))
      have first := read (membersTail texts ++ rest) (ended_membersTail _ _)
      have others' := moreMembers_membersTail others rest _ (length_lt_membersTail texts rest)
      rw [memberText, List.append_assoc, List.cons_append, stringText_append, members,
        skipBlanks_cons (show isBlank '"' = false from rfl)]
      simp only [key', first, others', bind, Except.bind]

theorem colon_cons (text : List Char) : colon (':' :: text) = .ok text := rfl

end NodeGraph.Document
