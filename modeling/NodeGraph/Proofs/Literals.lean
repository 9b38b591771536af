import NodeGraph.Lowering.Literal

/-!
# The characters of number literals

However a number is set out, its text is made of digits, letters, points and signs: of the digits of
its shortest decimal and of what the layout puts around them (`Layout.numeral_write`). So a literal
never breaks the line it stands on, and never looks like a call (`Literal.numeral_text`).
-/

namespace NodeGraph

/-- Digits, letters, points and minus signs, the characters of numbers. -/
def isNumeral (c : Char) : Bool := c.isAlphanum || c == '.' || c == '-'

/-- A text of such characters. -/
def Numeral (text : String) : Prop := ∀ c ∈ text.toList, isNumeral c = true

instance (text : String) : Decidable (Numeral text) :=
  List.decidableBAll (fun c => isNumeral c = true) text.toList

@[simp] theorem numeral_append {a b : String} : Numeral (a ++ b) ↔ Numeral a ∧ Numeral b := by
  simp only [Numeral, String.toList_append, List.forall_mem_append]

theorem isNumeral_of_isDigit {c : Char} (h : c.isDigit = true) : isNumeral c = true := by
  simp [isNumeral, Char.isAlphanum, h]

theorem numeral_ofList {cs : List Char} (h : ∀ c ∈ cs, c.isDigit = true) :
    Numeral (String.ofList cs) := by
  intro c hc
  rw [String.toList_ofList] at hc
  exact isNumeral_of_isDigit (h c hc)

theorem numeral_repr (n : Nat) : Numeral n.repr := by
  intro c hc
  rw [Nat.toList_repr] at hc
  exact isNumeral_of_isDigit (Nat.isDigit_of_mem_toDigits (by decide) (by decide) hc)

theorem numeral_intRepr (i : Int) : Numeral i.repr := by
  rw [Int.repr_eq_if]
  split
  · exact numeral_repr _
  · exact numeral_append.mpr ⟨by decide, numeral_repr _⟩

namespace Binary64

theorem numeral_positionalText {wholeSuffix : String} (suffix : Numeral wholeSuffix)
    {digits : List Char} (h : ∀ c ∈ digits, c.isDigit = true) (leading : Int) :
    Numeral (positionalText wholeSuffix digits leading) := by
  have zeros (n : Nat) : ∀ c ∈ List.replicate n '0', c.isDigit = true := by
    intro c hc
    rw [List.eq_of_mem_replicate hc]
    rfl
  unfold positionalText
  split
  · exact numeral_append.mpr
      ⟨by decide, numeral_ofList (List.forall_mem_append.mpr ⟨zeros _, h⟩)⟩
  · simp only
    split
    · exact numeral_append.mpr
        ⟨numeral_ofList (List.forall_mem_append.mpr ⟨h, zeros _⟩), suffix⟩
    · refine numeral_append.mpr ⟨numeral_append.mpr ⟨?_, by decide⟩, ?_⟩
      · exact numeral_ofList fun c hc => h c (List.mem_of_mem_take hc)
      · exact numeral_ofList fun c hc => h c (List.mem_of_mem_drop hc)

theorem numeral_scientificText {exponentSign : String} (sign : Numeral exponentSign)
    {digits : List Char} (h : ∀ c ∈ digits, c.isDigit = true) (leading : Int) :
    Numeral (scientificText exponentSign digits leading) := by
  have front : Numeral (String.ofList (digits.take 1)) :=
    numeral_ofList fun c hc => h c (List.mem_of_mem_take hc)
  have back : Numeral (String.ofList (digits.drop 1)) :=
    numeral_ofList fun c hc => h c (List.mem_of_mem_drop hc)
  have point : Numeral (if digits.length ≤ 1 then "" else ".") := by
    split <;> decide
  have minus : Numeral (if leading < 0 then "-" else exponentSign) := by
    split
    · decide
    · exact sign
  have mark : Numeral "e" := by decide
  simp only [scientificText, numeral_append]
  exact ⟨⟨⟨⟨⟨front, point⟩, back⟩, mark⟩, minus⟩, numeral_repr _⟩

/-- What a layout puts around the digits, and in the place of digits, are numerals. -/
structure Layout.Numerals (layout : Layout) : Prop where
  wholeSuffix : Numeral layout.wholeSuffix
  exponentSign : Numeral layout.exponentSign
  notANumber : Numeral layout.notANumber
  infinite : ∀ negative, Numeral (layout.infinite negative)

theorem Layout.numeral_write {layout : Layout} (h : layout.Numerals) (v : Binary64) :
    Numeral (layout.write v) := by
  have digits (n : Nat) : ∀ c ∈ Nat.toDigits 10 n, c.isDigit = true :=
    fun _ hc => Nat.isDigit_of_mem_toDigits (by decide) (by decide) hc
  have magnitude : Numeral (layout.writeMagnitude v) := by
    unfold Layout.writeMagnitude
    simp only
    split
    · exact numeral_positionalText h.wholeSuffix (digits _) _
    · exact numeral_scientificText h.exponentSign (digits _) _
  unfold Layout.write
  split
  · exact h.notANumber
  · split
    · split
      · exact numeral_append.mpr ⟨by decide, magnitude⟩
      · exact magnitude
    · exact h.infinite _

end Binary64

theorem Listing.numerals_number : Listing.number.Numerals :=
  ⟨by decide, by decide, by decide, by decide⟩

/-- **The text of a literal is a numeral**, in both domains and for every number. -/
theorem Literal.numeral_text (l : Literal) : Numeral l.text := by
  have large : Literal.large.Numerals := ⟨by decide, by decide, by decide, by decide⟩
  unfold Literal.text
  split
  · exact numeral_intRepr _
  · unfold controlText
    split
    · exact Binary64.Layout.numeral_write large _
    · split
      · have sign : Numeral (if l.value.isNegative then "-" else "") := by
          split <;> decide
        exact numeral_append.mpr ⟨numeral_append.mpr ⟨sign, numeral_repr _⟩, by decide⟩
      · exact Binary64.Layout.numeral_write Listing.numerals_number _

end NodeGraph
