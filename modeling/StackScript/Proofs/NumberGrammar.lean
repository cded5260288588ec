import StackScript.Proofs.NumeralText

/-!
The texts that are read as numbers, as a grammar: each part of a number by its characters, without the
reader. The words for infinity and for no number are no numbers; a digit tells the two apart.
-/
namespace StackScript
namespace Numeral

structure IsDigits (cs : List Char) : Prop where
  nonempty : cs ≠ []
  digits : ∀ c ∈ cs, c.isDigit = true

def IsSign (cs : List Char) : Prop :=
  cs = [] ∨ cs = ['+'] ∨ cs = ['-']

inductive IsMantissa : List Char → Prop where
  | whole {digits : List Char} (all : IsDigits digits) : IsMantissa digits
  | pointed {whole fraction : List Char} (all : IsDigits (whole ++ fraction)) :
      IsMantissa (whole ++ '.' :: fraction)

inductive IsPower : List Char → Prop where
  | none : IsPower []
  | marked {mark : Char} {sign digits : List Char} (marks : mark = 'e' ∨ mark = 'E')
      (signs : IsSign sign) (all : IsDigits digits) : IsPower (mark :: (sign ++ digits))

inductive IsNumber : List Char → Prop where
  | parts {sign mantissa power : List Char} (signs : IsSign sign) (mantissas : IsMantissa mantissa)
      (powers : IsPower power) : IsNumber (sign ++ (mantissa ++ power))

/-- The words for infinity and for no number, in capitals or not, with a sign or without one. -/
def IsSpecial (cs : List Char) : Prop :=
  ∃ sign word, IsSign sign ∧ cs = sign ++ word ∧
    String.ofList (word.map Char.toLower) ∈ ["inf", "infinity", "nan"]

section Reader

theorem splitSign_sign {sign rest : List Char} (signs : IsSign sign)
    (plain : ∀ c ∈ rest.head?, c ≠ '+' ∧ c ≠ '-') : (splitSign (sign ++ rest)).2 = rest := by
  rcases signs with rfl | rfl | rfl
  · rw [List.nil_append, splitSign_plain plain]
  · rfl
  · rfl

theorem splitSign_join (cs : List Char) :
    ∃ sign, IsSign sign ∧ cs = sign ++ (splitSign cs).2 := by
  unfold splitSign
  split
  · exact ⟨['-'], .inr (.inr rfl), rfl⟩
  · exact ⟨['+'], .inr (.inl rfl), rfl⟩
  · exact ⟨[], .inl rfl, rfl⟩

theorem IsDigits.plain {cs : List Char} (all : IsDigits cs) (rest : List Char) :
    ∀ c ∈ (cs ++ rest).head?, c ≠ '+' ∧ c ≠ '-' :=
  digits_plain all.digits all.nonempty rest

theorem exponent_isSome_iff (cs : List Char) : (exponent? cs).isSome ↔ IsPower cs := by
  cases cs with
  | nil => exact iff_of_true rfl .none
  | cons mark cs =>
    have read : (exponent? (mark :: cs)).isSome ↔ (mark = 'e' ∨ mark = 'E') ∧
        IsDigits (splitSign cs).2 := by
      simp only [exponent?, Option.isSome_ite, Bool.and_eq_true, Bool.or_eq_true, beq_iff_eq,
        Bool.not_eq_true', List.isEmpty_eq_false_iff, List.all_eq_true, and_assoc]
      constructor
      · rintro ⟨marks, nonempty, all⟩
        exact ⟨marks, nonempty, all⟩
      · rintro ⟨marks, all⟩
        exact ⟨marks, all.nonempty, all.digits⟩
    rw [read]
    constructor
    · rintro ⟨marks, all⟩
      obtain ⟨sign, signs, join⟩ := splitSign_join cs
      rw [join]
      exact .marked marks signs all
    · intro power
      cases power with
      | @marked _ sign digits marks signs all =>
        have rest := splitSign_sign signs (by simpa using all.plain [])
        exact ⟨marks, rest.symm ▸ all⟩

variable {negative : Bool} {cs rest tail : List Char}

theorem ofChars_whole (signs : splitSign cs = (negative, rest))
    (plain : ∀ c ∈ (rest.dropWhile Char.isDigit).head?, c ≠ '.') : (ofChars? cs).isSome ↔
      rest.takeWhile Char.isDigit ≠ [] ∧ IsPower (rest.dropWhile Char.isDigit) := by
  rw [← exponent_isSome_iff]
  unfold ofChars?
  simp only [signs]
  split
  · rename_i same
    rw [same] at plain
    exact absurd rfl (plain '.' rfl)
  · simp only [List.isEmpty_nil, Bool.and_true, List.isEmpty_iff]
    split <;> simp_all

theorem ofChars_pointed (signs : splitSign cs = (negative, rest))
    (point : rest.dropWhile Char.isDigit = '.' :: tail) : (ofChars? cs).isSome ↔
      rest.takeWhile Char.isDigit ++ tail.takeWhile Char.isDigit ≠ [] ∧
        IsPower (tail.dropWhile Char.isDigit) := by
  rw [← exponent_isSome_iff]
  unfold ofChars?
  simp only [signs, point, Bool.and_eq_true, List.isEmpty_iff, ne_eq, List.append_eq_nil_iff]
  split <;> simp_all

theorem IsMantissa.plain {mantissa : List Char} (form : IsMantissa mantissa) (rest : List Char) :
    ∀ c ∈ (mantissa ++ rest).head?, c ≠ '+' ∧ c ≠ '-' := by
  cases form with
  | whole all => exact all.plain rest
  | @pointed whole fraction all =>
    rw [List.append_assoc]
    cases whole with
    | nil =>
      rintro c ⟨⟩
      decide
    | cons d whole => exact IsDigits.plain ⟨List.cons_ne_nil d whole,
        fun c member => all.digits c (List.mem_append_left fraction member)⟩ _

theorem IsPower.starts {power : List Char} (form : IsPower power) :
    ∀ c ∈ power.head?, c = 'e' ∨ c = 'E' := by
  cases form with
  | none => exact nofun
  | marked marks =>
    rintro c ⟨⟩
    exact marks

theorem IsPower.no_digit {power : List Char} (form : IsPower power) :
    ∀ c ∈ power.head?, c.isDigit = false := by
  intro c first
  rcases form.starts c first with rfl | rfl <;> decide

theorem IsNumber.of_read (read : (ofChars? cs).isSome) : IsNumber cs := by
  obtain ⟨sign, signs, join⟩ := splitSign_join cs
  have digits (cs : List Char) : ∀ c ∈ cs.takeWhile Char.isDigit, c.isDigit = true :=
    fun c member => List.mem_takeWhile_imp member
  generalize same : splitSign cs = parts at join
  obtain ⟨negative, rest⟩ := parts
  have wholes := List.takeWhile_append_dropWhile (p := Char.isDigit) (l := rest)
  by_cases pointed : ∃ tail, rest.dropWhile Char.isDigit = '.' :: tail
  · obtain ⟨tail, point⟩ := pointed
    obtain ⟨nonempty, power⟩ := (ofChars_pointed same point).mp read
    have fractions := List.takeWhile_append_dropWhile (p := Char.isDigit) (l := tail)
    have mantissa := IsMantissa.pointed
      ⟨nonempty, List.forall_mem_append.mpr ⟨digits rest, digits tail⟩⟩
    have number := IsNumber.parts signs mantissa power
    rwa [List.append_assoc, List.cons_append, fractions, ← point, wholes, ← join] at number
  · have plain : ∀ c ∈ (rest.dropWhile Char.isDigit).head?, c ≠ '.' := by
      rintro c first rfl
      exact pointed (List.head?_eq_some_iff.mp first)
    obtain ⟨nonempty, power⟩ := (ofChars_whole same plain).mp read
    have number := IsNumber.parts signs (.whole ⟨nonempty, digits rest⟩) power
    rwa [wholes, ← join] at number

theorem IsNumber.read (number : IsNumber cs) : (ofChars? cs).isSome := by
  cases number with
  | @parts sign mantissa power signs mantissas powers =>
    have same : splitSign (sign ++ (mantissa ++ power)) = (_, mantissa ++ power) :=
      Prod.ext rfl (splitSign_sign signs (mantissas.plain power))
    -- the digits end where the power begins, whose mark is neither a digit nor a point
    cases mantissas with
    | whole all =>
      obtain ⟨taken, left⟩ := span_digits all.digits power powers.no_digit
      have plain : ∀ c ∈ power.head?, c ≠ '.' := by
        intro c first
        rcases powers.starts c first with rfl | rfl <;> decide
      rw [ofChars_whole same (by rwa [left]), taken, left]
      exact ⟨all.nonempty, powers⟩
    | @pointed whole fraction all =>
      obtain ⟨wholes, fractions⟩ := List.forall_mem_append.mp all.digits
      obtain ⟨taken, left⟩ := span_digits wholes ('.' :: (fraction ++ power)) (by simp)
      obtain ⟨later, right⟩ := span_digits fractions power powers.no_digit
      rw [List.append_assoc, List.cons_append] at same ⊢
      rw [ofChars_pointed same left, taken, later, right]
      exact ⟨all.nonempty, powers⟩

/-- The reader takes the texts of the grammar and no others. -/
theorem ofChars_isSome_iff (cs : List Char) : (ofChars? cs).isSome ↔ IsNumber cs :=
  ⟨IsNumber.of_read, IsNumber.read⟩

end Reader

section Characters

theorem IsSign.no_digit {sign : List Char} (signs : IsSign sign) : ∀ c ∈ sign, c.isDigit = false := by
  rcases signs with rfl | rfl | rfl <;> simp

theorem IsSign.unblank {sign : List Char} (signs : IsSign sign) :
    ∀ c ∈ sign, Text.isBlank c = false := by
  rcases signs with rfl | rfl | rfl <;> simp <;> decide

theorem IsDigits.unblank {cs : List Char} (all : IsDigits cs) : ∀ c ∈ cs, Text.isBlank c = false :=
  fun c member => (numeric_plain (numeric_digits all.digits c member)).1

theorem IsDigits.exists_digit {cs : List Char} (all : IsDigits cs) : ∃ c ∈ cs, c.isDigit = true := by
  obtain ⟨c, cs, rfl⟩ := List.exists_cons_of_ne_nil all.nonempty
  exact ⟨c, List.mem_cons_self .., all.digits c (List.mem_cons_self ..)⟩

theorem IsMantissa.unblank {mantissa : List Char} (form : IsMantissa mantissa) :
    ∀ c ∈ mantissa, Text.isBlank c = false := by
  cases form with
  | whole all => exact all.unblank
  | pointed all =>
    obtain ⟨wholes, fractions⟩ := List.forall_mem_append.mp all.unblank
    exact List.forall_mem_append.mpr ⟨wholes, List.forall_mem_cons.mpr ⟨by decide, fractions⟩⟩

theorem IsMantissa.exists_digit {mantissa : List Char} (form : IsMantissa mantissa) :
    ∃ c ∈ mantissa, c.isDigit = true := by
  cases form with
  | whole all => exact all.exists_digit
  | pointed all =>
    obtain ⟨c, member, digit⟩ := all.exists_digit
    refine ⟨c, ?_, digit⟩
    simp only [List.mem_append, List.mem_cons] at member ⊢
    tauto

theorem IsPower.unblank {power : List Char} (form : IsPower power) :
    ∀ c ∈ power, Text.isBlank c = false := by
  cases form with
  | none => exact nofun
  | marked marks signs all =>
    refine List.forall_mem_cons.mpr ⟨?_, List.forall_mem_append.mpr ⟨signs.unblank, all.unblank⟩⟩
    rcases marks with rfl | rfl <;> decide

theorem IsNumber.unblank {cs : List Char} (number : IsNumber cs) :
    ∀ c ∈ cs, Text.isBlank c = false := by
  cases number with
  | parts signs mantissas powers =>
    exact List.forall_mem_append.mpr
      ⟨signs.unblank, List.forall_mem_append.mpr ⟨mantissas.unblank, powers.unblank⟩⟩

theorem IsNumber.exists_digit {cs : List Char} (number : IsNumber cs) :
    ∃ c ∈ cs, c.isDigit = true := by
  cases number with
  | parts signs mantissas powers =>
    obtain ⟨c, member, digit⟩ := mantissas.exists_digit
    exact ⟨c, List.mem_append_right _ (List.mem_append_left _ member), digit⟩

theorem toLower_digit {c : Char} (digit : c.isDigit = true) : c.toLower = c := by
  have range := digit_range digit
  unfold Char.toLower
  rw [dif_neg]
  rintro ⟨capital, -⟩
  have above : 65 ≤ c.toNat := by simpa [UInt32.le_iff_toNat_le] using capital
  omega

theorem IsSpecial.no_digit {cs : List Char} (special : IsSpecial cs) :
    ∀ c ∈ cs, c.isDigit = false := by
  obtain ⟨sign, word, signs, rfl, named⟩ := special
  refine List.forall_mem_append.mpr ⟨signs.no_digit, fun c member => ?_⟩
  have letters : ∀ name ∈ ["inf", "infinity", "nan"], name.toList.any Char.isDigit = false := by
    decide +kernel
  have none := letters _ named
  rw [String.toList_ofList, List.any_eq_false] at none
  by_contra digit
  rw [Bool.not_eq_false] at digit
  have lowered := List.mem_map_of_mem (f := Char.toLower) member
  rw [toLower_digit digit] at lowered
  exact none c lowered digit

theorem IsSpecial.not_number {cs : List Char} (special : IsSpecial cs) : ¬IsNumber cs := by
  intro number
  obtain ⟨c, member, digit⟩ := number.exists_digit
  cases digit.symm.trans (special.no_digit c member)

end Characters
end Numeral

namespace Text

theorem trim_join (cs : List Char) : ∃ front back, (∀ c ∈ front, isBlank c = true) ∧
    (∀ c ∈ back, isBlank c = true) ∧ cs = front ++ (trim cs ++ back) := by
  have blanks (cs : List Char) : ∀ c ∈ cs.takeWhile isBlank, isBlank c = true :=
    fun c member => List.mem_takeWhile_imp member
  have before := List.takeWhile_append_dropWhile (p := isBlank) (l := cs)
  have behind := List.takeWhile_append_dropWhile (p := isBlank) (l := (cs.dropWhile isBlank).reverse)
  refine ⟨cs.takeWhile isBlank, ((cs.dropWhile isBlank).reverse.takeWhile isBlank).reverse, blanks cs,
    fun c member => blanks _ c (List.mem_reverse.mp member), ?_⟩
  rw [trim, ← List.reverse_append, behind, List.reverse_reverse, before]

end Text

theorem readNumber_isSome_iff (text : String) :
    (readNumber? text).isSome ↔ Numeral.IsNumber (Text.trim text.toList) := by
  rw [readNumber?, Option.isSome_map, Numeral.ofChars_isSome_iff]

theorem readNumber_eq_none_iff (text : String) :
    readNumber? text = none ↔ ¬Numeral.IsNumber (Text.trim text.toList) := by
  rw [← readNumber_isSome_iff, Option.not_isSome_iff_eq_none]

/-- A number is read from its text with blanks before and behind it, and from nothing else. -/
theorem readNumber_written_iff (text : String) :
    (readNumber? text).isSome ↔ ∃ front number back, (∀ c ∈ front, Text.isBlank c = true) ∧
      (∀ c ∈ back, Text.isBlank c = true) ∧ Numeral.IsNumber number ∧
      text.toList = front ++ (number ++ back) := by
  rw [readNumber_isSome_iff]
  constructor
  · intro number
    obtain ⟨front, back, before, behind, join⟩ := Text.trim_join text.toList
    exact ⟨front, _, back, before, behind, number, join⟩
  · rintro ⟨front, number, back, before, behind, form, join⟩
    rwa [join, Text.trim_append before behind form.unblank]

/-- A reader that knows the words for infinity and for no number reads the same numbers if it asks for
a digit first. -/
theorem readNumber_digit_iff (text : String) :
    (readNumber? text).isSome ↔ (∃ c ∈ Text.trim text.toList, c.isDigit = true) ∧
      (Numeral.IsNumber (Text.trim text.toList) ∨ Numeral.IsSpecial (Text.trim text.toList)) := by
  rw [readNumber_isSome_iff]
  constructor
  · intro number
    exact ⟨number.exists_digit, .inl number⟩
  · rintro ⟨⟨c, member, digit⟩, number | special⟩
    · exact number
    · cases digit.symm.trans (special.no_digit c member)

theorem readNumber_special {text : String} (special : Numeral.IsSpecial (Text.trim text.toList)) :
    readNumber? text = none :=
  (readNumber_eq_none_iff text).mpr special.not_number

end StackScript
