import StackScript.Proofs.NumberGrammar

/-!
The two forms in which finite numbers are printed, told by their characters, and which numbers have
which. Numbers that are not finite are printed as words, and no word is read as a number. That the
digits are the shortest ones is not said here.
-/
namespace StackScript
namespace Numeral

inductive HasPoint : List Char → Prop where
  | written (negative : Bool) {whole fraction : List Char} (wholes : IsDigits whole)
      (fractions : IsDigits fraction) : HasPoint (sign negative ++ (whole ++ '.' :: fraction))

/-- One digit with a power of ten, whose sign is always written and which has two digits or more.
Behind the first digit there may be a point with more digits. -/
inductive HasPower : List Char → Prop where
  | written (negative : Bool) {first plus : Char} {fraction power : List Char}
      (digit : first.isDigit = true)
      (pointed : fraction = [] ∨ ∃ digits, IsDigits digits ∧ fraction = '.' :: digits)
      (signed : plus = '+' ∨ plus = '-') (powers : IsDigits power) (width : 2 ≤ power.length) :
      HasPower (sign negative ++ first :: (fraction ++ 'e' :: plus :: power))

theorem IsDigits.toDigits (n : Nat) : IsDigits (Nat.toDigits 10 n) :=
  ⟨Nat.toDigits_ne_nil, isDigit_toDigits n⟩

theorem IsDigits.append_left {cs : List Char} (front : IsDigits cs) {more : List Char}
    (all : ∀ c ∈ more, c.isDigit = true) : IsDigits (cs ++ more) :=
  ⟨List.append_ne_nil_of_left_ne_nil front.nonempty more,
    List.forall_mem_append.mpr ⟨front.digits, all⟩⟩

theorem IsDigits.append_right {cs : List Char} (back : IsDigits cs) {more : List Char}
    (all : ∀ c ∈ more, c.isDigit = true) : IsDigits (more ++ cs) :=
  ⟨List.append_ne_nil_of_right_ne_nil more back.nonempty,
    List.forall_mem_append.mpr ⟨all, back.digits⟩⟩

theorem IsDigits.zero : IsDigits ['0'] :=
  ⟨nofun, isDigit_zeros 1⟩

theorem positional_form (negative : Bool) (value : Decimal) :
    HasPoint (sign negative ++ positional value) := by
  have digits : IsDigits value.digitChars := .toDigits value.digits
  simp only [positional]
  split
  · exact .written negative .zero (digits.append_right (isDigit_zeros _))
  · split
    · exact .written negative (digits.append_left (isDigit_zeros _)) .zero
    · have whole : IsDigits (value.digitChars.take value.point.toNat) := by
        refine ⟨?_, fun c member => digits.digits c (List.mem_of_mem_take member)⟩
        simp only [ne_eq, List.take_eq_nil_iff, digits.nonempty, or_false]
        omega
      have fraction : IsDigits (value.digitChars.drop value.point.toNat) := by
        refine ⟨?_, fun c member => digits.digits c (List.mem_of_mem_drop member)⟩
        simp only [ne_eq, List.drop_eq_nil_iff]
        omega
      exact .written negative whole fraction

def lead (value : Decimal) : List Char :=
  value.digitChars.take 1 ++ match value.digitChars.drop 1 with
    | [] => []
    | digits => '.' :: digits

def powerChars (value : Decimal) : List Char :=
  Nat.toDigits 10 (value.point - 1).natAbs

theorem scientific_eq (style : Style) (value : Decimal) : scientific style value =
    lead value ++ 'e' :: ((if value.point - 1 < 0 then ['-'] else style.plus) ++
      (List.replicate (style.exponentWidth - (powerChars value).length) '0' ++ powerChars value)) := by
  have regroup (first fraction sign zeros power : List Char) :
      first ++ fraction ++ 'e' :: sign ++ zeros ++ power =
        (first ++ fraction) ++ 'e' :: (sign ++ (zeros ++ power)) := by
    simp only [List.append_assoc, List.cons_append]
  exact regroup _ _ _ _ _

theorem lead_form (value : Decimal) : ∃ first fraction, first.isDigit = true ∧
    (fraction = [] ∨ ∃ digits, IsDigits digits ∧ fraction = '.' :: digits) ∧
    lead value = first :: fraction := by
  obtain ⟨first, rest, split⟩ := List.exists_cons_of_ne_nil (IsDigits.toDigits value.digits).nonempty
  obtain ⟨digit, digits⟩ := List.forall_mem_cons.mp (split ▸ isDigit_toDigits value.digits)
  have chars : value.digitChars = first :: rest := split
  rw [lead, chars]
  cases rest with
  | nil => exact ⟨first, [], digit, .inl rfl, rfl⟩
  | cons second rest =>
    exact ⟨first, '.' :: second :: rest, digit, .inr ⟨_, ⟨List.cons_ne_nil second rest, digits⟩, rfl⟩, rfl⟩

theorem scientific_form (negative : Bool) (value : Decimal) :
    HasPower (sign negative ++ scientific printed value) := by
  have powers : IsDigits (powerChars value) := .toDigits _
  have width : 2 ≤ (List.replicate (2 - (powerChars value).length) '0' ++ powerChars value).length := by
    rw [List.length_append, List.length_replicate]
    omega
  obtain ⟨first, fraction, digit, pointed, lead⟩ := lead_form value
  rw [scientific_eq, lead]
  split
  · exact .written negative digit pointed (.inr rfl) (powers.append_right (isDigit_zeros _)) width
  · exact .written negative digit pointed (.inl rfl) (powers.append_right (isDigit_zeros _)) width

theorem IsDigits.no_mark {cs : List Char} (all : IsDigits cs) : 'e' ∉ cs := fun member =>
  absurd (all.digits 'e' member) (by decide)

theorem HasPoint.no_mark {cs : List Char} (point : HasPoint cs) : 'e' ∉ cs := by
  cases point with
  | written negative wholes fractions =>
    cases negative <;> simp [sign, wholes.no_mark, fractions.no_mark]

theorem HasPower.mark {cs : List Char} (power : HasPower cs) : 'e' ∈ cs := by
  cases power
  simp

theorem lead_no_mark (value : Decimal) : 'e' ∉ lead value := by
  obtain ⟨first, fraction, digit, pointed, lead⟩ := lead_form value
  have other : 'e' ≠ first := by
    rintro rfl
    cases digit
  rcases pointed with rfl | ⟨digits, all, rfl⟩
  · simp [lead, other]
  · simp [lead, other, all.no_mark]

def fillPower (cs : List Char) : List Char :=
  let filled (digits : List Char) := List.replicate (2 - digits.length) '0' ++ digits
  cs.takeWhile (· != 'e') ++ 'e' :: match (cs.dropWhile (· != 'e')).drop 1 with
    | '-' :: digits => '-' :: filled digits
    | digits => '+' :: filled digits

theorem fillPower_append {front : List Char} (plain : 'e' ∉ front) (power : List Char) :
    fillPower (front ++ 'e' :: power) =
      front ++ 'e' :: match power with
        | '-' :: digits => '-' :: (List.replicate (2 - digits.length) '0' ++ digits)
        | digits => '+' :: (List.replicate (2 - digits.length) '0' ++ digits) := by
  have others : ∀ c ∈ front, (c != 'e') = true := fun c member =>
    bne_iff_ne.mpr fun same => plain (same ▸ member)
  have taken : ('e' :: power).takeWhile (· != 'e') = [] := by simp
  have rest : (('e' :: power).dropWhile (· != 'e')).drop 1 = power := by simp
  simp only [fillPower, List.takeWhile_append_of_pos others, List.dropWhile_append_of_pos others,
    taken, rest, List.append_nil]

/-- The printed form with a power of ten comes from the listed one, where the sign of a power is left
out unless it is negative. -/
theorem scientific_filled (negative : Bool) (value : Decimal) :
    fillPower (sign negative ++ scientific listed value) =
      sign negative ++ scientific printed value := by
  have powers : IsDigits (powerChars value) := .toDigits _
  have plain : 'e' ∉ sign negative ++ lead value := by
    cases negative <;> simp [sign, lead_no_mark]
  obtain ⟨c, cs, chars⟩ := List.exists_cons_of_ne_nil powers.nonempty
  have digit : c.isDigit = true := powers.digits c (chars ▸ List.mem_cons_self ..)
  have unfilled : List.replicate (listed.exponentWidth - (powerChars value).length) '0' = [] := by
    rw [chars, List.length_cons, listed, Nat.sub_eq_zero_of_le (Nat.le_add_left 1 _)]
    rfl
  rw [scientific_eq, scientific_eq, ← List.append_assoc, fillPower_append plain, unfilled,
    List.append_assoc, List.nil_append]
  by_cases below : value.point - 1 < 0
  · simp only [below, ↓reduceIte, printed, List.cons_append, List.nil_append]
  · -- without a sign the power begins with a digit
    simp only [below, ↓reduceIte, listed, printed, List.cons_append, List.nil_append, chars]
    split
    · rename_i same
      obtain ⟨rfl, -⟩ := List.cons.inj same
      cases digit
    · rfl

theorem printed_form {x : Float} (finite : x.isFinite = true) : (printNumber x).toList =
    if isPositional x then (write listed x).toList else fillPower (write listed x).toList := by
  rw [Binary64.isFinite_iff] at finite
  rw [printNumber, write_finite finite, write_finite finite]
  split
  · rfl
  · exact (scientific_filled _ _).symm

theorem isPositional_iff (x : Float) : isPositional x = true ↔
    x == 0.0 ∨ (1e-4 ≤ x.abs ∧ x.abs < 1e16) := by
  simp [isPositional]

theorem printed_cases {x : Float} (finite : x.isFinite = true) :
    if isPositional x then HasPoint (printNumber x).toList else HasPower (printNumber x).toList := by
  rw [Binary64.isFinite_iff] at finite
  rw [printNumber, write_finite finite]
  split
  · exact positional_form _ _
  · exact scientific_form _ _

theorem printed_infinite {x : Float} (infinite : x.isFinite = false) :
    printNumber x ∈ ["nan", "inf", "-inf"] := by
  have outside : ¬Binary64.magnitude x < Binary64.infinity := by
    rw [← Binary64.isFinite_iff, infinite]
    decide
  unfold printNumber write
  by_cases greater : Binary64.infinity < Binary64.magnitude x
  · simp [greater, printed]
  · have same : Binary64.magnitude x = Binary64.infinity := by omega
    cases Binary64.isNegative x <;> simp [same]

end Numeral

theorem readNumber_words : ∀ word ∈ ["nan", "inf", "-inf"], readNumber? word = none := by
  decide +kernel

/-- A finite number is read back from what is printed for it, bit by bit. Zero and the numbers from a
ten-thousandth up to ten to the sixteenth are printed with a point and without a power of ten, all
others with a power, for which the listed form is taken apart. What is printed for infinities and for
no number is not read as a number. -/
theorem printed_numbers_read_back (x : Float) :
    (x.isFinite = true →
      readNumber? (printNumber x) = some x ∧
      (Numeral.HasPoint (printNumber x).toList ↔ x == 0.0 ∨ (1e-4 ≤ x.abs ∧ x.abs < 1e16)) ∧
      (Numeral.HasPower (printNumber x).toList ↔ ¬(x == 0.0 ∨ (1e-4 ≤ x.abs ∧ x.abs < 1e16))) ∧
      (printNumber x).toList =
        if Numeral.isPositional x then (Numeral.write Numeral.listed x).toList
        else Numeral.fillPower (Numeral.write Numeral.listed x).toList) ∧
      (x.isFinite = false →
        printNumber x ∈ ["nan", "inf", "-inf"] ∧ readNumber? (printNumber x) = none) := by
  constructor
  · intro finite
    have form := Numeral.printed_cases finite
    rw [← Numeral.isPositional_iff]
    refine ⟨readNumber_write (.inr rfl) finite, ?_, ?_, Numeral.printed_form finite⟩
    · split at form
      · exact iff_of_true form ‹_›
      · exact iff_of_false (fun point => point.no_mark form.mark) ‹_›
    · split at form
      · exact iff_of_false (fun power => form.no_mark power.mark) (not_not_intro ‹_›)
      · exact iff_of_true form ‹_›
  · intro infinite
    have word := Numeral.printed_infinite infinite
    exact ⟨word, readNumber_words _ word⟩

/-- A small negative number, and what is left of a number beyond the greatest one. -/
theorem printed_numbers_read_back_small :
    (-0.00000015 : Float).isFinite = true ∧ printNumber (-0.00000015) = "-1.5e-07" ∧
      readNumber? (printNumber (-0.00000015)) = some (-0.00000015) ∧
      Numeral.HasPower (printNumber (-0.00000015)).toList ∧
      (1.0 / 0.0 : Float).isFinite = false ∧ readNumber? (printNumber (1.0 / 0.0)) = none := by
  have finite : (-0.00000015 : Float).isFinite = true := by decide +kernel
  have infinite : (1.0 / 0.0 : Float).isFinite = false := by decide +kernel
  obtain ⟨again, -, power, -⟩ := (printed_numbers_read_back (-0.00000015)).1 finite
  have small : ¬((-0.00000015 : Float) == 0.0 ∨
      (1e-4 ≤ (-0.00000015 : Float).abs ∧ (-0.00000015 : Float).abs < 1e16)) := by decide +kernel
  exact ⟨finite, by decide +kernel, again, power.mpr small, infinite,
    ((printed_numbers_read_back (1.0 / 0.0)).2 infinite).2⟩

end StackScript
