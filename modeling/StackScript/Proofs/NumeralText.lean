import Mathlib
import StackScript.Numeral
import StackScript.Proofs.ShortestDecimal

/-!
Numbers as text: whatever is written for a finite number is read back as that number, in the
positional form and in the other, with and without a sign before the exponent.
-/
namespace StackScript

open Float.Model (Format UnpackedFloat)

theorem Binary64.isFinite_iff (x : Float) : x.isFinite = true ↔ magnitude x < infinity := by
  have range : magnitude x < infinity ↔ ¬x.toBits.toNat / 2 ^ 52 % 2 ^ 11 = 2047 := by
    unfold magnitude infinity signBit
    omega
  have exponent : @UnpackedFloat.unpackExponent Format.binary64 x.toBits.toBitVec = -1#11 ↔
      x.toBits.toNat / 2 ^ 52 % 2 ^ 11 = 2047 := by
    rw [← BitVec.toNat_inj]
    simp [UnpackedFloat.unpackExponent, Nat.shiftRight_eq_div_pow]
  rw [range, ← exponent]
  change (UnpackedFloat.unpack Format.binary64 x.toBits.toBitVec).isFinite = true ↔ _
  unfold UnpackedFloat.unpack
  by_cases full : @UnpackedFloat.unpackExponent Format.binary64 x.toBits.toBitVec = -1#11
  · simp only [full, ↓reduceIte, not_true_eq_false, iff_false, Bool.not_eq_true]
    split <;> rfl
  · simp only [full, ↓reduceIte, not_false_eq_true, iff_true]
    split
    · split <;> rfl
    · rfl

theorem Binary64.ofMagnitude_magnitude (x : Float) : ofMagnitude (isNegative x) (magnitude x) = x := by
  have bound : x.toBits.toNat < 2 * signBit := x.toBits.toNat_lt
  have bits : (if isNegative x then signBit + magnitude x else magnitude x) = x.toBits.toNat := by
    simp only [isNegative, magnitude, decide_eq_true_eq]
    unfold signBit at *
    split <;> omega
  rw [ofMagnitude, bits, UInt64.ofNat_toNat, Float.ofBits_toBits]

namespace Numeral

section Digits

theorem digitsValue_append (first second : List Char) : digitsValue (first ++ second) =
    digitsValue first * 10 ^ second.length + digitsValue second := by
  have joined : digitsValue (first ++ second) = Nat.ofDigitChars 10 second (digitsValue first) :=
    Nat.ofDigitChars_append 0
  rw [joined, Nat.ofDigitChars_eq_ofDigitChars_zero, Nat.mul_comm]
  rfl

theorem digitsValue_zeros (count : Nat) : digitsValue (List.replicate count '0') = 0 := by
  induction count with
  | zero => rfl
  | succ count ih => exact ih

theorem digitsValue_toDigits (n : Nat) : digitsValue (Nat.toDigits 10 n) = n :=
  Nat.ofDigitChars_ten_toDigits

theorem digitsValue_leading (zeros : Nat) (digits : List Char) :
    digitsValue (List.replicate zeros '0' ++ digits) = digitsValue digits := by
  rw [digitsValue_append, digitsValue_zeros, Nat.zero_mul, Nat.zero_add]

theorem digitsValue_trailing (zeros : Nat) (digits : List Char) :
    digitsValue (digits ++ List.replicate zeros '0') = digitsValue digits * 10 ^ zeros := by
  rw [digitsValue_append, digitsValue_zeros, List.length_replicate, Nat.add_zero]

theorem isDigit_zeros (count : Nat) : ∀ c ∈ List.replicate count '0', c.isDigit = true := by
  intro c member
  rw [List.eq_of_mem_replicate member]
  decide

theorem isDigit_toDigits (n : Nat) : ∀ c ∈ Nat.toDigits 10 n, c.isDigit = true :=
  fun _ => Nat.isDigit_of_mem_toDigits (by decide) (by decide)

theorem digit_range {c : Char} (digit : c.isDigit = true) : 48 ≤ c.toNat ∧ c.toNat ≤ 57 := by
  simpa [Char.isDigit, UInt32.le_iff_toNat_le] using digit

theorem span_digits {digits : List Char} (all : ∀ c ∈ digits, c.isDigit = true) (rest : List Char)
    (ends : ∀ c ∈ rest.head?, c.isDigit = false) :
    (digits ++ rest).takeWhile Char.isDigit = digits ∧
      (digits ++ rest).dropWhile Char.isDigit = rest := by
  rw [List.takeWhile_append_of_pos all, List.dropWhile_append_of_pos all]
  cases rest with
  | nil => simp
  | cons c rest => simp [ends c rfl]

end Digits

def sign (negative : Bool) : List Char :=
  if negative then ['-'] else []

theorem splitSign_plain {cs : List Char} (plain : ∀ c ∈ cs.head?, c ≠ '+' ∧ c ≠ '-') :
    splitSign cs = (false, cs) := by
  unfold splitSign
  split
  · exact absurd rfl (plain '-' rfl).2
  · exact absurd rfl (plain '+' rfl).1
  · rfl

theorem digits_plain {digits : List Char} (all : ∀ c ∈ digits, c.isDigit = true)
    (some : digits ≠ []) (rest : List Char) :
    ∀ c ∈ (digits ++ rest).head?, c ≠ '+' ∧ c ≠ '-' := by
  obtain ⟨d, digits, rfl⟩ := List.exists_cons_of_ne_nil some
  have digit := all d (List.mem_cons_self ..)
  rintro c ⟨⟩
  constructor
  · rintro rfl
    cases digit
  · rintro rfl
    cases digit

theorem splitSign_digits {digits before : List Char} {negative : Bool}
    (all : ∀ c ∈ digits, c.isDigit = true) (some : digits ≠ [])
    (signs : before = sign negative ∨ before = ['+'] ∧ negative = false) (rest : List Char) :
    splitSign (before ++ (digits ++ rest)) = (negative, digits ++ rest) := by
  rcases signs with rfl | ⟨rfl, rfl⟩
  · cases negative with
    | true => rfl
    | false => exact splitSign_plain (digits_plain all some rest)
  · rfl

/-- A number is read in its parts. What follows the digits is nothing, or the power of ten. -/
theorem ofChars_parts (negative : Bool) {whole fraction point power : List Char} {exponent : Int}
    (wholes : ∀ c ∈ whole, c.isDigit = true) (some : whole ≠ [])
    (fractions : ∀ c ∈ fraction, c.isDigit = true) (powers : ∀ c ∈ power.head?, c = 'e')
    (read : exponent? power = .some exponent)
    (pointed : point = '.' :: fraction ∨ point = [] ∧ fraction = []) :
    ofChars? (sign negative ++ (whole ++ (point ++ power))) =
      .some ⟨negative, whole, fraction, exponent⟩ := by
  have ends : ∀ c ∈ power.head?, c.isDigit = false := by
    intro c first
    rw [powers c first]
    decide
  have first := splitSign_digits wholes some (.inl (Eq.refl (sign negative))) (point ++ power)
  have nonempty : whole.isEmpty = false := by simpa using some
  unfold ofChars?
  rw [first]
  rcases pointed with rfl | ⟨rfl, rfl⟩
  · obtain ⟨taken, left⟩ := span_digits wholes ('.' :: (fraction ++ power)) (by simp)
    obtain ⟨later, rest⟩ := span_digits fractions power ends
    simp only [List.cons_append, taken, left, later, rest, nonempty, read, Bool.false_and,
      Bool.false_eq_true, ↓reduceIte, Option.map_some]
  · obtain ⟨taken, left⟩ := span_digits wholes power ends
    simp only [List.nil_append, taken, left]
    cases power with
    | nil =>
      simp only [nonempty, read, Bool.false_and, Bool.false_eq_true, ↓reduceIte, Option.map_some]
    | cons c power =>
      cases powers c rfl
      simp only [nonempty, Bool.false_and, Bool.false_eq_true, ↓reduceIte]
      change Option.map _ (exponent? ('e' :: power)) = _
      rw [read]
      rfl

theorem exponent_written {plus : List Char} (plain : plus = [] ∨ plus = ['+']) (exponent : Int)
    (zeros : Nat) : exponent? ('e' :: ((if exponent < 0 then ['-'] else plus) ++
      (List.replicate zeros '0' ++ Nat.toDigits 10 exponent.natAbs))) = some exponent := by
  have all := List.forall_mem_append.mpr ⟨isDigit_zeros zeros, isDigit_toDigits exponent.natAbs⟩
  have some : List.replicate zeros '0' ++ Nat.toDigits 10 exponent.natAbs ≠ [] :=
    List.append_ne_nil_of_right_ne_nil _ Nat.toDigits_ne_nil
  have signs : (if exponent < 0 then ['-'] else plus) = sign (exponent < 0) ∨
      (if exponent < 0 then ['-'] else plus) = ['+'] ∧ decide (exponent < 0) = false := by
    by_cases below : exponent < 0
    · simp [sign, below]
    · simpa [sign, below] using plain
  have split := splitSign_digits all some signs []
  rw [List.append_nil] at split
  have nonempty := List.isEmpty_eq_false_iff.mpr some
  simp only [exponent?, split, nonempty, List.all_eq_true.mpr all, digitsValue_leading,
    digitsValue_toDigits, decide_eq_true_eq]
  simp only [BEq.rfl, Bool.true_or, Bool.not_false, Bool.and_self, ↓reduceIte, Option.some.injEq]
  split_ifs <;> omega

def Reads (text : List Char) (negative : Bool) (magnitude : Nat) : Prop :=
  ∃ numeral, ofChars? text = some numeral ∧ numeral.negative = negative ∧
    numeral.decimal.magnitude = magnitude

theorem reads_decimal {text : List Char} {numeral : Numeral} {value : Decimal}
    (read : ofChars? text = some numeral) (zeros : Nat)
    (digits : digitsValue (numeral.whole ++ numeral.fraction) = value.digits * 10 ^ zeros)
    (exponent : numeral.exponent - numeral.fraction.length = value.exponent - zeros) :
    Reads text numeral.negative value.magnitude := by
  refine ⟨numeral, read, rfl, ?_⟩
  rw [decimal, digits, exponent]
  exact Decimal.magnitude_zeros value.digits value.exponent zeros

theorem positional_reads (negative : Bool) (value : Decimal) :
    Reads (sign negative ++ positional value) negative value.magnitude := by
  have some : value.digitChars ≠ [] := Nat.toDigits_ne_nil
  have digits : ∀ c ∈ value.digitChars, c.isDigit = true := isDigit_toDigits value.digits
  have meant : digitsValue value.digitChars = value.digits := digitsValue_toDigits value.digits
  have point : value.point = value.digitChars.length + value.exponent := rfl
  have nothing : exponent? [] = .some 0 := rfl
  simp only [positional]
  split
  · -- all digits stand behind the point
    have fraction := List.forall_mem_append.mpr ⟨isDigit_zeros (-value.point).toNat, digits⟩
    have read := ofChars_parts negative (isDigit_zeros 1) (by decide) fraction (by simp) nothing
      (.inl rfl)
    rw [List.append_nil] at read
    refine reads_decimal read 0 ?_ ?_
    · refine (digitsValue_leading 1 _).trans ((digitsValue_leading _ _).trans ?_)
      rw [meant, pow_zero, mul_one]
    · simp only [List.length_append, List.length_replicate]
      omega
  · split
    · -- all digits stand before the point, with zeros up to it
      have whole := List.forall_mem_append.mpr
        ⟨digits, isDigit_zeros (value.point.toNat - value.digitChars.length)⟩
      have read := ofChars_parts negative whole (List.append_ne_nil_of_left_ne_nil some _)
        (isDigit_zeros 1) (by simp) nothing (.inl rfl)
      refine reads_decimal read (value.point.toNat - value.digitChars.length + 1) ?_ ?_
      · rw [List.append_assoc, List.replicate_append_replicate, digitsValue_trailing, meant]
      · simp only [List.length_replicate]
        omega
    · -- the point stands among the digits
      have length : (value.digitChars.drop value.point.toNat).length =
        value.digitChars.length - value.point.toNat := List.length_drop
      have whole : ∀ c ∈ value.digitChars.take value.point.toNat, c.isDigit = true :=
        fun c member => digits c (List.mem_of_mem_take member)
      have fraction : ∀ c ∈ value.digitChars.drop value.point.toNat, c.isDigit = true :=
        fun c member => digits c (List.mem_of_mem_drop member)
      have first : value.digitChars.take value.point.toNat ≠ [] := by
        simp only [ne_eq, List.take_eq_nil_iff, some, or_false]
        omega
      have read := ofChars_parts negative whole first fraction (by simp) nothing (.inl rfl)
      rw [List.append_nil] at read
      refine reads_decimal read 0 ?_ ?_
      · rw [List.take_append_drop, meant, pow_zero, mul_one]
      · simp only [length]
        omega

theorem scientific_reads {style : Style} (plain : style.plus = [] ∨ style.plus = ['+'])
    (negative : Bool) (value : Decimal) :
    Reads (sign negative ++ scientific style value) negative value.magnitude := by
  have some : value.digitChars ≠ [] := Nat.toDigits_ne_nil
  have digits : ∀ c ∈ value.digitChars, c.isDigit = true := isDigit_toDigits value.digits
  have meant : digitsValue value.digitChars = value.digits := digitsValue_toDigits value.digits
  have point : value.point = value.digitChars.length + value.exponent := rfl
  have whole : ∀ c ∈ value.digitChars.take 1, c.isDigit = true :=
    fun c member => digits c (List.mem_of_mem_take member)
  have fraction : ∀ c ∈ value.digitChars.drop 1, c.isDigit = true :=
    fun c member => digits c (List.mem_of_mem_drop member)
  have first : value.digitChars.take 1 ≠ [] := by
    simp [some]
  have length : (value.digitChars.drop 1).length = value.digitChars.length - 1 := List.length_drop
  have positive : 0 < value.digitChars.length := List.length_pos_of_ne_nil some
  have power := exponent_written plain (value.point - 1)
    (style.exponentWidth - (Nat.toDigits 10 (value.point - 1).natAbs).length)
  simp only [scientific, List.append_assoc, List.cons_append]
  refine reads_decimal (ofChars_parts negative whole first fraction (by simp) power ?_) 0 ?_ ?_
  · -- the point stands before the rest of the digits, if there is any
    generalize value.digitChars.drop 1 = rest
    cases rest with
    | nil => exact .inr ⟨rfl, rfl⟩
    | cons => exact .inl rfl
  · rw [List.take_append_drop, meant, pow_zero, mul_one]
  · simp only [length]
    omega

def isNumeric (c : Char) : Bool :=
  c.isDigit || c == '-' || c == '+' || c == '.' || c == 'e'

theorem numeric_plain {c : Char} (numeric : isNumeric c = true) :
    Text.isBlank c = false ∧ c ≠ '"' ∧ c ≠ '\'' ∧ c ≠ '/' := by
  simp only [isNumeric, Bool.or_eq_true, beq_iff_eq] at numeric
  rcases numeric with (((digit | rfl) | rfl) | rfl) | rfl
  · have range := digit_range digit
    refine ⟨?_, ?_, ?_, ?_⟩
    · simp only [Text.isBlank, Bool.or_eq_false_iff, Bool.and_eq_false_iff, beq_eq_false_iff_ne,
        decide_eq_false_iff_not]
      omega
    · rintro rfl
      exact absurd range (by decide)
    · rintro rfl
      exact absurd range (by decide)
    · rintro rfl
      exact absurd range (by decide)
  all_goals decide

theorem numeric_digits {digits : List Char} (all : ∀ c ∈ digits, c.isDigit = true) :
    ∀ c ∈ digits, isNumeric c = true := by
  intro c member
  simp [isNumeric, all c member]

theorem positional_numeric (value : Decimal) : ∀ c ∈ positional value, isNumeric c = true := by
  have digits : ∀ c ∈ value.digitChars, isNumeric c = true :=
    numeric_digits (isDigit_toDigits value.digits)
  have zeros (count : Nat) := numeric_digits (isDigit_zeros count)
  simp only [positional]
  split
  · refine List.forall_mem_append.mpr ⟨?_, digits⟩
    exact List.forall_mem_cons.mpr ⟨rfl, List.forall_mem_cons.mpr ⟨rfl, zeros _⟩⟩
  · split
    · exact List.forall_mem_append.mpr
        ⟨List.forall_mem_append.mpr ⟨digits, zeros _⟩, by simp [isNumeric]⟩
    · refine List.forall_mem_append.mpr ⟨fun c member => digits c (List.mem_of_mem_take member), ?_⟩
      exact List.forall_mem_cons.mpr ⟨rfl, fun c member => digits c (List.mem_of_mem_drop member)⟩

theorem scientific_numeric {style : Style} (plain : style.plus = [] ∨ style.plus = ['+'])
    (value : Decimal) : ∀ c ∈ scientific style value, isNumeric c = true := by
  have digits : ∀ c ∈ value.digitChars, isNumeric c = true :=
    numeric_digits (isDigit_toDigits value.digits)
  have power := numeric_digits (isDigit_toDigits (value.point - 1).natAbs)
  have zeros (count : Nat) := numeric_digits (isDigit_zeros count)
  have sign : ∀ c ∈ if value.point - 1 < 0 then ['-'] else style.plus, isNumeric c = true := by
    split
    · simp [isNumeric]
    · rcases plain with none | plus
      · simp [none]
      · simp [plus, isNumeric]
  have fraction : ∀ c ∈ value.digitChars.drop 1, isNumeric c = true :=
    fun c member => digits c (List.mem_of_mem_drop member)
  simp only [scientific, List.forall_mem_append]
  refine ⟨⟨⟨⟨fun c member => digits c (List.mem_of_mem_take member), ?_⟩,
    List.forall_mem_cons.mpr ⟨rfl, sign⟩⟩, zeros _⟩, power⟩
  split
  · exact nofun
  · exact List.forall_mem_cons.mpr ⟨rfl, fraction⟩

variable {style : Style} {x : Float}

theorem write_finite (finite : Binary64.magnitude x < Binary64.infinity) :
    (write style x).toList = sign (Binary64.isNegative x) ++
      if isPositional x then positional (Decimal.shortest (Binary64.magnitude x))
      else scientific style (Decimal.shortest (Binary64.magnitude x)) := by
  have other : (Binary64.magnitude x == Binary64.infinity) = false := beq_false_of_ne finite.ne
  simp only [write, other, if_neg (Nat.not_lt.mpr finite.le), Bool.false_eq_true, ↓reduceIte,
    String.toList_ofList]
  rfl

theorem write_numeric (plain : style.plus = [] ∨ style.plus = ['+'])
    (finite : Binary64.magnitude x < Binary64.infinity) :
    ∀ c ∈ (write style x).toList, isNumeric c = true := by
  rw [write_finite finite]
  refine List.forall_mem_append.mpr ⟨?_, ?_⟩
  · cases Binary64.isNegative x <;> simp [sign, isNumeric]
  · split
    · exact positional_numeric _
    · exact scientific_numeric plain _

end Numeral

namespace Text

theorem dropWhile_blanks {front : List Char} (blank : ∀ c ∈ front, isBlank c = true)
    {rest : List Char} (unblank : ∀ c ∈ rest.head?, isBlank c = false) :
    (front ++ rest).dropWhile isBlank = rest := by
  rw [List.dropWhile_append_of_pos blank]
  cases rest with
  | nil => rfl
  | cons c rest => simp [unblank c rfl]

theorem trim_append {front inner back : List Char} (before : ∀ c ∈ front, isBlank c = true)
    (behind : ∀ c ∈ back, isBlank c = true) (unblank : ∀ c ∈ inner, isBlank c = false) :
    trim (front ++ (inner ++ back)) = inner := by
  cases inner with
  | nil =>
    have all : (front ++ ([] ++ back)).dropWhile isBlank = [] :=
      List.dropWhile_eq_nil_iff.mpr (List.forall_mem_append.mpr ⟨before, behind⟩)
    rw [trim, all]
    rfl
  | cons c inner =>
    have first : ∀ d ∈ (c :: inner ++ back).head?, isBlank d = false := by
      rintro d ⟨⟩
      exact unblank c (List.mem_cons_self ..)
    have last : ∀ d ∈ (c :: inner).reverse.head?, isBlank d = false := fun d last =>
      unblank d (List.mem_reverse.mp (List.mem_of_mem_head? last))
    rw [trim, dropWhile_blanks before first, List.reverse_append,
      dropWhile_blanks (fun d member => behind d (List.mem_reverse.mp member)) last,
      List.reverse_reverse]

theorem trim_unblank {cs : List Char} (unblank : ∀ c ∈ cs, isBlank c = false) : trim cs = cs := by
  have trimmed := @trim_append [] cs [] nofun nofun unblank
  rwa [List.append_nil, List.nil_append] at trimmed

end Text

/-- A finite number is read back from what is written for it. -/
theorem readNumber_write {style : Numeral.Style} (plain : style.plus = [] ∨ style.plus = ['+'])
    {x : Float} (finite : x.isFinite = true) : readNumber? (Numeral.write style x) = some x := by
  rw [Binary64.isFinite_iff] at finite
  have unblank : ∀ c ∈ (Numeral.write style x).toList, Text.isBlank c = false :=
    fun c member => (Numeral.numeric_plain (Numeral.write_numeric plain finite c member)).1
  have reads : Numeral.Reads (Numeral.write style x).toList (Binary64.isNegative x)
      (Decimal.shortest (Binary64.magnitude x)).magnitude := by
    rw [Numeral.write_finite finite]
    split
    · exact Numeral.positional_reads _ _
    · exact Numeral.scientific_reads plain _ _
  obtain ⟨numeral, read, negative, magnitude⟩ := reads
  rw [readNumber?, Text.trim_unblank unblank, read, Option.map_some, Numeral.value, negative,
    magnitude, Decimal.shortest_magnitude finite, Binary64.ofMagnitude_magnitude]

end StackScript
