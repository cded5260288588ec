import Mathlib
import StackScript.Operator

/-!
Comparison of values. Of two values one is less, equal or greater, and only what is not a number is none
of these; the three operators say so alike, whichever operand comes first and in whichever form a number
is given.
-/
namespace StackScript

section Numbers

open Float.Model (UnpackedFloat)

theorem compare_signs (s t : UnpackedFloat.Sign) : compare t s = (compare s t).swap := by
  cases s <;> cases t <;> rfl

theorem compare_unpacked (a b : UnpackedFloat) :
    b.compare a = (a.compare b).map Ordering.swap := by
  cases a with
  | notANumber => cases b <;> rfl
  | infinity s =>
    cases b with
    | infinity t => exact congrArg some (compare_signs s t)
    | _ => cases s <;> rfl
  | zero s =>
    cases b with
    | infinity t | finite t => cases t <;> rfl
    | notANumber | zero t => rfl
  | finite s m e =>
    cases b with
    | notANumber => rfl
    | infinity t => cases t <;> rfl
    | zero t => cases s <;> rfl
    | finite t n f =>
      have sizes : (compare f e).then (compare n m) = ((compare e f).then (compare m n)).swap := by
        rw [Ordering.swap_then, ← Std.OrientedCmp.eq_swap, ← Std.OrientedCmp.eq_swap]
      cases s <;> cases t <;> simp [UnpackedFloat.compare, sizes]

theorem compare_unpacked_eq_none_iff (a b : UnpackedFloat) :
    a.compare b = none ↔ a.isNaN = true ∨ b.isNaN = true := by
  fun_cases UnpackedFloat.compare a b <;> simp_all [UnpackedFloat.isNaN]

end Numbers

namespace Value

/-- The three tests of a comparison find the order of the two numbers. -/
theorem compareNumbers_eq (m n : Float) :
    compareNumbers? m n = m.toModel.unpack.compare n.toModel.unpack := by
  have less (x y : Float) : x < y ↔ x.toModel.unpack.compare y.toModel.unpack = some .lt := by
    change x.lt y = true ↔ _
    rw [Float.lt, decide_eq_true_eq]
    exact beq_iff_eq
  have equal : (m == n) = true ↔ m.toModel.unpack.compare n.toModel.unpack = some .eq := by
    change (m.toModel.unpack.compare n.toModel.unpack == some .eq) = true ↔ _
    exact beq_iff_eq
  simp only [compareNumbers?, less, equal, compare_unpacked m.toModel.unpack n.toModel.unpack]
  rcases m.toModel.unpack.compare n.toModel.unpack with _ | _ | _ | _ <;> rfl

theorem compareNumbers_swap (m n : Float) :
    compareNumbers? n m = (compareNumbers? m n).map Ordering.swap := by
  rw [compareNumbers_eq, compareNumbers_eq, compare_unpacked]

theorem compareNumbers_eq_none_iff (m n : Float) :
    compareNumbers? m n = none ↔ m.isNaN = true ∨ n.isNaN = true := by
  rw [compareNumbers_eq]
  exact compare_unpacked_eq_none_iff _ _

/-- Both values read as numbers, but one of them is not a number after all. -/
def Unordered (lhs rhs : Value) : Prop :=
  ∃ m n, lhs.number? = some m ∧ rhs.number? = some n ∧ (m.isNaN = true ∨ n.isNaN = true)

variable {lhs rhs : Value}

theorem compare_numeric {m n : Float} (left : lhs.number? = some m) (right : rhs.number? = some n) :
    lhs.compare? rhs = compareNumbers? m n := by
  simp only [compare?, left, right]

theorem number_given {value given : Value} {n : Float} (reads : value.number? = some n)
    (either : given ∈ [value, .number n]) : given.number? = some n := by
  simp only [List.mem_cons, List.not_mem_nil, or_false] at either
  rcases either with rfl | rfl
  · exact reads
  · rfl

theorem compare_swap (lhs rhs : Value) :
    rhs.compare? lhs = (lhs.compare? rhs).map Ordering.swap := by
  have texts : compare rhs.text lhs.text = (compare lhs.text rhs.text).swap :=
    Std.OrientedCmp.eq_swap
  unfold compare?
  cases lhs.number? with
  | none => cases rhs.number? <;> exact congrArg some texts
  | some m =>
    cases rhs.number? with
    | none => exact congrArg some texts
    | some n => exact compareNumbers_swap m n

theorem compare_eq_none_iff : lhs.compare? rhs = none ↔ lhs.Unordered rhs := by
  cases left : lhs.number? with
  | none => simp [compare?, Unordered, left]
  | some m =>
    cases right : rhs.number? with
    | none => simp [compare?, Unordered, left, right]
    | some n =>
      rw [compare_numeric left right, compareNumbers_eq_none_iff]
      simp [Unordered, left, right]

end Value

namespace Operator

def asksFor? : Operator → Option Ordering
  | .equal => some .eq
  | .greater => some .gt
  | .less => some .lt
  | .sum | .difference | .product | .quotient | .remainder => none

def comparisons : List Operator := [.equal, .greater, .less]

theorem apply_comparison {operator : Operator} {order : Ordering}
    (asks : operator.asksFor? = some order) (lhs rhs : Value) :
    operator.apply lhs rhs = .ok (.ofBool (lhs.compare? rhs == some order)) := by
  cases operator <;> cases asks <;> rfl

theorem ofBool_inj (b c : Bool) : Value.ofBool b = Value.ofBool c ↔ b = c := by
  cases b <;> cases c <;> decide

section Outcomes

variable {operator : Operator} {order : Ordering} {lhs rhs : Value}

theorem apply_yes_iff (asks : operator.asksFor? = some order) :
    operator.apply lhs rhs = .ok (.number 1.0) ↔ lhs.compare? rhs = some order := by
  rw [apply_comparison asks, Except.ok.injEq]
  exact (ofBool_inj _ true).trans beq_iff_eq

theorem apply_no_iff (asks : operator.asksFor? = some order) :
    operator.apply lhs rhs = .ok (.number 0.0) ↔ lhs.compare? rhs ≠ some order := by
  rw [apply_comparison asks, Except.ok.injEq]
  exact (ofBool_inj _ false).trans beq_eq_false_iff_ne

theorem asks_of_mem (comparison : operator ∈ comparisons) :
    ∃ order, operator.asksFor? = some order := by
  simp only [comparisons, List.mem_cons, List.not_mem_nil, or_false] at comparison
  rcases comparison with rfl | rfl | rfl <;> exact ⟨_, rfl⟩

theorem exists_asking (order : Ordering) :
    ∃ operator ∈ comparisons, operator.asksFor? = some order ∧
      ∀ other ∈ comparisons, other.asksFor? = some order → other = operator := by
  cases order
  · exact ⟨.less, by decide⟩
  · exact ⟨.equal, by decide⟩
  · exact ⟨.greater, by decide⟩

theorem apply_swapped {swapped : Operator} (asks : operator.asksFor? = some order)
    (other : swapped.asksFor? = some order.swap) (lhs rhs : Value) :
    swapped.apply rhs lhs = operator.apply lhs rhs := by
  rw [apply_comparison asks, apply_comparison other, Value.compare_swap lhs rhs]
  rcases lhs.compare? rhs with _ | _ | _ | _ <;> cases order <;> rfl

end Outcomes

/-- The three comparisons never fail, and say yes or no. Where one of two numbers is not a number all
say no, and everywhere else exactly one says yes. With the operands exchanged, `greater` and `less` are
exchanged and `equal` is the same; and where both operands read as numbers, it does not matter whether
they are given as numbers or as text. -/
theorem comparisons_agree (lhs rhs : Value) :
    (∀ operator ∈ comparisons, operator.apply lhs rhs = .ok (.number 1.0) ∨
      operator.apply lhs rhs = .ok (.number 0.0)) ∧
    (lhs.Unordered rhs →
      ∀ operator ∈ comparisons, operator.apply lhs rhs = .ok (.number 0.0)) ∧
    (¬lhs.Unordered rhs →
      ∃ operator ∈ comparisons, operator.apply lhs rhs = .ok (.number 1.0) ∧
        ∀ other ∈ comparisons, other.apply lhs rhs = .ok (.number 1.0) → other = operator) ∧
    (Operator.greater.apply rhs lhs = Operator.less.apply lhs rhs ∧
      Operator.less.apply rhs lhs = Operator.greater.apply lhs rhs ∧
      Operator.equal.apply rhs lhs = Operator.equal.apply lhs rhs) ∧
    ∀ m n, lhs.number? = some m → rhs.number? = some n →
      ∀ operator ∈ comparisons, ∀ left ∈ [lhs, .number m], ∀ right ∈ [rhs, .number n],
        operator.apply left right = operator.apply lhs rhs := by
  refine ⟨?_, ?_, ?_, ⟨apply_swapped rfl rfl lhs rhs, apply_swapped rfl rfl lhs rhs,
    apply_swapped rfl rfl lhs rhs⟩, ?_⟩
  · intro operator comparison
    obtain ⟨order, asks⟩ := asks_of_mem comparison
    rw [apply_yes_iff asks, apply_no_iff asks]
    exact Decidable.em _
  · intro unordered operator comparison
    obtain ⟨order, asks⟩ := asks_of_mem comparison
    rw [apply_no_iff asks, Value.compare_eq_none_iff.mpr unordered]
    exact nofun
  · intro ordered
    obtain ⟨order, found⟩ := Option.ne_none_iff_exists'.mp (mt Value.compare_eq_none_iff.mp ordered)
    obtain ⟨operator, comparison, asks, alone⟩ := exists_asking order
    refine ⟨operator, comparison, (apply_yes_iff asks).mpr found, ?_⟩
    intro other comparison yes
    obtain ⟨wanted, asked⟩ := asks_of_mem comparison
    refine alone other comparison ?_
    rw [asked, ← found, (apply_yes_iff asked).mp yes]
  · intro m n left right operator comparison l lefts r rights
    obtain ⟨order, asks⟩ := asks_of_mem comparison
    rw [apply_comparison asks, apply_comparison asks, Value.compare_numeric left right,
      Value.compare_numeric (Value.number_given left lefts) (Value.number_given right rights)]

/-- Text that reads as five, next to the number and next to what is not a number. -/
theorem comparisons_agree_text :
    let text := Value.string " 5e0"
    let odd := Value.number Binary64.notANumber
    ¬text.Unordered (.number 5.0) ∧ odd.Unordered text ∧
      (∀ operator ∈ comparisons, operator.apply odd text = .ok (.number 0.0)) ∧
      ∀ operator ∈ comparisons, operator.apply (.number 5.0) text = operator.apply text text := by
  intro text odd
  have five : text.number? = some 5.0 := by decide +kernel
  have unordered : odd.Unordered text := ⟨_, _, rfl, five, .inl (by decide +kernel)⟩
  refine ⟨?_, unordered, (comparisons_agree odd text).2.1 unordered, ?_⟩
  · rw [← Value.compare_eq_none_iff, Value.compare_numeric five rfl]
    decide +kernel
  · intro operator comparison
    obtain ⟨-, -, -, -, given⟩ := comparisons_agree text text
    exact given 5.0 5.0 five five operator comparison (.number 5.0) (by simp) text (by simp)

end Operator
end StackScript
