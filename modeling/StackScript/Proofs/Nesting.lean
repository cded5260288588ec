import StackScript.Block

/-!
How deep a program is nested at each of its addresses, and which block ends belong together. A block
is found exactly where the nesting comes back to what it was before the opener; spans over which the
nesting never falls below its last value hold every block that begins in them.
-/
namespace StackScript

def Op.weight : Op → Int
  | .branch | .loop | .define => 1
  | .close => -1
  | _ => 0

/-- The openers less the ends before an address. -/
def Program.level (program : Program) : Nat → Int
  | 0 => 0
  | address + 1 => program.level address + ((program.op? address).map Op.weight).getD 0

theorem weight_opener {op : Op} (opens : op.opensBlock) : op.weight = 1 := by
  cases op <;> simp_all [Op.opensBlock, Op.weight]

theorem weight_bound (op : Op) : -1 ≤ op.weight ∧ op.weight ≤ 1 := by
  cases op <;> simp [Op.weight]

theorem weight_other {op : Op} (other : op = .close → False) :
    op.weight = if op.opensBlock then 1 else 0 := by
  cases op <;> simp_all [Op.opensBlock, Op.weight]

theorem weight_close {op : Op} (closes : op.weight = -1) : op = .close := by
  cases op <;> simp_all [Op.weight]

namespace Program

variable {program : Program}

theorem op_isSome_iff (program : Program) (address : Nat) :
    (program.op? address).isSome ↔ address < program.size := by
  simp [op?, size]

theorem location_isSome_iff (program : Program) (address : Nat) :
    (program.location? address).isSome ↔ address < program.size := by
  simp [location?, size]

theorem level_succ {address : Nat} {op : Op} (here : program.op? address = some op) :
    program.level (address + 1) = program.level address + op.weight := by
  simp [level, here]

theorem level_opener {opener : Nat} {op : Op} (here : program.op? opener = some op)
    (opens : op.opensBlock) : program.level (opener + 1) = program.level opener + (1 : Nat) := by
  rw [level_succ here, weight_opener opens]
  rfl

theorem level_succ_bound (program : Program) (address : Nat) :
    program.level address - 1 ≤ program.level (address + 1) ∧
      program.level (address + 1) ≤ program.level address + 1 := by
  simp only [level]
  cases program.op? address with
  | none =>
    simp only [Option.map_none, Option.getD_none]
    omega
  | some op =>
    have bound := weight_bound op
    simp only [Option.map_some, Option.getD_some]
    omega

/-- The nesting comes back to `base` for the first time after `address` with the operation at
`close`. -/
structure Returns (program : Program) (base : Int) (address close : Nat) : Prop where
  after : address ≤ close
  back : program.level (close + 1) = base
  above : ∀ k, address ≤ k → k ≤ close → base < program.level k

def DividesAt (program : Program) (base : Int) (address : Nat) : Prop :=
  program.op? address = some .otherwise ∧ program.level address = base + 1

theorem Returns.unique {base : Int} {address first second : Nat}
    (one : program.Returns base address first) (two : program.Returns base address second) :
    first = second := by
  have one_back := one.back
  have two_back := two.back
  have after := one.after
  have after' := two.after
  rcases Nat.lt_trichotomy first second with less | same | more
  · have := two.above (first + 1) (by omega) (by omega)
    omega
  · exact same
  · have := one.above (second + 1) (by omega) (by omega)
    omega

theorem Returns.closes {base : Int} {address close : Nat} (returns : program.Returns base address close)
    : program.op? close = some .close ∧ program.level close = base + 1 := by
  have back := returns.back
  have above := returns.above close returns.after (Nat.le_refl _)
  have bound := program.level_succ_bound close
  refine ⟨?_, by omega⟩
  cases here : program.op? close with
  | none =>
    simp only [level, here, Option.map_none, Option.getD_none] at back
    omega
  | some op =>
    rw [level_succ here] at back
    have closes : op.weight = -1 := by
      have := weight_bound op
      omega
    rw [weight_close closes]

theorem Returns.step {base : Int} {address close : Nat}
    (above : base < program.level address) (returns : program.Returns base (address + 1) close) :
    program.Returns base address close where
  after := by have := returns.after; omega
  back := returns.back
  above := by
    intro k low high
    rcases Nat.eq_or_lt_of_le low with rfl | later
    · exact above
    · exact returns.above k later high

/-- What `middle` says about the block up to `close`: the `else` known already, or else the first one
from `address` on that divides the block. -/
def Divided (program : Program) (base : Int) (address close : Nat) :
    Option Nat → Option Nat → Prop
  | some known, middle => middle = some known
  | none, some middle => address ≤ middle ∧ middle < close ∧ program.DividesAt base middle ∧
      ∀ k, address ≤ k → k < middle → ¬program.DividesAt base k
  | none, none => ∀ k, address ≤ k → k < close → ¬program.DividesAt base k

theorem Divided.start (program : Program) (base : Int) (address : Nat) (known : Option Nat) :
    program.Divided base address address known known := by
  cases known with
  | none =>
    intro k low high
    omega
  | some known => rfl

theorem Divided.step {base : Int} {address close : Nat} {known middle : Option Nat}
    (plain : ¬program.DividesAt base address)
    (divided : program.Divided base (address + 1) close known middle) :
    program.Divided base address close known middle := by
  have plain_first : ∀ k, address ≤ k → ¬address + 1 ≤ k → ¬program.DividesAt base k := by
    intro k low early
    have same : k = address := by omega
    exact same ▸ plain
  cases known with
  | some known => exact divided
  | none =>
    cases middle with
    | none =>
      intro k low high
      by_cases later : address + 1 ≤ k
      · exact divided k later high
      · exact plain_first k low later
    | some middle =>
      obtain ⟨low, high, divides, first⟩ := divided
      refine ⟨by omega, high, divides, ?_⟩
      intro k low high
      by_cases later : address + 1 ≤ k
      · exact first k later high
      · exact plain_first k low later

end Program

namespace Block

variable {program : Program} {base : Int} {limit depth address close : Nat}
  {known middle : Option Nat}

/-- Past an operation that ends nothing, the depth of the search goes with the nesting. -/
theorem level_other {op : Op} (here : program.op? address = some op) (other : op = .close → False)
    (level : program.level address = base + depth) :
    program.level (address + 1) = base + (if op.opensBlock then depth + 1 else depth : Nat) := by
  rw [Program.level_succ here, weight_other other]
  by_cases opens : op.opensBlock = true
  · simp only [opens, ↓reduceIte]
    omega
  · simp only [opens]
    simpa using level

theorem scan_some (deep : 1 ≤ depth)
    (level : program.level address = base + depth)
    (found : scan program limit depth known address = some (middle, close)) :
    program.Returns base address close ∧ close < limit ∧
      program.Divided base address close known middle := by
  fun_induction scan program limit depth known address with
  | case1 depth known address inside here shallow =>
    cases found
    have next : program.level (close + 1) = program.level close + -1 := Program.level_succ here
    refine ⟨⟨Nat.le_refl _, by omega, ?_⟩, inside, Program.Divided.start ..⟩
    intro k low high
    rw [Nat.le_antisymm high low]
    omega
  | case2 depth known address inside here nested ih =>
    have next : program.level (address + 1) = program.level address + -1 :=
      Program.level_succ here
    obtain ⟨returns, early, divided⟩ := ih (by omega) (by omega) found
    exact ⟨returns.step (by omega), early, divided.step fun divides => by
      cases here.symm.trans divides.1⟩
  | case3 depth known address inside here ih =>
    have next : program.level (address + 1) = program.level address + 0 := Program.level_succ here
    simp only [dite_eq_ite] at ih
    obtain ⟨returns, early, divided⟩ := ih deep (by omega) found
    refine ⟨returns.step (by omega), early, ?_⟩
    have after := returns.after
    by_cases shallow : depth = 1
    · have divides : program.DividesAt base address := ⟨here, by omega⟩
      simp only [shallow, ↓reduceIte] at divided
      cases known with
      | some known => exact divided
      | none =>
        rw [show middle = some address from divided]
        refine ⟨Nat.le_refl _, by omega, divides, ?_⟩
        intro k low high
        omega
    · simp only [shallow, ↓reduceIte] at divided
      refine divided.step fun divides => ?_
      have := divides.2
      omega
  | case4 depth known address inside op other plain here ih =>
    simp only [dite_eq_ite] at ih
    obtain ⟨returns, early, divided⟩ :=
      ih (by split <;> omega) (level_other here other level) found
    exact ⟨returns.step (by omega), early, divided.step fun divides =>
      plain (Option.some.inj (here.symm.trans divides.1))⟩
  | case5 depth known address inside here => cases found
  | case6 depth known address outside => cases found

theorem scan_none (bounded : limit ≤ program.size) (deep : 1 ≤ depth)
    (level : program.level address = base + depth)
    (missing : scan program limit depth known address = none) :
    ∀ k, address ≤ k → k ≤ limit → base < program.level k := by
  have later : ∀ address : Nat, base < program.level address →
      (∀ k, address + 1 ≤ k → k ≤ limit → base < program.level k) →
      ∀ k, address ≤ k → k ≤ limit → base < program.level k := by
    intro address here rest k low high
    rcases Nat.eq_or_lt_of_le low with rfl | later
    · exact here
    · exact rest k later high
  fun_induction scan program limit depth known address with
  | case1 depth known address inside here shallow => cases missing
  | case2 depth known address inside here nested ih =>
    have next : program.level (address + 1) = program.level address + -1 :=
      Program.level_succ here
    exact later address (by omega) (ih (by omega) (by omega) missing)
  | case3 depth known address inside here ih =>
    have next : program.level (address + 1) = program.level address + 0 := Program.level_succ here
    exact later address (by omega) (ih deep (by omega) missing)
  | case4 depth known address inside op other plain here ih =>
    simp only [dite_eq_ite] at ih
    exact later address (by omega)
      (ih (by split <;> omega) (level_other here other level) missing)
  | case5 depth known address inside here =>
    have exist := (program.op_isSome_iff address).mpr (by omega)
    rw [here] at exist
    cases exist
  | case6 depth known address outside =>
    intro k low high
    rw [show k = address by omega]
    omega

theorem scan_extends {more : Nat} (wider : limit ≤ more) {result : Option Nat × Nat}
    (found : scan program limit depth known address = some result) :
    scan program more depth known address = some result := by
  fun_induction scan program limit depth known address with
  | case1 depth known address inside here shallow =>
    rw [scan]
    simp only [here, shallow, ↓reduceIte, show address < more by omega, found]
  | case2 depth known address inside here nested ih =>
    rw [scan]
    simp only [here, nested, ↓reduceIte, show address < more by omega, ih found]
  | case3 depth known address inside here ih =>
    rw [scan]
    simp only [here, ↓reduceIte, show address < more by omega]
    exact ih found
  | case4 depth known address inside op other plain here ih =>
    rw [scan]
    simp only [here, ↓reduceIte, show address < more by omega]
    exact ih found
  | case5 depth known address inside here => cases found
  | case6 depth known address outside => cases found

theorem scan_iff (bounded : limit ≤ program.size) (deep : 1 ≤ depth)
    (level : program.level address = base + depth) :
    (∃ middle, scan program limit depth known address = some (middle, close)) ↔
      program.Returns base address close ∧ close < limit := by
  constructor
  · rintro ⟨middle, found⟩
    obtain ⟨returns, early, -⟩ := scan_some deep level found
    exact ⟨returns, early⟩
  · rintro ⟨returns, early⟩
    cases found : scan program limit depth known address with
    | none =>
      have after := returns.after
      have above := scan_none bounded deep level found (close + 1) (by omega) (by omega)
      rw [returns.back] at above
      omega
    | some result =>
      obtain ⟨middle, other⟩ := result
      obtain ⟨same, -⟩ := scan_some deep level found
      exact ⟨middle, by rw [returns.unique same]⟩

variable {opener : Nat} {op : Op} {branches : Bool}

theorem find_opener (here : program.op? opener = some op) (opens : op.opensBlock)
    (inside : opener < limit) : find program opener limit branches =
    match scan program (min limit program.size) 1 none (opener + 1) with
    | some (middle, close) => .ok ⟨opener, if branches then middle else none, close⟩
    | none => .error { kind := .missingEnd, place := program.location? opener, detail := op.text } := by
  have exist := (program.op_isSome_iff opener).mp (by rw [here]; rfl)
  have first : scan program (min limit program.size) 0 none opener =
      scan program (min limit program.size) 1 none (opener + 1) := by
    rw [scan, if_pos (by omega), here]
    cases op <;> simp_all [Op.opensBlock]
  unfold find
  rw [first, here]
  rfl

theorem find_extends {more : Nat} (wider : limit ≤ more) {block : Block}
    (found : find program opener limit branches = .ok block) :
    find program opener more branches = .ok block := by
  unfold find at found ⊢
  cases scanned : scan program (min limit program.size) 0 none opener with
  | none => simp only [scanned, reduceCtorEq] at found
  | some result =>
    rw [scan_extends (by omega) scanned]
    simpa only [scanned] using found

theorem find_undivided {block : Block}
    (found : find program opener limit false = .ok block) :
    block = ⟨opener, none, block.close⟩ := by
  unfold find at found
  cases scanned : scan program (min limit program.size) 0 none opener with
  | none => simp only [scanned, reduceCtorEq] at found
  | some result =>
    simp only [scanned, Bool.false_eq_true, ↓reduceIte, Except.ok.injEq] at found
    rw [← found]

/-- A block as it is found: its end is where the nesting is that of its opener again, and its `else`
stands one block deep between the two. -/
structure Encloses (program : Program) (opener limit : Nat) (block : Block) : Prop where
  begins : block.opener = opener
  returns : program.Returns (program.level opener) (opener + 1) block.close
  early : block.close < limit
  exist : block.close < program.size
  divides : ∀ middle, block.middle = some middle → opener < middle ∧ middle < block.close ∧
    program.DividesAt (program.level opener) middle

theorem find_encloses {block : Block} (here : program.op? opener = some op)
    (opens : op.opensBlock) (found : find program opener limit branches = .ok block) :
    Encloses program opener limit block := by
  have next := Program.level_opener here opens
  by_cases inside : opener < limit
  · rw [find_opener here opens inside] at found
    cases scanned : scan program (min limit program.size) 1 none (opener + 1) with
    | none => simp only [scanned, reduceCtorEq] at found
    | some result =>
      obtain ⟨middle, close⟩ := result
      simp only [scanned, Except.ok.injEq] at found
      obtain ⟨returns, early, divided⟩ := scan_some (Nat.le_refl _) next scanned
      subst found
      refine ⟨rfl, returns, Nat.lt_of_lt_of_le early (Nat.min_le_left ..),
        Nat.lt_of_lt_of_le early (Nat.min_le_right ..), ?_⟩
      intro other chosen
      cases branches with
      | false => cases chosen
      | true =>
        simp only [↓reduceIte] at chosen
        subst chosen
        obtain ⟨low, high, divides, -⟩ := divided
        exact ⟨by omega, high, divides⟩
  · unfold find at found
    rw [scan, if_neg (by omega)] at found
    cases found

theorem find_of_returns (here : program.op? opener = some op) (opens : op.opensBlock)
    (returns : program.Returns (program.level opener) (opener + 1) close) (early : close < limit)
    (exist : close < program.size) :
    ∃ block, find program opener limit branches = .ok block ∧ block.close = close := by
  have next := Program.level_opener here opens
  have after := returns.after
  obtain ⟨middle, scanned⟩ :=
    (scan_iff (Nat.min_le_right limit program.size) (Nat.le_refl _) next).mpr ⟨returns, by omega⟩
  refine ⟨⟨opener, if branches then middle else none, close⟩, ?_, rfl⟩
  rw [find_opener here opens (by omega), scanned]

end Block

/-- A span inside the program on which the nesting never falls below its last value. -/
structure Sealed (program : Program) (span : Span) : Prop where
  exist : span.stop ≤ program.size
  above : ∀ k, span.start ≤ k → k ≤ span.stop → program.level span.stop ≤ program.level k

namespace Sealed

variable {program : Program} {span : Span}

/-- The blocks that begin in a sealed span end in it. -/
theorem returns (shut : Sealed program span) {opener : Nat} {op : Op}
    (here : program.op? opener = some op) (opens : op.opensBlock) (low : span.start ≤ opener)
    (high : opener < span.stop) :
    ∃ close, program.Returns (program.level opener) (opener + 1) close ∧ close < span.stop := by
  have next := Program.level_opener here opens
  cases scanned : Block.scan program span.stop 1 none (opener + 1) with
  | none =>
    have above := Block.scan_none shut.exist (Nat.le_refl _) next scanned span.stop high
      (Nat.le_refl _)
    have fallen := shut.above opener low (Nat.le_of_lt high)
    omega
  | some result =>
    obtain ⟨returns, early, -⟩ := Block.scan_some (Nat.le_refl _) next scanned
    exact ⟨result.2, returns, early⟩

theorem find (shut : Sealed program span) {opener : Nat} {op : Op}
    (here : program.op? opener = some op) (opens : op.opensBlock) (low : span.start ≤ opener)
    (high : opener < span.stop) (branches : Bool) :
    ∃ block, Block.find program opener span.stop branches = .ok block ∧ block.close < span.stop := by
  obtain ⟨close, returns, early⟩ := shut.returns here opens low high
  have exist := shut.exist
  obtain ⟨block, found, same⟩ := Block.find_of_returns here opens returns early (by omega)
  exact ⟨block, found, same ▸ early⟩

variable {opener limit : Nat} {block : Block}

theorem of_above {start stop : Nat} {base : Int} (exist : stop ≤ program.size)
    (last : program.level stop = base + 1)
    (above : ∀ k, start ≤ k → k ≤ stop → base < program.level k) :
    Sealed program ⟨start, stop⟩ where
  exist := exist
  above k low high := by
    have := above k low high
    simp only
    omega

theorem body (encloses : Block.Encloses program opener limit block) :
    Sealed program block.body := by
  have exist := encloses.exist
  have begins := encloses.begins
  unfold Block.body
  cases chosen : block.middle with
  | none =>
    refine of_above (by simp only [Option.getD_none]; omega) encloses.returns.closes.2 ?_
    intro k low high
    exact encloses.returns.above k (begins ▸ low) high
  | some middle =>
    obtain ⟨later, before, divides⟩ := encloses.divides middle chosen
    refine of_above (by simp only [Option.getD_some]; omega) divides.2 ?_
    intro k low high
    exact encloses.returns.above k (begins ▸ low) (by simp only [Option.getD_some] at high; omega)

theorem alternative (encloses : Block.Encloses program opener limit block)
    (chosen : block.alternative = some span) : Sealed program span := by
  have exist := encloses.exist
  unfold Block.alternative at chosen
  obtain ⟨middle, found, rfl⟩ := Option.map_eq_some_iff.mp chosen
  obtain ⟨later, before, -⟩ := encloses.divides middle found
  refine of_above (by omega) encloses.returns.closes.2 ?_
  intro k low high
  exact encloses.returns.above k (by omega) high

end Sealed
end StackScript
