import Mathlib.Order.Bounds.Basic
import StackScript.Proofs.Segments

/-!
Which end belongs to an opener, and which `else`, told by counting the openers and the ends behind the
opener. The search for a block keeps no such counts of its own; that it finds just these two places is
derived from the nesting. Openers of all kinds count alike.
-/
namespace StackScript
namespace Program

def openers (program : Program) (start stop : Nat) : Nat :=
  (program.ops ⟨start, stop⟩).countP Op.opensBlock

def ends (program : Program) (start stop : Nat) : Nat :=
  (program.ops ⟨start, stop⟩).count .close

/-- From `opener` up to `close`, both included, there are as many ends as openers. -/
def Balances (program : Program) (opener close : Nat) : Prop :=
  program.ends opener (close + 1) = program.openers opener (close + 1)

def Divides (program : Program) (opener middle : Nat) : Prop :=
  program.op? middle = some .otherwise ∧
    program.openers opener middle = program.ends opener middle + 1

theorem weight_counts (op : Op) :
    op.weight + ([op].count .close : Nat) = ([op].countP Op.opensBlock : Nat) := by
  cases op <;> rfl

variable {program : Program}

theorem ops_snoc {start stop : Nat} (order : start ≤ stop) :
    program.ops ⟨start, stop + 1⟩ = program.ops ⟨start, stop⟩ ++ (program.op? stop).toList := by
  simp only [ops, List.take_add_one, List.drop_append, List.map_append, op?, Array.getElem?_toList]
  congr 1
  cases here : program.code[stop]? with
  | none => simp
  | some instruction =>
    have bound := (Array.getElem?_eq_some_iff.mp here).1
    have past : start - (program.code.toList.take stop).length = 0 := by
      rw [List.length_take, Array.length_toList]
      omega
    rw [past]
    rfl

theorem level_counts {start stop : Nat} (order : start ≤ stop) :
    program.level stop + program.ends start stop = program.level start + program.openers start stop := by
  induction stop, order using Nat.le_induction with
  | base =>
    rw [ends, openers, ops_nil _ (Nat.le_refl start)]
    rfl
  | succ stop order ih =>
    simp only [ends, openers, ops_snoc order, List.count_append, List.countP_append, level] at ih ⊢
    cases program.op? stop with
    | none => simpa using ih
    | some op =>
      have counts := weight_counts op
      simp only [Option.map_some, Option.getD_some, Option.toList_some]
      omega

theorem balances_iff {opener close : Nat} (later : opener < close) :
    program.Balances opener close ↔ program.level (close + 1) = program.level opener := by
  have order : opener ≤ close + 1 := by omega
  have counts := @level_counts program _ _ order
  unfold Balances
  omega

theorem divides_iff {opener middle : Nat} (later : opener < middle) :
    program.Divides opener middle ↔ program.DividesAt (program.level opener) middle := by
  have counts := @level_counts program _ _ (Nat.le_of_lt later)
  unfold Divides DividesAt
  refine and_congr_right fun _ => ?_
  omega

theorem Divided.least {base : Int} {address close : Nat} {middle : Option Nat}
    (divided : program.Divided base address close none middle) (k : Nat) : middle = some k ↔
      IsLeast { k | address ≤ k ∧ k < close ∧ program.DividesAt base k } k := by
  cases middle with
  | none =>
    refine ⟨nofun, fun least => ?_⟩
    obtain ⟨low, high, divides⟩ := least.1
    exact absurd divides (divided k low high)
  | some middle =>
    obtain ⟨low, high, divides, first⟩ := divided
    have least : IsLeast { k | address ≤ k ∧ k < close ∧ program.DividesAt base k } middle := by
      refine ⟨⟨low, high, divides⟩, ?_⟩
      rintro other ⟨other_low, -, other_divides⟩
      exact Nat.le_of_not_lt fun before => first other other_low before other_divides
    constructor
    · rintro ⟨⟩
      exact least
    · intro other
      rw [least.unique other]

end Program

namespace Block

/-- The block of an opener, by counting alone. -/
structure Matches (program : Program) (opener limit : Nat) (branches : Bool) (block : Block) :
    Prop where
  begins : block.opener = opener
  ends : IsLeast { k | opener < k ∧ k < min limit program.size ∧ program.Balances opener k } block.close
  divides : ∀ middle, block.middle = some middle ↔ branches = true ∧
    IsLeast { k | opener < k ∧ k < block.close ∧ program.Divides opener k } middle

variable {program : Program} {opener limit : Nat} {op : Op} {branches : Bool}

theorem Matches.unique {one two : Block} (first : Matches program opener limit branches one)
    (second : Matches program opener limit branches two) : one = two := by
  obtain ⟨begin', middle, close⟩ := one
  obtain ⟨begin'', middle', close'⟩ := two
  cases first.begins.trans second.begins.symm
  cases first.ends.unique second.ends
  have same : middle = middle' :=
    Option.ext fun k => (first.divides k).trans (second.divides k).symm
  rw [same]

theorem find_matches (here : program.op? opener = some op) (opens : op.opensBlock) {block : Block}
    (found : find program opener limit branches = .ok block) :
    Matches program opener limit branches block := by
  have encloses := find_encloses here opens found
  have returns := encloses.returns
  have after := returns.after
  have early := encloses.early
  have exist := encloses.exist
  refine ⟨encloses.begins, ⟨⟨after, by omega, ?_⟩, ?_⟩, ?_⟩
  · exact (Program.balances_iff after).mpr returns.back
  · rintro k ⟨later, -, balances⟩
    refine Nat.le_of_not_lt fun before => ?_
    have above := returns.above (k + 1) (by omega) before
    rw [(Program.balances_iff later).mp balances] at above
    exact absurd above (lt_irrefl _)
  · -- the search keeps the first `else` one block deep, and the block shows it on demand
    have next := Program.level_opener here opens
    rw [find_opener here opens (by omega)] at found
    cases scanned : scan program (min limit program.size) 1 none (opener + 1) with
    | none => simp only [scanned, reduceCtorEq] at found
    | some result =>
      obtain ⟨middle, close⟩ := result
      simp only [scanned, Except.ok.injEq] at found
      subst found
      obtain ⟨-, -, divided⟩ := scan_some (Nat.le_refl _) next scanned
      intro k
      have same : { k | opener < k ∧ k < close ∧ program.Divides opener k } =
          { k | opener + 1 ≤ k ∧ k < close ∧ program.DividesAt (program.level opener) k } := by
        ext k
        exact and_congr_right fun later => and_congr_right fun _ => Program.divides_iff later
      rw [same, ← divided.least]
      cases branches <;> simp

theorem find_of_balances (here : program.op? opener = some op) (opens : op.opensBlock) {close : Nat}
    (later : opener < close) (early : close < min limit program.size)
    (balances : program.Balances opener close) :
    ∃ block, find program opener limit branches = .ok block := by
  have next := Program.level_opener here opens
  rw [find_opener here opens (by omega)]
  cases scanned : scan program (min limit program.size) 1 none (opener + 1) with
  | some result => exact ⟨_, rfl⟩
  | none =>
    have above := scan_none (Nat.min_le_right ..) (Nat.le_refl _) next scanned (close + 1) (by omega)
      early
    rw [(Program.balances_iff later).mp balances] at above
    exact absurd above (lt_irrefl _)

theorem find_fault (here : program.op? opener = some op) {fault : Fault}
    (failed : find program opener limit branches = .error fault) :
    fault = { kind := .missingEnd, place := program.location? opener, detail := op.text } := by
  unfold find at failed
  split at failed
  · cases failed
  · rw [here] at failed
    exact (Except.error.inj failed).symm

/-- Of two blocks the one that begins later ends before the other does, or begins behind its end. -/
theorem nested_or_apart {other limit' : Nat} {op' : Op} {branches' : Bool} {outer inner : Block}
    (here : program.op? opener = some op) (opens : op.opensBlock)
    (there : program.op? other = some op') (opens' : op'.opensBlock) (order : opener < other)
    (found : find program opener limit branches = .ok outer)
    (found' : find program other limit' branches' = .ok inner) :
    outer.close < other ∨ inner.close < outer.close := by
  have first := (find_encloses here opens found).returns
  have second := (find_encloses there opens' found').returns
  by_cases apart : outer.close < other
  · exact .inl apart
  · refine .inr (Nat.lt_of_not_le fun crosses => ?_)
    -- the nesting at the later opener is above that behind the end of the earlier block
    have above := first.above other order (Nat.le_of_not_lt apart)
    have back := first.back
    have back' := second.back
    rcases Nat.eq_or_lt_of_le crosses with same | less
    · rw [same] at back
      omega
    · have above' := second.above (outer.close + 1) (by omega) less
      omega

theorem inner_before_middle {inner middle : Nat} {op' : Op} {block : Block}
    (here : program.op? opener = some op) (opens : op.opensBlock)
    (found : find program opener limit branches = .ok block) (chosen : block.middle = some middle)
    (there : program.op? inner = some op') (opens' : op'.opensBlock) (later : opener < inner)
    (before : inner < middle) :
    ∃ nested, find program inner program.size branches = .ok nested ∧ nested.close < middle := by
  have encloses := find_encloses here opens found
  have shut := Sealed.body encloses
  have span : block.body = ⟨opener + 1, middle⟩ := by
    rw [body, chosen, encloses.begins, Option.getD_some]
  rw [span] at shut
  obtain ⟨nested, found', early⟩ := shut.find there opens' later before branches
  exact ⟨nested, find_extends shut.exist found', early⟩

/-- The search finds for every opener exactly the end and the `else` that the counts give, and fails at
the opener if there is no such end before the limit. A greater limit changes nothing that is found; the
blocks of one program are nested like parentheses, and no `else` stands in a block deeper than its own. -/
theorem blocks_match_as_parentheses (program : Program) :
    (∀ opener op, program.op? opener = some op → op.opensBlock → ∀ limit branches,
      ((∃ block, find program opener limit branches = .ok block) ↔
        ∃ close, opener < close ∧ close < min limit program.size ∧
          program.Balances opener close) ∧
      (∀ block, find program opener limit branches = .ok block ↔
        Matches program opener limit branches block) ∧
      ∀ fault, find program opener limit branches = .error fault →
        ∃ place, program.location? opener = some place ∧
          fault = { kind := .missingEnd, place := some place, detail := op.text }) ∧
      (∀ opener limit more branches block, limit ≤ more →
        find program opener limit branches = .ok block →
          find program opener more branches = .ok block) ∧
      ∀ opener op limit branches block, program.op? opener = some op → op.opensBlock →
        find program opener limit branches = .ok block →
        (∀ inner op' limit' branches' nested, opener < inner → program.op? inner = some op' →
          op'.opensBlock → find program inner limit' branches' = .ok nested →
            (block.close < inner ∨ nested.close < block.close) ∧ block.close ≠ nested.close) ∧
        ∀ middle, block.middle = some middle → ∀ inner op', opener < inner → inner < middle →
          program.op? inner = some op' → op'.opensBlock →
            ∃ nested, find program inner program.size branches = .ok nested ∧
              nested.close < middle := by
  refine ⟨?_, ?_, ?_⟩
  · intro opener op here opens limit branches
    refine ⟨⟨?_, ?_⟩, fun block => ⟨find_matches here opens, ?_⟩, ?_⟩
    · rintro ⟨block, found⟩
      exact ⟨block.close, (find_matches here opens found).ends.1⟩
    · rintro ⟨close, later, early, balances⟩
      exact find_of_balances here opens later early balances
    · intro fits
      obtain ⟨later, early, balances⟩ := fits.ends.1
      obtain ⟨other, found⟩ := find_of_balances here opens later early balances
      rw [found, (find_matches here opens found).unique fits]
    · intro fault failed
      have exist := (program.location_isSome_iff opener).mpr
        ((program.op_isSome_iff opener).mp (by rw [here]; rfl))
      obtain ⟨place, there⟩ := Option.isSome_iff_exists.mp exist
      exact ⟨place, there, there ▸ find_fault here failed⟩
  · intro opener limit more branches block wider found
    exact find_extends wider found
  · intro opener op limit branches block here opens found
    refine ⟨?_, ?_⟩
    · intro inner op' limit' branches' nested order there opens' found'
      have order' := nested_or_apart here opens there opens' order found found'
      have after := (find_encloses there opens' found').returns.after
      exact ⟨order', by omega⟩
    · intro middle chosen inner op' later before there opens'
      exact inner_before_middle here opens found chosen there opens' later before

/-- One `else` in an inner block and one behind it. Short of its end the outer block is not found. -/
theorem blocks_match_as_parentheses_nested :
    let program := Program.ofText "t" "if if 1 else end 2 else 3 end"
    let outer : Block := ⟨0, some 6, 8⟩
    program.op? 0 = some .branch ∧ find program 0 9 true = .ok outer ∧
      Matches program 0 9 true outer ∧ find program 0 100 true = .ok outer ∧
      (∃ nested, find program 1 program.size true = .ok nested ∧ nested.close < 6) ∧
      ¬∃ close, 0 < close ∧ close < min 8 program.size ∧ program.Balances 0 close := by
  intro program outer
  have here : program.op? 0 = some .branch := by decide +kernel
  have there : program.op? 1 = some .branch := by decide +kernel
  have found : find program 0 9 true = .ok outer := by decide +kernel
  have missing : find program 0 8 true =
      .error { kind := .missingEnd, place := some ⟨"t", 1, ⟨0, 2⟩⟩, detail := "if" } := by
    decide +kernel
  obtain ⟨counts, wider, nests⟩ := blocks_match_as_parentheses program
  have fits := ((counts 0 .branch here rfl 9 true).2.1 outer).mp found
  have further := wider 0 9 100 true outer (by decide) found
  have deeper := (nests 0 .branch 9 true outer here rfl found).2 6 rfl 1 .branch (by decide)
    (by decide) there rfl
  refine ⟨here, found, fits, further, deeper, fun balanced => ?_⟩
  obtain ⟨block, found'⟩ := (counts 0 .branch here rfl 8 true).1.mpr balanced
  cases missing.symm.trans found'

end Block
end StackScript
