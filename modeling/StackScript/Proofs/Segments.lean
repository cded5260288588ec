import StackScript.Proofs.Nesting

/-!
Code without its addresses. Counted from where it begins, the search for the end of a block depends
on nothing but the operations ahead; and the operations of a program are those its words stand for,
each read behind the one before it.
-/
namespace StackScript
namespace Program

def ops (program : Program) (span : Span) : List Op :=
  ((program.code.toList.take span.stop).drop span.start).map Instruction.op

variable (program : Program)

theorem getElem?_ops (span : Span) (i : Nat) :
    (program.ops span)[i]? =
      if span.start + i < span.stop then program.op? (span.start + i) else none := by
  rw [ops, List.getElem?_map, List.getElem?_drop, List.getElem?_take]
  split
  · rw [Array.getElem?_toList, op?]
  · rfl

theorem length_ops {span : Span} (exist : span.stop ≤ program.size) :
    (program.ops span).length = span.stop - span.start := by
  rw [ops, List.length_map, List.length_drop, List.length_take, Array.length_toList]
  rw [size] at exist
  omega

theorem ops_span : program.ops program.span = program.code.toList.map Instruction.op := by
  rw [ops, span, size, ← Array.length_toList, List.take_length, List.drop_zero]

theorem op_zero : program.op? 0 = (program.ops program.span).head? := by
  rw [ops_span, List.head?_eq_getElem?, List.getElem?_map, Array.getElem?_toList, op?]

theorem ops_nil {span : Span} (spent : span.stop ≤ span.start) : program.ops span = [] := by
  apply List.ext_getElem?
  intro i
  rw [getElem?_ops, if_neg (by omega)]
  rfl

theorem ops_cons {address limit : Nat} {op : Op} (inside : address < limit)
    (here : program.op? address = some op) :
    program.ops ⟨address, limit⟩ = op :: program.ops ⟨address + 1, limit⟩ := by
  apply List.ext_getElem?
  intro i
  cases i with
  | zero =>
    rw [getElem?_ops, List.getElem?_cons_zero, Nat.add_zero, here]
    exact if_pos inside
  | succ i =>
    rw [List.getElem?_cons_succ, getElem?_ops, getElem?_ops]
    simp only [Nat.add_assoc, Nat.add_comm 1]

theorem ops_within {address limit start stop : Nat} (inside : address + stop ≤ limit) :
    program.ops ⟨address + start, address + stop⟩ =
      ((program.ops ⟨address, limit⟩).take stop).drop start := by
  apply List.ext_getElem?
  intro i
  rw [List.getElem?_drop, List.getElem?_take, getElem?_ops, getElem?_ops]
  simp only [Nat.add_assoc, Nat.add_lt_add_iff_left]
  split
  · rw [if_pos (by omega)]
  · rfl

theorem ops_drop (address limit steps : Nat) :
    program.ops ⟨address + steps, limit⟩ = (program.ops ⟨address, limit⟩).drop steps := by
  apply List.ext_getElem?
  intro i
  rw [List.getElem?_drop, getElem?_ops, getElem?_ops]
  simp only [Nat.add_assoc]

end Program

namespace Block

def seek (depth : Nat) (middle : Option Nat) (offset : Nat) : List Op → Option (Option Nat × Nat)
  | [] => none
  | .close :: ops =>
    if depth ≤ 1 then some (middle, offset) else seek (depth - 1) middle (offset + 1) ops
  | .otherwise :: ops =>
    seek depth (if depth = 1 then middle <|> some offset else middle) (offset + 1) ops
  | op :: ops => seek (if op.opensBlock then depth + 1 else depth) middle (offset + 1) ops

def placed (base : Nat) (result : Option Nat × Nat) : Option Nat × Nat :=
  (result.1.map (base + ·), base + result.2)

variable {program : Program} {limit : Nat}

theorem scan_eq_seek (bounded : limit ≤ program.size) (base depth offset : Nat)
    (known : Option Nat) :
    scan program limit depth (known.map (base + ·)) (base + offset) =
      (seek depth known offset (program.ops ⟨base + offset, limit⟩)).map (placed base) := by
  -- both walks stop at the limit, so the induction is on the distance to it
  generalize left : limit - (base + offset) = steps
  induction steps generalizing depth offset known with
  | zero =>
    rw [scan, if_neg (by omega), program.ops_nil (by simp only; omega)]
    rfl
  | succ steps ih =>
    have inside : base + offset < limit := by omega
    obtain ⟨op, here⟩ := Option.isSome_iff_exists.mp
      ((program.op_isSome_iff (base + offset)).mpr (by omega))
    have next (depth : Nat) (known : Option Nat) := ih depth (offset + 1) known (by omega)
    rw [scan, if_pos inside, here, program.ops_cons inside here]
    cases op with
    | close =>
      simp only [seek]
      split
      · rfl
      · exact next (depth - 1) known
    | otherwise =>
      have kept : (if depth = 1 then known.map (base + ·) <|> some (base + offset)
          else known.map (base + ·)) =
            (if depth = 1 then known <|> some offset else known).map (base + ·) := by
        split
        · cases known <;> rfl
        · rfl
      simp only [seek, kept]
      exact next depth _
    | _ => exact next _ known

theorem find_eq_seek {opener : Nat} (inside : opener < limit) (bounded : limit ≤ program.size)
    (branches : Bool) :
    find program opener limit branches =
      match seek 0 none 0 (program.ops ⟨opener, limit⟩) with
      | some (middle, close) =>
        .ok ⟨opener, if branches then middle.map (opener + ·) else none, opener + close⟩
      | none =>
        .error {
          kind := .missingEnd
          place := program.location? opener
          detail := (((program.ops ⟨opener, limit⟩).head?).map Op.text).getD "" } := by
  have first : (program.ops ⟨opener, limit⟩).head? = program.op? opener := by
    rw [List.head?_eq_getElem?, program.getElem?_ops]
    exact if_pos inside
  have scanned := scan_eq_seek bounded opener 0 0 none
  simp only [Option.map_none, Nat.add_zero] at scanned
  unfold find
  rw [Nat.min_eq_left bounded, scanned, first]
  cases seek 0 none 0 (program.ops ⟨opener, limit⟩) <;> rfl

theorem seek_append {depth offset : Nat} {known : Option Nat} {ops : List Op}
    {result : Option Nat × Nat} (found : seek depth known offset ops = some result)
    (rest : List Op) : seek depth known offset (ops ++ rest) = some result := by
  fun_induction seek depth known offset ops with
  | case1 => cases found
  | case2 depth known offset ops shallow =>
    rw [List.cons_append, seek, if_pos shallow]
    exact found
  | case3 depth known offset ops nested ih =>
    rw [List.cons_append, seek, if_neg nested]
    exact ih found
  | case4 depth known offset ops ih =>
    rw [List.cons_append, seek]
    exact ih found
  | case5 depth known offset op ops other plain ih =>
    rw [List.cons_append, seek]
    · exact ih found
    · exact other
    · exact plain

theorem seek_bounds {depth offset close : Nat} {known middle : Option Nat} {ops : List Op}
    (earlier : ∀ place, known = some place → place < offset)
    (found : seek depth known offset ops = some (middle, close)) :
    offset ≤ close ∧ close < offset + ops.length ∧ ∀ place, middle = some place → place < close := by
  fun_induction seek depth known offset ops with
  | case1 => cases found
  | case2 depth known offset ops shallow =>
    cases found
    exact ⟨Nat.le_refl _, by simp, earlier⟩
  | case3 depth known offset ops nested ih =>
    obtain ⟨low, high, before⟩ := ih (fun place same => Nat.lt_succ_of_lt (earlier place same)) found
    refine ⟨by omega, ?_, before⟩
    rw [List.length_cons]
    omega
  | case4 depth known offset ops ih =>
    obtain ⟨low, high, before⟩ := ih (by
      intro place same
      split at same
      · cases known with
        | none =>
          cases same
          exact Nat.lt_succ_self _
        | some first =>
          cases same
          exact Nat.lt_succ_of_lt (earlier _ rfl)
      · exact Nat.lt_succ_of_lt (earlier place same)) found
    refine ⟨by omega, ?_, before⟩
    rw [List.length_cons]
    omega
  | case5 depth known offset op ops other plain ih =>
    obtain ⟨low, high, before⟩ := ih (fun place same => Nat.lt_succ_of_lt (earlier place same)) found
    refine ⟨by omega, ?_, before⟩
    rw [List.length_cons]
    omega

end Block

namespace Op

def names : Op → Bool
  | .define | .declare => true
  | _ => false

def sequence (previous : Option Op) : List String → List Op
  | [] => []
  | text :: texts =>
    let op := (ofWord text).after previous
    op :: sequence (some op) texts

theorem sequence_append (previous : Option Op) (first second : List String) :
    sequence previous (first ++ second) =
      sequence previous first ++
        sequence ((sequence previous first).getLast? <|> previous) second := by
  induction first generalizing previous with
  | nil => rfl
  | cons text texts ih =>
    rw [List.cons_append, sequence, ih, sequence, List.cons_append, List.getLast?_cons]
    cases (sequence (some ((ofWord text).after previous)) texts).getLast? <;> rfl

theorem after_plain {previous : Option Op} (plain : ∀ op, previous = some op → op.names = false)
    (op : Op) : op.after previous = op.after none := by
  cases op with
  | word name =>
    cases previous with
    | none => rfl
    | some other =>
      have unnamed := plain other rfl
      cases other with
      | define => cases unnamed
      | declare => cases unnamed
      | _ => rfl
  | _ => rfl

/-- Words mean the same behind an operation that no name follows as at the beginning. -/
theorem sequence_plain {previous : Option Op}
    (plain : ∀ op, previous = some op → op.names = false) (texts : List String) :
    sequence previous texts = sequence none texts := by
  cases texts with
  | nil => rfl
  | cons text texts =>
    rw [sequence, sequence, after_plain plain]

theorem after_assign {previous : Option Op} {op : Op} (assigns : op.after previous = .assign) :
    op = .assign := by
  cases op with
  | word name =>
    cases previous with
    | none => cases assigns
    | some other => cases other <;> cases assigns
  | _ => exact assigns

theorem sequence_assign {previous : Option Op} {texts : List String}
    (assigns : (sequence previous texts).head? = some .assign) :
    (sequence none texts).head? = some .assign := by
  cases texts with
  | nil => cases assigns
  | cons text texts =>
    have same := after_assign (Option.some.inj assigns)
    rw [sequence, same]
    rfl

end Op

def words (lines : List String) : List String :=
  lines.flatMap fun line => (Lexeme.scan line).map Lexeme.text

theorem Token.scanFrom_texts (source : String) (row : Nat) (lines : List String) :
    (Token.scanFrom source row lines).map Token.text = words lines := by
  induction lines generalizing row with
  | nil => rfl
  | cons line lines ih =>
    rw [Token.scanFrom, List.map_append, ih, List.map_map]
    rfl

namespace Program

theorem assemble_ops (previous : Option Op) (tokens : List Token) :
    (assemble previous tokens).map Instruction.op =
      Op.sequence previous (tokens.map Token.text) := by
  induction tokens generalizing previous with
  | nil => rfl
  | cons token tokens ih =>
    rw [assemble, List.map_cons, ih]
    rfl

theorem ofLines_ops (source : String) (lines : List String) :
    (ofLines source lines).ops (ofLines source lines).span = Op.sequence none (words lines) := by
  have code : (ofLines source lines).code.toList = assemble none (Token.scan source lines) := rfl
  rw [ops_span, code, assemble_ops, Token.scan, Token.scanFrom_texts]

theorem ofLines_append (source other : String) (first second : List String) :
    (ofLines source (first ++ second)).ops (ofLines source (first ++ second)).span =
      (ofLines other first).ops (ofLines other first).span ++
        Op.sequence ((ofLines other first).ops (ofLines other first).span).getLast?
          (words second) := by
  have split : words (first ++ second) = words first ++ words second := List.flatMap_append
  rw [ofLines_ops, ofLines_ops, split, Op.sequence_append]
  cases (Op.sequence none (words first)).getLast? <;> rfl

end Program
end StackScript
