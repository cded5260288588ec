import Mathlib.Control.Monad.Basic
import StackScript.Terminal
import StackScript.Proofs.Spelling

/-!
Input from a file or a pipe, read line by line. Every read takes the bytes of one line of the text, so
the reads give the lines in order and nothing else; but all carriage returns at the end of a line are
taken for its ending, also those that are a part of the line.
-/
namespace StackScript

namespace Text

def encoded (cs : List Char) : List UInt8 :=
  cs.flatMap String.utf8EncodeChar

theorem encoded_append (cs rest : List Char) : encoded (cs ++ rest) = encoded cs ++ encoded rest :=
  List.flatMap_append

theorem utf8_eq (text : String) : text.toUTF8.data.toList = encoded text.toList := by
  rw [String.toUTF8_eq_toByteArray, ← String.utf8Encode_toList, List.utf8Encode,
    List.data_toByteArray]
  rfl

theorem ofUTF8_encoded (cs : List Char) :
    String.fromUTF8? ⟨(encoded cs).toArray⟩ = some (String.ofList cs) := by
  have same : (⟨(encoded cs).toArray⟩ : ByteArray) = cs.utf8Encode := by
    apply ByteArray.ext
    rw [List.utf8Encode, List.data_toByteArray]
    rfl
  rw [same, String.fromUTF8?, dif_pos ByteArray.isValidUTF8_utf8Encode]
  rfl

theorem encoded_ne_nil {cs : List Char} (nonempty : cs ≠ []) : encoded cs ≠ [] := by
  obtain ⟨c, rest, rfl⟩ := List.exists_cons_of_ne_nil nonempty
  rw [encoded, List.flatMap_cons]
  exact List.append_ne_nil_of_left_ne_nil (String.utf8EncodeChar_ne_nil) _

theorem bytes_of_ascii {c : Char} (ascii : c.val.toNat ≤ 127) :
    String.utf8EncodeChar c = [UInt8.ofNat c.val.toNat] :=
  if_pos ascii

/-- A longer character has no byte of a shorter one. -/
theorem high_bytes {c : Char} (long : 127 < c.val.toNat) :
    ∀ byte ∈ String.utf8EncodeChar c, 127 < byte.toNat := by
  unfold String.utf8EncodeChar
  simp only [Nat.not_le_of_lt long, ↓reduceIte]
  split
  · simp only [List.forall_mem_cons, UInt8.toNat_ofNat']
    refine ⟨?_, ?_, nofun⟩ <;> omega
  · split
    · simp only [List.forall_mem_cons, UInt8.toNat_ofNat']
      refine ⟨?_, ?_, ?_, nofun⟩ <;> omega
    · simp only [List.forall_mem_cons, UInt8.toNat_ofNat']
      refine ⟨?_, ?_, ?_, ?_, nofun⟩ <;> omega

theorem feed_of_byte {c : Char} (member : 10 ∈ String.utf8EncodeChar c) : c = '\n' := by
  have ascii : c.val.toNat ≤ 127 := by
    refine Nat.le_of_not_lt fun long => ?_
    have high := high_bytes long 10 member
    contradiction
  rw [bytes_of_ascii ascii, List.mem_singleton] at member
  have value : c.val.toNat % 256 = 10 := by
    rw [← UInt8.toNat_ofNat', ← member]
    rfl
  apply Char.ext
  apply UInt32.toNat_inj.mp
  show c.val.toNat = 10
  omega

theorem noFeed_encoded {cs : List Char} (inline : '\n' ∉ cs) : 10 ∉ encoded cs := by
  intro member
  obtain ⟨c, inside, byte⟩ := List.mem_flatMap.mp member
  exact inline (feed_of_byte byte ▸ inside)

theorem linesFrom_last {cs : List Char} (nonempty : cs ≠ []) (inline : '\n' ∉ cs) :
    linesFrom [] cs = [String.ofList cs] := by
  have spelled := linesFrom_append [] cs [] fun _ inside => ne_of_mem_of_not_mem inside inline
  rw [List.append_nil, List.append_nil, linesFrom, if_neg (by simpa using nonempty),
    List.reverse_reverse] at spelled
  exact spelled

theorem linesFrom_feed {cs : List Char} (inline : '\n' ∉ cs) (rest : List Char) :
    linesFrom [] (cs ++ '\n' :: rest) =
      String.ofList (dropReturn cs.reverse).reverse :: linesFrom [] rest := by
  rw [linesFrom_append [] cs _ fun _ inside => ne_of_mem_of_not_mem inside inline, List.append_nil,
    linesFrom, if_pos rfl]

def withoutReturns (line : String) : String :=
  String.ofList (line.toList.reverse.dropWhile (· == '\r')).reverse

theorem dropWhile_dropReturn (line : List Char) :
    (dropReturn line).dropWhile (· == '\r') = line.dropWhile (· == '\r') := by
  unfold dropReturn
  split
  · rw [List.dropWhile_cons_of_pos rfl]
  · rfl

theorem withoutReturns_dropReturn (cs : List Char) :
    withoutReturns (String.ofList (dropReturn cs.reverse).reverse) =
      withoutReturns (String.ofList cs) := by
  unfold withoutReturns
  rw [String.toList_ofList, String.toList_ofList, List.reverse_reverse, dropWhile_dropReturn]

theorem withoutReturns_eq_self {line : String} :
    withoutReturns line = line ↔ line.toList.getLast? ≠ some '\r' := by
  unfold withoutReturns
  rw [List.getLast?_eq_head?_reverse, ← String.toList_inj, String.toList_ofList,
    List.reverse_eq_iff]
  cases line.toList.reverse with
  | nil => simp
  | cons c rest =>
    by_cases carriage : c = '\r'
    · subst carriage
      have shorter : (rest.dropWhile (· == '\r')).length < ('\r' :: rest).length :=
        Nat.lt_succ_of_le (List.dropWhile_sublist _).length_le
      have other : rest.dropWhile (· == '\r') ≠ '\r' :: rest :=
        fun same => Nat.ne_of_lt shorter (congrArg List.length same)
      simpa using other
    · simp [carriage]

end Text

theorem dropWhile_inline {line : List Char} (inline : '\n' ∉ line) :
    (line.dropWhile fun c => c == '\n' || c == '\r') = line.dropWhile (· == '\r') := by
  induction line with
  | nil => rfl
  | cons c line ih =>
    obtain ⟨first, others⟩ := List.ne_and_not_mem_of_not_mem_cons inline
    simp [List.dropWhile_cons, first.symm, ih others]

theorem inputLine_encoded {cs : List Char} (nonempty : cs ≠ []) :
    inputLine (Text.encoded cs) = .ok (String.ofList
      (cs.reverse.dropWhile fun c => c == '\n' || c == '\r').reverse) := by
  have filled : (Text.encoded cs).isEmpty = false := by
    simpa using Text.encoded_ne_nil nonempty
  simp [inputLine, filled, Text.ofUTF8_encoded]

theorem inputLine_last {cs : List Char} (nonempty : cs ≠ []) (inline : '\n' ∉ cs) :
    inputLine (Text.encoded cs) = .ok (Text.withoutReturns (String.ofList cs)) := by
  rw [inputLine_encoded nonempty, dropWhile_inline (by simpa using inline), Text.withoutReturns,
    String.toList_ofList]

theorem inputLine_feed {cs : List Char} (inline : '\n' ∉ cs) :
    inputLine (Text.encoded cs ++ [10]) = .ok (Text.withoutReturns (String.ofList cs)) := by
  have feed : Text.encoded cs ++ [10] = Text.encoded (cs ++ ['\n']) :=
    (Text.encoded_append cs ['\n']).symm
  rw [feed, inputLine_encoded (by simp), List.reverse_append, List.reverse_singleton,
    List.singleton_append, List.dropWhile_cons_of_pos rfl, dropWhile_inline (by simpa using inline),
    Text.withoutReturns, String.toList_ofList]

namespace Terminal

theorem splitLine_last {line : List UInt8} (noFeed : 10 ∉ line) : splitLine line = (line, []) := by
  induction line with
  | nil => rfl
  | cons byte line ih =>
    obtain ⟨first, others⟩ := List.ne_and_not_mem_of_not_mem_cons noFeed
    rw [splitLine, if_neg first.symm, ih others]

theorem splitLine_feed {line : List UInt8} (noFeed : 10 ∉ line) (rest : List UInt8) :
    splitLine (line ++ 10 :: rest) = (line ++ [10], rest) := by
  induction line with
  | nil => rfl
  | cons byte line ih =>
    obtain ⟨first, others⟩ := List.ne_and_not_mem_of_not_mem_cons noFeed
    rw [List.cons_append, splitLine, if_neg first.symm, ih others]
    rfl

theorem readLine_eq (prompt shown : String) (input : List UInt8) :
    (readLine prompt).run ⟨input, shown⟩ =
      (inputLine (splitLine input).1, ⟨(splitLine input).2, shown ++ prompt⟩) := rfl

/-- What the reads give, in turn, if they deliver these lines. -/
def delivery (lines : List String) (i : Nat) : Except Fault String :=
  match lines[i]? with
  | some line => .ok line
  | none => .error { kind := .inputPastEnd }

theorem delivery_tail (lines : List String) (i : Nat) :
    delivery lines.tail i = delivery lines (i + 1) := by
  unfold delivery
  rw [List.getElem?_tail]

theorem readLine_encoded (prompt shown : String) (cs : List Char) : ∃ rest,
    (readLine prompt).run ⟨Text.encoded cs, shown⟩ =
      (delivery ((Text.linesFrom [] cs).map Text.withoutReturns) 0,
        ⟨Text.encoded rest, shown ++ prompt⟩) ∧
      Text.linesFrom [] rest = (Text.linesFrom [] cs).tail := by
  by_cases broken : '\n' ∈ cs
  · obtain ⟨line, rest, rfl, inline⟩ := List.eq_append_cons_of_mem broken
    have bytes : Text.encoded (line ++ '\n' :: rest) =
        Text.encoded line ++ 10 :: Text.encoded rest := Text.encoded_append line ('\n' :: rest)
    rw [Text.linesFrom_feed inline, readLine_eq, bytes, splitLine_feed (Text.noFeed_encoded inline)]
    dsimp only
    rw [inputLine_feed inline, List.map_cons, Text.withoutReturns_dropReturn]
    exact ⟨rest, rfl, rfl⟩
  · by_cases nothing : cs = []
    · subst nothing
      exact ⟨[], rfl, rfl⟩
    · rw [Text.linesFrom_last nothing broken, readLine_eq,
        splitLine_last (Text.noFeed_encoded broken)]
      dsimp only
      rw [inputLine_last nothing broken]
      exact ⟨[], rfl, rfl⟩

theorem reads_encoded (prompts : List String) (shown : String) (cs : List Char) :
    ((prompts.mapM readLine).run ⟨Text.encoded cs, shown⟩).1 =
      (List.range prompts.length).map
        (delivery ((Text.linesFrom [] cs).map Text.withoutReturns)) := by
  induction prompts generalizing shown cs with
  | nil => rfl
  | cons prompt prompts ih =>
    obtain ⟨rest, read, later⟩ := readLine_encoded prompt shown cs
    have reads := ih (shown ++ prompt) rest
    rw [later, List.map_tail] at reads
    rw [List.length_cons, List.range_succ_eq_map, List.map_cons, List.map_map, List.mapM_cons,
      StateT.run_bind, read]
    refine congrArg _ (reads.trans (List.map_congr_left ?_))
    intro i _
    exact delivery_tail _ i

/-- Whatever text is piped in and whatever is asked for, the reads give the lines of the text in
order, each without the carriage returns at its end, and then that the input is over. These are the
lines that the text has as a program just when none of them ends in a carriage return. -/
theorem piped_lines (text : String) :
    (∀ (shown : String) (prompts : List String),
      ((prompts.mapM readLine).run ⟨text.toUTF8.data.toList, shown⟩).1 =
        (List.range prompts.length).map
          (delivery ((Text.lines text).map Text.withoutReturns))) ∧
    ((∀ (shown : String) (prompts : List String),
      ((prompts.mapM readLine).run ⟨text.toUTF8.data.toList, shown⟩).1 =
        (List.range prompts.length).map (delivery (Text.lines text))) ↔
      ∀ line ∈ Text.lines text, line.toList.getLast? ≠ some '\r') := by
  have reads : ∀ (shown : String) (prompts : List String),
      ((prompts.mapM readLine).run ⟨text.toUTF8.data.toList, shown⟩).1 =
        (List.range prompts.length).map
          (delivery ((Text.lines text).map Text.withoutReturns)) := by
    intro shown prompts
    rw [Text.utf8_eq]
    exact reads_encoded prompts shown text.toList
  refine ⟨reads, ?_, ?_⟩
  · intro whole line member
    obtain ⟨i, inside, rfl⟩ := List.mem_iff_getElem.mp member
    have same := (reads "" (List.replicate (i + 1) "")).symm.trans (whole "" _)
    have here := List.map_inj_left.mp same i (by simp)
    rw [delivery, delivery, List.getElem?_map, List.getElem?_eq_getElem inside] at here
    exact Text.withoutReturns_eq_self.mp (Except.ok.inj here)
  · intro whole shown prompts
    have same : (Text.lines text).map Text.withoutReturns = Text.lines text :=
      (List.map_congr_left fun line member => Text.withoutReturns_eq_self.mpr (whole line member)).trans
        (List.map_id _)
    rw [reads, same]

/-- Two lines, each of which ends in a carriage return of its own. -/
theorem piped_lines_returns :
    let text := "a\r\r\nb\r"
    let reads := ((["", "", ""].mapM readLine).run ⟨text.toUTF8.data.toList, ""⟩).1
    Text.lines text = ["a\r", "b\r"] ∧
      reads = [.ok "a", .ok "b", .error { kind := .inputPastEnd }] ∧
      reads ≠ (List.range 3).map (delivery (Text.lines text)) := by
  decide +kernel

end Terminal
end StackScript
