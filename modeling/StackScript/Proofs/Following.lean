import StackScript.Proofs.Recursion
import StackScript.Proofs.Slices

/-!
What it means that a driven machine follows a recursive outcome: within finitely many single cycles,
during all of which the block is open, it gets to where the outcome says.
-/
namespace StackScript

def World.machine (w : World) (frames : List Frame) : Machine :=
  { store := w.store, frames := .ofList frames }

namespace Session

def events (s : Session) : List Event :=
  s.log.map Prod.fst

structure Is (s : Session) (m : Machine) (answers : List Answer) (shown : List Event) : Prop where
  machine : s.machine = m
  answers : s.answers = answers
  shown : s.events = shown

def At (s : Session) (frames : List Frame) (w : World) : Prop :=
  s.Is (w.machine frames) w.answers w.shown

/-- Where a block that was entered above `below` has come to. The run is over when the last block
ends, and this is an event as well. -/
def Ends (s : Session) (below : List Frame) : Outcome → Prop
  | .done w =>
    s.Is (w.machine below) w.answers (w.shown ++ if below = [] then [.stopped] else [])
  | .failed fault w => s.Is (w.machine []) w.answers (w.shown ++ [.failed fault])
  | .waiting request w =>
    ∃ inner ≠ [],
      s.Is { w.machine (inner ++ below) with request := some request } w.answers w.shown
  | .unfinished => False

def Busy (s : Session) (outer : Nat) : Prop :=
  s.machine.request = none ∧ (outer < s.machine.frames.size ∨ s.machine.fault ≠ none)

def BusyFor (s : Session) (outer n : Nat) : Prop :=
  ∀ k < n, (s.cycles k).Busy outer

/-- An outcome that is cut off says that the block stays open; how long for, `least` bounds. -/
def Follows (s : Session) (below : List Frame) (least : Nat) (ends : World → Session → Prop) :
    Outcome → Prop
  | .done w => ∃ n, s.BusyFor below.length n ∧ ends w (s.cycles n)
  | .unfinished => ∃ n, least ≤ 2 * n ∧ s.BusyFor below.length n
  | outcome => ∃ n, s.BusyFor below.length n ∧ (s.cycles n).Ends below outcome

theorem Is.unique {s : Session} {m n : Machine} {answers others : List Answer}
    {shown seen : List Event} (one : s.Is m answers shown) (other : s.Is n others seen) :
    m = n ∧ answers = others ∧ shown = seen :=
  ⟨one.machine.symm.trans other.machine, one.answers.symm.trans other.answers,
    one.shown.symm.trans other.shown⟩

section Following

variable {s : Session} {below : List Frame} {least : Nat} {ends : World → Session → Prop}
  {outcome : Outcome}

theorem busyFor_add {outer first second : Nat} (one : s.BusyFor outer first)
    (other : (s.cycles first).BusyFor outer second) : s.BusyFor outer (first + second) := by
  intro k within
  by_cases early : k < first
  · exact one k early
  · obtain ⟨rest, rfl⟩ := Nat.exists_eq_add_of_le (Nat.le_of_not_lt early)
    rw [cycles_add]
    exact other rest (by omega)

theorem busyFor_outside {outer n : Nat} (busy : s.BusyFor (outer + 1) n) : s.BusyFor outer n := by
  intro k within
  obtain ⟨noRequest, deep | fault⟩ := busy k within
  · exact ⟨noRequest, .inl (Nat.lt_of_succ_lt deep)⟩
  · exact ⟨noRequest, .inr fault⟩

theorem Follows.done {w : World} (there : ends w s) : s.Follows below least ends (.done w) :=
  ⟨0, nofun, there⟩

theorem Follows.later {n : Nat} (busy : s.BusyFor below.length n)
    (follows : (s.cycles n).Follows below least ends outcome) :
    s.Follows below (least + 2 * n) ends outcome := by
  cases outcome with
  | unfinished =>
    obtain ⟨k, enough, after⟩ := follows
    exact ⟨n + k, by omega, busyFor_add busy after⟩
  | _ =>
    obtain ⟨k, after, there⟩ := follows
    rw [← cycles_add] at there
    exact ⟨n + k, busyFor_add busy after, there⟩

theorem Follows.weaken {fewer : Nat} (le : fewer ≤ least) (follows : s.Follows below least ends outcome) :
    s.Follows below fewer ends outcome := by
  cases outcome with
  | unfinished =>
    obtain ⟨n, enough, busy⟩ := follows
    exact ⟨n, by omega, busy⟩
  | _ => exact follows

theorem Follows.turn (busy : s.Busy below.length)
    (follows : (s.turn 1).Follows below least ends outcome) :
    s.Follows below (least + 2) ends outcome := by
  refine @Follows.later s below least ends outcome 1 ?_ follows
  intro k first
  cases Nat.lt_one_iff.mp first
  exact busy

theorem Follows.bind {after : World → Session → Prop} {next : World → Outcome}
    (follows : s.Follows below least ends outcome)
    (goes : ∀ w t, ends w t → t.Follows below least after (next w)) :
    s.Follows below least after (outcome.bind next) := by
  cases outcome with
  | done w =>
    obtain ⟨n, busy, there⟩ := follows
    exact ((goes w _ there).later busy).weaken (Nat.le_add_right ..)
  | _ => exact follows

theorem Follows.inside {caller : Frame} {after : World → Session → Prop} {next : World → Outcome}
    (follows : s.Follows (caller :: below) least
      (fun w t => t.Ends (caller :: below) (.done w)) outcome)
    (goes : ∀ w (t : Session), t.At (caller :: below) w → t.Follows below least after (next w)) :
    s.Follows below least after (outcome.bind next) := by
  cases outcome with
  | done w =>
    obtain ⟨n, busy, there⟩ := follows
    refine ((goes w _ ?_).later (busyFor_outside busy)).weaken (Nat.le_add_right ..)
    simpa [Ends, At] using there
  | failed fault w =>
    obtain ⟨n, busy, there⟩ := follows
    exact ⟨n, busyFor_outside busy, there⟩
  | waiting request w =>
    obtain ⟨n, busy, inner, nonempty, waits⟩ := follows
    refine ⟨n, busyFor_outside busy, inner ++ [caller], by simp, ?_⟩
    rw [List.append_assoc]
    exact waits
  | unfinished =>
    obtain ⟨n, enough, busy⟩ := follows
    exact ⟨n, enough, busyFor_outside busy⟩

end Following
end Session
end StackScript
