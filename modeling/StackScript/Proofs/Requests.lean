import StackScript.Proofs.BlockScope
import StackScript.Proofs.FaultPlace
import StackScript.Proofs.Interrupts

/-!
Requests and their answers. A request waits for as long as it takes; the block that made it stands
right behind the operation that did, and nothing that an attached program does moves it from there.
-/
namespace StackScript

def Call.single : Call → Bool
  | .load _ | .direct _ => false
  | .execute cycles => cycles == 1
  | .interrupt | .fail _ | .enter _ | .attach _ => true

namespace Machine

/-- The machines that a run passes through, one cycle or one other call at a time. -/
inductive Leads (m : Machine) : Machine → Prop where
  | here : Leads m m
  | later {t : Machine} (before : Leads m t) (call : Call) (single : call.single = true) :
      Leads m (t.after call)

section Leads

variable {m t : Machine}

theorem Leads.execute (leads : m.Leads t) (cycles : Nat) : m.Leads (t.execute cycles).1 := by
  have one (t : Machine) (leads : m.Leads t) : m.Leads (t.execute 1).1 := leads.later (.execute 1) rfl
  induction cycles generalizing t with
  | zero =>
    by_cases ready : t.Ready
    · rw [execute_ready ready]
      exact leads
    · rw [← (execute_waiting ready 1).1]
      exact one t leads
  | succ cycles ih =>
    rw [Nat.add_comm]
    by_cases running : (t.execute 1).2 = .running
    · rw [← execute_add 1 cycles running]
      exact ih (one t leads)
    · rw [execute_event 1 cycles running]
      exact one t leads

theorem Leads.afterAll (leads : m.Leads t) (calls : List Call)
    (same : ∀ call ∈ calls, call.starts = false) : m.Leads (t.afterAll calls) := by
  induction calls generalizing t with
  | nil => exact leads
  | cons call calls ih =>
    obtain ⟨first, others⟩ := List.forall_mem_cons.mp same
    refine ih ?_ others
    cases call with
    | load | direct => cases first
    | execute cycles => exact leads.execute cycles
    | interrupt | fail | enter | attach => exact leads.later _ rfl

end Leads

section Waiting

variable {m : Machine} {request : Request}

theorem executions_ask (noFault : m.fault = none) (asked : m.request = some request)
    (budgets : List Nat) : m.afterAll (budgets.map .execute) = m ∧
      m.reports (budgets.map .execute) = budgets.map fun _ => .ask request := by
  induction budgets with
  | nil => exact ⟨rfl, rfl⟩
  | cons cycles budgets ih =>
    have asks := execute_asking cycles noFault asked
    simp only [List.map_cons, afterAll, after, reports, asks]
    exact ⟨ih.1, congrArg _ ih.2⟩

theorem asking_block (reached : m.Reachable) (asked : m.request = some request) :
    ∃ frame below address, m.frames = .ofList (frame :: below) ∧ frame.next = address + 1 ∧
      frame.program.op? address = some request.op := by
  obtain ⟨-, asker, frame, made⟩ := lasting_asked.reachable reached request asked
  obtain ⟨here, below, frames⟩ := made.stands
  exact ⟨_, below, frame.next, frames, rfl, here⟩

end Waiting

section Harvest

variable {m after : Machine} {frame inner : Frame} {below base : List Frame}

theorem moves_closed {event : Option Event} (moved : m.Moves frame below after event)
    (frames : m.frames = .ofList (frame :: below)) (opened : m.Opened inner base)
    (low : after.frames.items.length ≤ base.length) :
    after.frames = .ofList base ∧ after.fault = m.fault ∧ after.request = m.request ∨
      after.isRunning = false := by
  obtain ⟨above, next, same⟩ := opened
  rw [frames, Stack.items_ofList] at same
  obtain ⟨short, whole⟩ :
      base.length ≤ below.length ∧ (base.length = below.length → below = base) := by
    cases above with
    | nil =>
      cases same
      exact ⟨Nat.le_refl _, fun _ => rfl⟩
    | cons top above =>
      have rest : below = above ++ inner.resumeAt next :: base := (List.cons.inj same).2
      rw [rest, List.length_append, List.length_cons]
      omega
  cases moved with
  | passes | works | repeats | starts => exact absurd low (Nat.not_le.mpr (Nat.lt_succ_of_le short))
  | enters => exact absurd low (Nat.not_le.mpr (Nat.lt_succ_of_lt (Nat.lt_succ_of_le short)))
  | closes =>
    rw [whole (Nat.le_antisymm short low)]
    exact .inl ⟨rfl, rfl, rfl⟩
  | misses | fails | overflows | doubts | chokes => exact .inr rfl

/-- The run has come back to the frames `base`, or it is over. -/
def Left (m : Machine) (base : List Frame) : Prop :=
  m.frames = .ofList base ∧ m.fault = none ∧ m.request = none ∨ m.isRunning = false

theorem cycle_opened (opened : m.Opened inner base) (kind : inner.kind ≠ .entry) :
    (m.execute 1).1.Opened inner base ∨ (m.execute 1).1.Left base := by
  obtain ⟨frame, below, frames⟩ := opened.nonempty
  by_cases ready : m.Ready
  · rw [execute_step ready]
    have moved := step_moves frames
    rcases Nat.lt_or_ge base.length m.step.1.frames.items.length with deep | low
    · exact .inl (moves_opened moved frames opened kind deep)
    · rcases moves_closed moved frames opened low with ⟨back, fault, request⟩ | ended
      · exact .inr (.inl ⟨back, fault.trans ready.noFault, request.trans ready.noRequest⟩)
      · exact .inr (.inr ended)
  · unfold Machine.execute
    split
    · exact .inl opened
    · exact .inl opened
    · have running := running_of_frames frames
      cases alert : m.interrupted with
      | true =>
        simp only [running, Bool.and_self, ↓reduceIte]
        exact .inr (.inr rfl)
      | false => exact absurd ⟨‹_›, ‹_›, running, alert⟩ ready

theorem call_opened (opened : m.Opened inner base) (kind : inner.kind ≠ .entry) {call : Call}
    (single : call.single = true) : (m.after call).Opened inner base ∨ (m.after call).Left base := by
  cases call with
  | load | direct => cases single
  | execute cycles =>
    cases eq_of_beq single
    exact cycle_opened opened kind
  | interrupt => exact .inl opened
  | fail fault => exact .inr (.inr rfl)
  | enter line =>
    rcases m.enter_cases line with same | ⟨-, entered⟩
    · rw [after, same]
      exact .inl opened
    · rw [after, entered]
      exact .inl opened
  | attach program =>
    rcases m.attach_cases program with same | ⟨path, -, full | ⟨-, attached⟩⟩
    · rw [after, same]
      exact .inl opened
    · rw [after, full]
      exact .inr (.inr rfl)
    · rw [after, attached]
      exact .inl (opened.push _ rfl)

theorem leads_opened {t : Machine} (opened : m.Opened inner base) (kind : inner.kind ≠ .entry)
    (leads : m.Leads t) : t.Opened inner base ∨ ∃ s, m.Leads s ∧ s.Leads t ∧ s.Left base := by
  induction leads with
  | here => exact .inl opened
  | later before call single ih =>
    rcases ih with still | ⟨s, first, second, left⟩
    · rcases call_opened still kind single with still | left
      · exact .inl still
      · exact .inr ⟨_, before.later call single, .here, left⟩
    · exact .inr ⟨s, first, second.later call single, left⟩

end Harvest
end Machine
end StackScript
