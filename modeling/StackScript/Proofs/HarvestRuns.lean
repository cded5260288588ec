import StackScript.Proofs.Harvest
import StackScript.Proofs.Slices

/-!
A loaded program harvests its top level before anything else. One cycle of the top level is one
operation of the walk; an attached program takes a frame of its own, which is gone when its own
harvest is done. The induction is on the room for such frames.
-/
namespace StackScript

def Frame.whole (kind : Frame.Kind) (program : Program) (address : Nat) : Frame :=
  ⟨kind, program, program.span, address, 0⟩

namespace Harvest

def machine (h : Harvest) (frames : List Frame) : Machine :=
  { store := h.store, frames := .ofList frames }

def asking (h : Harvest) (path : String) (frames : List Frame) : Machine :=
  { h.machine frames with request := some (.program path) }

theorem ready (h : Harvest) (frame : Frame) (below : List Frame) :
    (h.machine (frame :: below)).Ready :=
  ⟨rfl, rfl, rfl, rfl⟩

def Matches (site : Site) (op : Op) (h : Harvest) : Except Fault (Nat × Harvest) → Prop
  | .ok (next, after) => ∃ control,
      op.perform site h.store = .ok control after.store ∧ control.resume site.address = next ∧
      control.request? = none ∧ control.event? = none ∧
      ∀ resume inner, control ≠ .enter resume inner
  | .error fault => ∃ raised,
      op.perform site h.store = .error raised h.store ∧
      raised.locate (site.program.location? site.address) = fault

theorem operand_whole (program : Program) (address scope : Nat) :
    Site.operand? ⟨program, address, program.size, scope⟩ = program.op? (address + 1) := by
  unfold Site.operand?
  split
  · rfl
  · cases found : program.op? (address + 1) with
    | none => rfl
    | some op =>
      have exist := (program.op_isSome_iff (address + 1)).mp (by rw [found]; rfl)
      contradiction

section Site

variable (program : Program) (address : Nat) (h : Harvest)

theorem define_matches :
    Matches ⟨program, address, program.size, 0⟩ .define h (take program address h .define) := by
  have performed : Op.perform ⟨program, address, program.size, 0⟩ .define h.store =
      Op.performDefine ⟨program, address, program.size, 0⟩ h.store := rfl
  unfold Op.performDefine at performed
  rw [operand_whole] at performed
  unfold take
  cases named : program.op? (address + 1) with
  | none =>
    rw [named] at performed
    exact ⟨_, performed, rfl⟩
  | some operand =>
    rw [named] at performed
    cases operand with
    | functionName name =>
      simp only [Change.bind_eq, Site.block, Change.require_eq] at performed
      cases found : Block.find program address program.size false with
      | error fault =>
        simp only [found] at performed
        refine ⟨fault, performed, ?_⟩
        rw [← Block.find_place found, Fault.locate_same]
      | ok block =>
        simp only [found] at performed
        exact ⟨.jump (block.close + 1), performed, rfl, rfl, rfl, by simp⟩
    | _ => exact ⟨_, performed, rfl⟩

theorem declare_matches :
    Matches ⟨program, address, program.size, 0⟩ .declare h (take program address h .declare) := by
  have performed : Op.perform ⟨program, address, program.size, 0⟩ .declare h.store =
      Op.performDeclare ⟨program, address, program.size, 0⟩ h.store := rfl
  unfold Op.performDeclare at performed
  rw [operand_whole] at performed
  unfold take
  cases named : program.op? (address + 1) with
  | none =>
    rw [named] at performed
    exact ⟨_, performed, rfl⟩
  | some operand =>
    rw [named] at performed
    cases operand with
    | variableName name => exact ⟨.jump (address + 2), performed, rfl, rfl, rfl, by simp⟩
    | _ => exact ⟨_, performed, rfl⟩

theorem take_matches {op : Op} (due : op.isTopLevel = true) (other : op = .attach → False) :
    Matches ⟨program, address, program.size, 0⟩ op h (take program address h op) := by
  cases op with
  | push value => exact ⟨.proceed, rfl, rfl, rfl, rfl, by simp⟩
  | define => exact define_matches program address h
  | declare => exact declare_matches program address h
  | attach => exact (other rfl).elim
  | _ => cases due

end Site

theorem step_takes {kind : Frame.Kind} (top : kind.isTopLevel = true) {program : Program}
    {address : Nat} {op : Op} (here : program.op? address = some op) (other : op = .attach → False)
    (h : Harvest) (below : List Frame) :
    (h.machine (.whole kind program address :: below)).step =
      match take program address h op with
      | .ok (next, after) => (after.machine (.whole kind program next :: below), none)
      | .error fault => (h.machine [], some (.failed fault)) := by
  have inside := (program.op_isSome_iff address).mp (by rw [here]; rfl)
  have frames : (h.machine (.whole kind program address :: below)).frames =
    .ofList (.whole kind program address :: below) := rfl
  by_cases due : op.isTopLevel = true
  · have matched := take_matches program address h due other
    have counts : (kind.isTopLevel && !op.isTopLevel) = false := by
      rw [due, Bool.not_true, Bool.and_false]
    cases taken : take program address h op with
    | error fault =>
      rw [taken] at matched
      obtain ⟨raised, performed, rfl⟩ := matched
      exact Machine.step_fails frames inside here counts performed
    | ok result =>
      obtain ⟨next, after⟩ := result
      rw [taken] at matched
      obtain ⟨control, performed, rfl, asks, shows, within⟩ := matched
      rw [Machine.step_works frames inside here counts performed within, asks, shows]
      rfl
  · rw [Machine.step_passes frames inside here (by simp [Frame.whole, top, due])]
    cases op with
    | push | define | declare | attach => exact absurd rfl due
    | _ => rfl

theorem step_attaches (kind : Frame.Kind) {program : Program} {address : Nat}
    (here : program.op? address = some .attach) (h : Harvest) (below : List Frame) :
    (h.machine (.whole kind program address :: below)).step =
      match h.values.top? with
      | some path =>
        (({ h with values := h.values.drop }).asking path.text
            (.whole kind program (address + 1) :: below),
          some (.ask (.program path.text)))
      | none =>
        (h.machine [],
          some (.failed { kind := .stackUnderflow, place := program.location? address })) := by
  have inside := (program.op_isSome_iff address).mp (by rw [here]; rfl)
  have frames : (h.machine (.whole kind program address :: below)).frames =
    .ofList (.whole kind program address :: below) := rfl
  have counts : (kind.isTopLevel && !Op.isTopLevel .attach) = false := Bool.and_false _
  have performed := Change.bind_eq Change.pop
    (fun path => (pure (.ask (.program path.text)) : Change Control)) h.store
  rw [Change.pop_eq] at performed
  simp only [store] at performed
  cases top : h.values.top? with
  | none =>
    simp only [top] at performed
    exact Machine.step_fails frames inside here counts performed
  | some path =>
    simp only [top] at performed
    rw [Machine.step_works frames inside here counts performed (by simp)]
    rfl

theorem attach_asking (h : Harvest) (path : String) (frame : Frame) (below : List Frame)
    (global : frame.scope = 0) (file : Program) :
    (h.asking path (frame :: below)).attach file =
      if Stack.capacity ≤ below.length + 1 then (h.asking path (frame :: below)).fail Machine.overflow
      else h.machine (.whole .attached file 0 :: frame :: below) := by
  rw [Machine.attach_eq rfl file (frame :: below) rfl, List.length_cons]
  split
  · rfl
  · simp only [List.head?_cons, Option.map_some, Option.getD_some, global]
    rfl

section Ends

variable (h : Harvest) (program : Program)

theorem step_detaches (frame : Frame) (below : List Frame) :
    (h.machine (.whole .attached program program.size :: frame :: below)).step =
      (h.machine (frame :: below), none) := by
  have frames : (h.machine (.whole .attached program program.size :: frame :: below)).frames =
    .ofList (.whole .attached program program.size :: frame :: below) := rfl
  rw [Machine.finish_closes frames (Nat.le_refl program.size) (by simp [Frame.whole]) rfl]
  rfl

theorem step_main {body : Body} (main : h.functions["main"]? = some body) :
    (h.machine [.whole .entry program program.size]).step =
      (({ h with values := .empty }).machine [.start .block body.program body.span 0], none) := by
  have frames : (h.machine [.whole .entry program program.size]).frames =
    .ofList [.whole .entry program program.size] := rfl
  rw [Machine.finish_starts frames (Nat.le_refl program.size) rfl main (by decide)]
  rfl

theorem step_stops (missing : h.functions["main"]? = none) :
    (h.machine [.whole .entry program program.size]).step = (h.machine [], some .stopped) := by
  have frames : (h.machine [.whole .entry program program.size]).frames =
    .ofList [.whole .entry program program.size] := rfl
  rw [Machine.finish_closes frames (Nat.le_refl program.size) (by simp [Frame.whole]) missing]
  rfl

end Ends

end Harvest

namespace Host

variable {σ : Type} {console : Console (StateM σ)} {source : Source (StateM σ)}

def Reaches (console : Console (StateM σ)) (source : Source (StateM σ)) (m : Machine) (world : σ)
    (after : Machine) (ending : σ) : Prop :=
  ∃ turns, ∀ more, run console source 1 (turns + more) m world =
    run console source 1 more after ending

def Fails (console : Console (StateM σ)) (source : Source (StateM σ)) (m : Machine) (world : σ)
    (after : Machine) (fault : Fault) (ending : σ) : Prop :=
  ∃ turns, run console source 1 turns m world = ((after, some (.error fault)), ending)

variable {m next after : Machine} {world between ending : σ} {fault : Fault}

theorem Reaches.refl : Reaches console source m world m world :=
  ⟨0, fun more => by rw [Nat.zero_add]⟩

theorem Reaches.trans (first : Reaches console source m world next between)
    (second : Reaches console source next between after ending) :
    Reaches console source m world after ending := by
  obtain ⟨turns, first⟩ := first
  obtain ⟨others, second⟩ := second
  refine ⟨turns + others, fun more => ?_⟩
  rw [Nat.add_assoc, first, second]

theorem Reaches.fails (first : Reaches console source m world next between)
    (fails : Fails console source next between after fault ending) :
    Fails console source m world after fault ending := by
  obtain ⟨turns, first⟩ := first
  obtain ⟨others, fails⟩ := fails
  exact ⟨turns + others, (first others).trans fails⟩

theorem Reaches.finishes_iff (reaches : Reaches console source m world next between)
    (after : Machine) (result : Except Fault Unit) (ending : σ) :
    (∃ turns, run console source 1 turns m world = ((after, some result), ending)) ↔
      ∃ turns, run console source 1 turns next between = ((after, some result), ending) := by
  obtain ⟨first, reaches⟩ := reaches
  constructor
  · intro ⟨turns, finished⟩
    have later := run_finished finished first
    rw [Nat.add_comm, reaches] at later
    exact ⟨turns, later⟩
  · intro ⟨turns, finished⟩
    exact ⟨first + turns, (reaches turns).trans finished⟩

theorem Reaches.turn (turned : turn console source 1 m world = ((after, none), ending)) :
    Reaches console source m world after ending := by
  refine ⟨1, fun more => ?_⟩
  rw [Nat.add_comm 1, run_succ, turned]
  rfl

section Turns

variable (calm : console.interrupted = pure false)
include calm

theorem reaches_step (ready : m.Ready) (stepped : m.step = (after, none)) (world : σ) :
    Reaches console source m world after world := by
  have executed := Machine.execute_one ready stepped
  refine .turn ?_
  rw [turn_running calm (by rw [executed]; rfl), executed]

theorem fails_execute (executed : m.execute 1 = (after, .failed fault)) (world : σ) :
    Fails console source m world after fault world := by
  refine ⟨1, ?_⟩
  rw [run_succ, turn_calm calm, executed]
  rfl

theorem fails_step (ready : m.Ready) (stepped : m.step = (after, some (.failed fault)))
    (world : σ) : Fails console source m world after fault world :=
  fails_execute calm (Machine.execute_one ready stepped) world

theorem fails_fail (m : Machine) (fault : Fault) (world : σ) :
    Fails console source (m.fail fault) world { m.stop with fault := none }
      (fault.locate m.lastPlace) world :=
  fails_execute calm rfl world

theorem reaches_attach {path : String} (ready : m.Ready)
    (stepped : m.step = (next, some (.ask (.program path)))) {file : Program}
    (found : read source path world = (.ok file, ending)) :
    Reaches console source m world (next.attach file) ending := by
  refine .turn ?_
  rw [turn_calm calm, Machine.execute_one ready stepped]
  simp only [Option.getD_some, answer, bind, StateT.bind, found]
  rfl

theorem fails_read {path : String} (ready : m.Ready)
    (stepped : m.step = (next, some (.ask (.program path))))
    (unread : read source path world = (.error fault, ending)) :
    Fails console source m world { next.stop with fault := none } (fault.locate next.lastPlace)
      ending := by
  refine Reaches.fails (.turn ?_) (fails_fail calm next fault ending)
  rw [turn_calm calm, Machine.execute_one ready stepped]
  simp only [Option.getD_some, answer, bind, StateT.bind, unread]
  rfl

end Turns

end Host

namespace Harvest

variable {σ : Type} {console : Console (StateM σ)} {source : Source (StateM σ)}

/-- A run that does from `m` on what a harvest says, with `frames` left when that is done. -/
def Outcome.Shows (console : Console (StateM σ)) (source : Source (StateM σ)) (m : Machine)
    (world : σ) (frames : List Frame) : Outcome σ → Prop
  | .done h ending => Host.Reaches console source m world (h.machine frames) ending
  | .failed fault h ending => Host.Fails console source m world (h.machine []) fault ending
  | .tooDeep place h ending =>
    Host.Fails console source m world (h.machine []) (Machine.overflow.locate place) ending

theorem Outcome.Shows.after {m next : Machine} {world between : σ} {frames : List Frame}
    {outcome : Outcome σ} (first : Host.Reaches console source m world next between)
    (shows : outcome.Shows console source next between frames) :
    outcome.Shows console source m world frames := by
  cases outcome with
  | done => exact first.trans shows
  | failed | tooDeep => exact first.fails shows

theorem Outcome.Shows.bind {m : Machine} {world : σ} {frames others : List Frame}
    {outcome : Outcome σ} {next : Harvest → σ → Outcome σ}
    (shows : outcome.Shows console source m world frames)
    (rest : ∀ h world, (next h world).Shows console source (h.machine frames) world others) :
    (outcome.bind next).Shows console source m world others := by
  cases outcome with
  | done h ending => exact .after shows (rest h ending)
  | failed | tooDeep => exact shows

theorem Outcome.Shows.further {m : Machine} {world : σ} {frames others : List Frame}
    {outcome : Outcome σ} (shows : outcome.Shows console source m world frames)
    (rest : ∀ (h : Harvest) world,
      Host.Reaches console source (h.machine frames) world (h.machine others) world) :
    outcome.Shows console source m world others := by
  cases outcome with
  | done h ending => exact Host.Reaches.trans shows (rest h ending)
  | failed | tooDeep => exact shows

/-- Above `depth` frames there is either no room, or `inclusion` is what an attached program shows. -/
def Serves (console : Console (StateM σ)) (source : Source (StateM σ)) (depth : Nat) :
    Option (Program → Harvest → σ → Outcome σ) → Prop
  | none => Stack.capacity ≤ depth
  | some attached => depth < Stack.capacity ∧
    ∀ file h world (frame : Frame) (below : List Frame), below.length + 1 = depth →
      (attached file h world).Shows console source
        (h.machine (.whole .attached file 0 :: frame :: below)) world (frame :: below)

section Runs

variable (calm : console.interrupted = pure false)
include calm

theorem attachment_shows {inclusion : Option (Program → Harvest → σ → Outcome σ)}
    {below : List Frame} (serves : Serves console source (below.length + 1) inclusion)
    {kind : Frame.Kind} {program : Program} {address : Nat}
    (here : program.op? address = some .attach) (h : Harvest) (world : σ) :
    (attachment (Host.read source) inclusion (program.location? address) h world).Shows
      console source (h.machine (.whole kind program address :: below)) world
      (.whole kind program (address + 1) :: below) := by
  have stepped := step_attaches kind here h below
  unfold attachment
  cases top : h.values.top? with
  | none =>
    rw [top] at stepped
    exact Host.fails_step calm (ready ..) stepped world
  | some path =>
    rw [top] at stepped
    rcases found : Host.read source path.text world with ⟨fault | file, between⟩
    · simp only [found]
      exact Host.fails_read calm (ready ..) stepped found
    · simp only [found]
      have answered : Host.Reaches console source _ world _ between :=
        Host.reaches_attach calm (ready ..) stepped found
      rw [attach_asking _ _ _ _ rfl] at answered
      cases inclusion with
      | none =>
        have full : Stack.capacity ≤ below.length + 1 := serves
        rw [if_pos full] at answered
        exact answered.fails (Host.fails_fail calm _ _ between)
      | some attached =>
        obtain ⟨space, serves⟩ := serves
        rw [if_neg (Nat.not_le.mpr space)] at answered
        exact .after answered (serves file _ between _ below rfl)

theorem walk_shows {inclusion : Option (Program → Harvest → σ → Outcome σ)} {below : List Frame}
    (serves : Serves console source (below.length + 1) inclusion) {kind : Frame.Kind}
    (top : kind.isTopLevel = true) {program : Program} {address : Nat}
    (within : address ≤ program.size) (h : Harvest) (world : σ) :
    (walk (Host.read source) inclusion program address h world).Shows console source
      (h.machine (.whole kind program address :: below)) world
      (.whole kind program program.size :: below) := by
  fun_induction walk (Host.read source) inclusion program address h world with
  | case1 address h world missing =>
    have beyond : ¬address < program.size := by
      rw [← program.op_isSome_iff, missing]
      exact Bool.false_ne_true
    rw [Nat.le_antisymm within (Nat.not_lt.mp beyond)]
    exact Host.Reaches.refl
  | case2 address h world here ih =>
    have exist := (program.op_isSome_iff address).mp (by rw [here]; rfl)
    exact (attachment_shows calm serves here h world).bind fun h world => ih h world exist
  | case3 address h world op other here fault taken =>
    have stepped := step_takes top here other h below
    rw [taken] at stepped
    exact Host.fails_step calm (ready ..) stepped world
  | case4 address h world op other here next after taken ih =>
    have stepped := step_takes top here other h below
    rw [taken] at stepped
    exact .after (Host.reaches_step calm (ready ..) stepped world) (ih (take_next here taken).2)

theorem harvest_shows {room : Nat} {below : List Frame}
    (space : below.length + 1 + room = Stack.capacity) {kind : Frame.Kind}
    (top : kind.isTopLevel = true) (program : Program) (h : Harvest) (world : σ) :
    (harvest (Host.read source) room program h world).Shows console source
      (h.machine (.whole kind program 0 :: below)) world
      (.whole kind program program.size :: below) := by
  induction room generalizing kind program h world below with
  | zero =>
    -- the frames below have taken up all the room
    have full : Serves console source (below.length + 1) none := Nat.le_of_eq space.symm
    exact walk_shows calm full top (Nat.zero_le _) h world
  | succ room ih =>
    have serves : Serves console source (below.length + 1)
        (some (harvest (Host.read source) room)) := by
      refine ⟨by omega, ?_⟩
      intro file h world frame others same
      refine (ih (by simp only [List.length_cons]; omega) rfl file h world).further ?_
      intro h world
      exact Host.reaches_step calm (ready ..) (step_detaches h file frame others) world
    exact walk_shows calm serves top (Nat.zero_le _) h world

end Runs
end Harvest

/-- A loaded program brings in what its harvest says, whatever the machine held before: the values,
global variables and functions of its top level and of all that is attached there, read in order. Then
`main` runs on an empty stack, if there is one. A harvest that fails ends the run with its fault. All
this needs no more frames than there can be; a harvest that would is stopped by the full stack. -/
theorem Machine.load_harvests (m : Machine) (program : Program) {σ : Type}
    (console : Console (StateM σ)) (source : Source (StateM σ))
    (calm : console.interrupted = pure false) (world : σ) (room : Nat)
    (within : room < Stack.capacity) :
    match Harvest.harvest (Host.read source) room program {} world with
    | .done h ending =>
      (∃ turns, Host.run console source 1 turns (m.load program) world =
        ((h.machine [.whole .entry program program.size], none), ending)) ∧
      ∀ cycles, 0 < cycles →
        match h.functions["main"]? with
        | some body => ∀ after result last,
          (∃ turns, Host.run console source cycles turns (m.load program) world =
            ((after, some result), last)) ↔
          ∃ turns, Host.run console source cycles turns
            (({ h with values := .empty }).machine [.start .block body.program body.span 0]) ending =
              ((after, some result), last)
        | none => ∃ turns, Host.run console source cycles turns (m.load program) world =
            ((h.machine [], some (.ok ())), ending)
    | .failed fault h ending => ∀ cycles, 0 < cycles →
      ∃ turns, Host.run console source cycles turns (m.load program) world =
        ((h.machine [], some (.error fault)), ending)
    | .tooDeep place h ending => room + 1 = Stack.capacity → ∀ cycles, 0 < cycles →
      ∃ turns, Host.run console source cycles turns (m.load program) world =
        ((h.machine [], some (.error (overflow.locate place))), ending) := by
  obtain ⟨more, enough⟩ := Nat.exists_eq_add_of_lt within
  have top : Frame.Kind.entry.isTopLevel = true := rfl
  have depth : ([] : List Frame).length + 1 + (room + more) = Stack.capacity := by
    simp only [List.length_nil]
    omega
  have shows : (Harvest.harvest (Host.read source) (room + more) program {} world).Shows
      console source (m.load program) world [.whole .entry program program.size] :=
    Harvest.harvest_shows calm depth top program {} world
  have same := @Harvest.harvest_room σ (Host.read source) room program {} world
  cases harvested : Harvest.harvest (Host.read source) room program {} world with
  | done h ending =>
    rw [same (by rw [harvested]; trivial), harvested] at shows
    refine ⟨shows.imp fun turns same => same 0, ?_⟩
    intro cycles positive
    cases main : h.functions["main"]? with
    | some body =>
      intro after result last
      have started : Host.Reaches console source (m.load program) world _ ending :=
        shows.trans (Host.reaches_step calm (h.ready ..) (h.step_main program main) ending)
      rw [Host.run_finishes_iff calm cycles positive, started.finishes_iff,
        Host.run_finishes_iff calm cycles positive]
    | none =>
      rw [Host.run_finishes_iff calm cycles positive, Host.Reaches.finishes_iff shows]
      refine ⟨1, ?_⟩
      rw [Host.run_succ, Host.turn_calm calm,
        execute_one (h.ready ..) (h.step_stops program main)]
      rfl
  | failed fault h ending =>
    rw [same (by rw [harvested]; trivial), harvested] at shows
    intro cycles positive
    exact (Host.run_finishes_iff calm cycles positive ..).mpr shows
  | tooDeep place h ending =>
    -- with less room than there is, the harvest may go on where this one stopped
    intro full cycles positive
    have all : room + more = room := by omega
    rw [all, harvested] at shows
    exact (Host.run_finishes_iff calm cycles positive ..).mpr shows

/-- A file that attaches by a path which the file around it left on the stack. -/
theorem Machine.load_harvests_attached :
    let program := Program.ofText "t" "'u' 'v' attach"
    let console : Console (StateM (List String)) :=
      { write := fun _ => return .ok ()
        readLine := fun _ => return .ok ""
        interrupted := pure false }
    let source : Source (StateM (List String)) := fun path => do
      modify (· ++ [path])
      return .ok (if path = "v" then ["attach"] else ["func main end 'w'"])
    2 < Stack.capacity ∧ ∃ (h : Harvest) (turns : Nat), h.functions.contains "main" = true ∧
      h.values.items.map Value.text = ["w"] ∧
      Host.run console source 1 turns (({} : Machine).load program) [] =
        ((h.machine [.whole .entry program program.size], none), ["v", "u"]) := by
  intro program console source
  have within : 2 < Stack.capacity := by decide
  have loaded := load_harvests {} program console source rfl [] 2 within
  let gained := fun outcome : Harvest.Outcome (List String) =>
    match outcome with
    | .done h ending => some (h.functions.contains "main", h.values.items.map Value.text, ending)
    | _ => none
  have found : gained (Harvest.harvest (Host.read source) 2 program {} []) =
      some (true, ["w"], ["v", "u"]) := by decide +kernel
  cases harvested : Harvest.harvest (Host.read source) 2 program {} [] with
  | done h ending =>
    rw [harvested] at loaded found
    obtain ⟨turns, same⟩ := loaded.1
    simp only [gained, Option.some.injEq, Prod.mk.injEq] at found
    obtain ⟨defined, left, rfl⟩ := found
    exact ⟨within, h, turns, defined, left, same⟩
  | failed | tooDeep =>
    rw [harvested] at found
    cases found

end StackScript
