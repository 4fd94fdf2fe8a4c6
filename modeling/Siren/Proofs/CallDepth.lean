import Siren.Proofs.Derivations

/-!
# The limit on active calls

A limit decides only whether a call may start.  A task that ends without a limit
ends in the same way under every limit that admits the calls it makes, and fails
under any other, because the first call beyond the limit is refused and nothing
catches a fault.  The calls a task makes are those in the trace it leaves, each
with the number of calls that were active when it started.

So what a run under a limit gives, unless a call was refused, is what the run
gives under any larger limit and without a limit.
-/

namespace Siren

/-! ## The largest number of active calls -/

/-- The largest number of active calls at the start of one of the calls. -/
def Event.peak : List Event → Nat
  | [] => 0
  | .calling _ _ depth :: events => max depth (peak events)
  | .returned _ _ :: events => peak events

theorem Event.peak_append (later earlier : List Event) :
    Event.peak (later ++ earlier) = max (Event.peak later) (Event.peak earlier) := by
  induction later with
  | nil => exact (Nat.zero_max _).symm
  | cons event events inductionHypothesis =>
      cases event with
      | calling name args depth =>
          rw [List.cons_append, Event.peak, Event.peak, inductionHypothesis, Nat.max_assoc]
      | returned name outcome =>
          rw [List.cons_append, Event.peak, Event.peak, inductionHypothesis]

namespace DepthLimit

/-- A limit admits two numbers of active calls when it admits the larger. -/
theorem admits_max (limit : DepthLimit) (first second : Nat) :
    limit.admits (max first second) = (limit.admits first && limit.admits second) := by
  cases limit with
  | atMost calls =>
      rw [admits, admits, admits, ← Bool.decide_and]
      exact decide_eq_decide.mpr Nat.max_le
  | unlimited => rfl

end DepthLimit

/-! ## Runs under another limit -/

/-- A result that no refused call gives under a limit. -/
def Kept {α : Type} (limit : DepthLimit) (refusal : Fault) (result : Except Fault α) : Prop :=
  ∀ active, limit.admits active = false → result ≠ .error refusal

/-- What a task that leaves a trace does under a limit: it ends in the same way if
the limit admits its calls, and else it fails with the refusal of a call. -/
def Capped (limit : DepthLimit) (refusal : Fault) (task : Task) (start : Machine)
    (result : Except Fault task.Answer) (after : Machine) : Prop :=
  ∃ events, after.trace = events ++ start.trace ∧
    (limit.admits (Event.peak events) = true → Ends limit refusal task start result after) ∧
    (limit.admits (Event.peak events) = false →
      ∃ stopped, Ends limit refusal task start (.error refusal) stopped)

namespace Kept

variable {α β : Type} {limit : DepthLimit} {refusal : Fault}

theorem ok (value : α) : Kept limit refusal (.ok value : Except Fault α) :=
  fun _ _ equal => nomatch equal

/-- A result is kept with one that fails whenever it does. -/
theorem of_imp
    {result : Except Fault α}
    {result' : Except Fault β}
    (kept : Kept limit refusal result)
    (implies : result' = .error refusal → result = .error refusal) :
    Kept limit refusal result' :=
  fun active excess equal => kept active excess (implies equal)

theorem of_map
    {result : Except Fault α}
    {change : α → β}
    (kept : Kept limit refusal (result.map change)) :
    Kept limit refusal result :=
  kept.of_imp fun equal => by rw [equal, Except.map]

theorem flow_of_flow
    {exit : Exit}
    (kept : Kept limit refusal (exit.flow : Except Fault (Flow α))) :
    Kept limit refusal (exit.flow : Except Fault (Flow β)) :=
  kept.of_imp fun equal => by
    cases exit with
    | fault fault => cases equal; rfl
    | returned result => cases equal

theorem flow_of_outcome
    {exit : Exit}
    (kept : Kept limit refusal exit.outcome) :
    Kept limit refusal (exit.flow : Except Fault (Flow β)) :=
  kept.of_imp fun equal => by
    cases exit with
    | fault fault => cases equal; rfl
    | returned result => cases equal

theorem error_of_error
    {fault : Fault}
    (kept : Kept limit refusal (.error fault : Except Fault α)) :
    Kept limit refusal (.error fault : Except Fault β) :=
  kept.of_imp fun equal => by cases equal; rfl

end Kept

namespace Capped

variable {limit : DepthLimit} {refusal : Fault} {start between after after' : Machine}

/-- A task that makes no call. -/
theorem of_ends
    {task : Task}
    {result : Except Fault task.Answer}
    (ends : Ends limit refusal task start result after)
    (quiet : after.trace = start.trace) :
    Capped limit refusal task start result after := by
  refine ⟨[], quiet, fun _ => ends, fun excess => ?_⟩
  cases limit with
  | atMost calls => exact absurd (Nat.zero_le calls) (of_decide_eq_false excess)
  | unlimited => cases excess

/-- A task with one part, which fails when the part fails. -/
theorem one
    {part whole : Task}
    {result : Except Fault part.Answer}
    {result' : Except Fault whole.Answer}
    (inner : Capped limit refusal part start result after)
    (ends : Ends limit refusal part start result after →
      Ends limit refusal whole start result' after')
    (quiet : after'.trace = after.trace)
    (fails : ∀ {stopped : Machine}, Ends limit refusal part start (.error refusal) stopped →
      Ends limit refusal whole start (.error refusal) stopped) :
    Capped limit refusal whole start result' after' := by
  obtain ⟨events, trace, within, beyond⟩ := inner
  refine ⟨events, quiet.trans trace, fun room => ends (within room), fun excess => ?_⟩
  obtain ⟨stopped, refused⟩ := beyond excess
  exact ⟨stopped, fails refused⟩

/-- A task with two parts, which fails when one of them does. -/
theorem two
    {part part' whole : Task}
    {result : Except Fault part.Answer}
    {result' : Except Fault part'.Answer}
    {result'' : Except Fault whole.Answer}
    (first : Capped limit refusal part start result between)
    (second : Capped limit refusal part' between result' after)
    (ends : Ends limit refusal part start result between →
      Ends limit refusal part' between result' after →
      Ends limit refusal whole start result'' after)
    (firstFails : ∀ {stopped : Machine}, Ends limit refusal part start (.error refusal) stopped →
      Ends limit refusal whole start (.error refusal) stopped)
    (secondFails : ∀ {stopped : Machine}, Ends limit refusal part start result between →
      Ends limit refusal part' between (.error refusal) stopped →
      Ends limit refusal whole start (.error refusal) stopped) :
    Capped limit refusal whole start result'' after := by
  obtain ⟨earlier, trace, within, beyond⟩ := first
  obtain ⟨later, trace', within', beyond'⟩ := second
  refine ⟨later ++ earlier, by rw [trace', trace, List.append_assoc], ?_, ?_⟩
  · rw [Event.peak_append, DepthLimit.admits_max, Bool.and_eq_true]
    rintro ⟨roomLater, roomEarlier⟩
    exact ends (within roomEarlier) (within' roomLater)
  · rw [Event.peak_append, DepthLimit.admits_max, Bool.and_eq_false_iff]
    intro excess
    -- The earlier part decides first: its calls are made before those of the later one.
    cases room : limit.admits (Event.peak earlier) with
    | false =>
        obtain ⟨stopped, refused⟩ := beyond room
        exact ⟨stopped, firstFails refused⟩
    | true =>
        have excessLater : limit.admits (Event.peak later) = false := by
          rcases excess with excess | excess
          · exact excess
          · rw [room] at excess
            cases excess
        obtain ⟨stopped, refused⟩ := beyond' excessLater
        exact ⟨stopped, secondFails (within room) refused⟩

/-- A block fails when its statements do. -/
theorem block
    {stmts : List Stmt}
    {result : Except Fault Outcome}
    (body : Capped limit refusal (.seq .quiet stmts) { start with scope := start.scope.push }
      result after) :
    Capped limit refusal (.block stmts) start (result.map Outcome.flow)
      { after with scope := after.scope.pop } := by
  obtain ⟨events, trace, within, beyond⟩ := body
  refine ⟨events, trace, fun room => .block (within room), fun excess => ?_⟩
  obtain ⟨stopped, refused⟩ := beyond excess
  exact ⟨_, .block refused⟩

/-- A call is refused before its body runs, or fails when its body does. -/
theorem call
    {function : Function}
    {args : List Value}
    {self : Text}
    {scope : Scope}
    {outcome : Except Fault Outcome}
    {result : Except Fault Value}
    (last : List Event)
    (fits : args.length = function.arity)
    (bound : function.scope args self = .ok scope)
    (body : Capped limit refusal (.seq .quiet function.body)
      ⟨scope, start.depth + 1, .calling self args.length (start.depth + 1) :: start.trace⟩
      outcome after)
    (trace : after'.trace = last ++ after.trace)
    (silent : Event.peak last = 0)
    (ends : limit.admits (start.depth + 1) = true →
      Ends limit refusal (.seq .quiet function.body)
        ⟨scope, start.depth + 1, .calling self args.length (start.depth + 1) :: start.trace⟩
        outcome after →
      Ends limit refusal (.call function args self) start result after') :
    Capped limit refusal (.call function args self) start result after' := by
  obtain ⟨events, bodyTrace, within, beyond⟩ := body
  have peak : Event.peak (last ++ events ++ [.calling self args.length (start.depth + 1)]) =
      max (Event.peak events) (start.depth + 1) := by
    rw [Event.peak_append, Event.peak_append, silent, Nat.zero_max, Event.peak, Event.peak,
      Nat.max_zero]
  refine ⟨last ++ events ++ [.calling self args.length (start.depth + 1)], ?_, ?_, ?_⟩
  · rw [trace, bodyTrace]
    simp only [List.append_assoc, List.cons_append, List.nil_append]
  · rw [peak, DepthLimit.admits_max, Bool.and_eq_true]
    rintro ⟨roomInside, room⟩
    exact ends room (within roomInside)
  · rw [peak, DepthLimit.admits_max, Bool.and_eq_false_iff]
    intro excess
    cases room : limit.admits (start.depth + 1) with
    | false => exact ⟨_, .refused fits room⟩
    | true =>
        have excessInside : limit.admits (Event.peak events) = false := by
          rcases excess with excess | excess
          · exact excess
          · rw [room] at excess
            cases excess
        obtain ⟨stopped, refused⟩ := beyond excessInside
        exact ⟨_, .bodyFails fits room bound refused⟩

end Capped

/-- A task ends under another limit as it did, unless that limit refuses one of its
calls. -/
theorem Ends.capped
    {limit : DepthLimit}
    {refusal : Fault}
    {task : Task}
    {start after : Machine}
    {result : Except Fault task.Answer}
    (ends : Ends limit refusal task start result after)
    (kept : Kept limit refusal result)
    (limit' : DepthLimit)
    (refusal' : Fault) :
    Capped limit' refusal' task start result after := by
  -- Each rule is followed by itself; a refused part leaves through the rule that passes
  -- its fault on, which is the one for an exit at the same place.
  induction ends with
  | name => exact .of_ends .name rfl
  | int => exact .of_ends .int rfl
  | bool => exact .of_ends .bool rfl
  | function => exact .of_ends .function rfl
  | missingExpr => exact .of_ends .missingExpr rfl
  | operandExits exit inner innerCapped =>
      exact (innerCapped kept).one (.operandExits exit) rfl (.operandExits (.fault refusal'))
  | unary inner innerCapped =>
      exact (innerCapped (.ok _)).one .unary rfl (.operandExits (.fault refusal'))
  | leftExits exit first firstCapped =>
      exact (firstCapped kept).one (.leftExits exit) rfl (.leftExits (.fault refusal'))
  | rightExits exit first second firstCapped secondCapped =>
      exact (firstCapped (.ok _)).two (secondCapped kept) (.rightExits exit)
        (.leftExits (.fault refusal')) (.rightExits (.fault refusal'))
  | binary first second firstCapped secondCapped =>
      exact (firstCapped (.ok _)).two (secondCapped (.ok _)) .binary
        (.leftExits (.fault refusal')) (.rightExits (.fault refusal'))
  | conditionExits exit test testCapped =>
      exact (testCapped kept).one (.conditionExits exit) rfl (.conditionExits (.fault refusal'))
  | conditionFails test mismatch testCapped =>
      exact (testCapped (.ok _)).one (.conditionFails · mismatch) rfl
        (.conditionExits (.fault refusal'))
  | thenArm test holds arm testCapped armCapped =>
      exact (testCapped (.ok _)).two (armCapped kept) (.thenArm · holds)
        (.conditionExits (.fault refusal')) (.thenArm · holds)
  | elseArm test fails arm testCapped armCapped =>
      exact (testCapped (.ok _)).two (armCapped kept) (.elseArm · fails)
        (.conditionExits (.fault refusal')) (.elseArm · fails)
  | noElse test fails testCapped =>
      exact (testCapped (.ok _)).one (.noElse · fails) rfl (.conditionExits (.fault refusal'))
  | argsExit exit first firstCapped =>
      exact (firstCapped kept.flow_of_flow).one (.argsExit exit) rfl
        (.argsExit (.fault refusal'))
  | calleeFails first unresolved firstCapped =>
      exact (firstCapped (.ok _)).one (.calleeFails · unresolved) rfl
        (.argsExit (.fault refusal'))
  | callee first resolved second firstCapped secondCapped =>
      exact (firstCapped (.ok _)).two (secondCapped kept.of_map) (.callee · resolved)
        (.argsExit (.fault refusal')) (.callee · resolved)
  | noArgs => exact .of_ends .noArgs rfl
  | argExits exit first firstCapped =>
      exact (firstCapped kept.flow_of_flow).one (.argExits exit) rfl
        (.argExits (.fault refusal'))
  | moreArgsExit exit first more firstCapped moreCapped =>
      exact (firstCapped (.ok _)).two (moreCapped kept) (.moreArgsExit exit)
        (.argExits (.fault refusal')) (.moreArgsExit (.fault refusal'))
  | args first more firstCapped moreCapped =>
      exact (firstCapped (.ok _)).two (moreCapped (.ok _)) .args
        (.argExits (.fault refusal')) (.moreArgsExit (.fault refusal'))
  | stmtExits hole exit inner innerCapped =>
      exact (innerCapped kept.flow_of_outcome).one (.stmtExits hole exit) rfl
        (.stmtExits hole (.fault refusal'))
  | declare inner bound innerCapped =>
      exact (innerCapped (.ok _)).one (.declare · bound) rfl
        (.stmtExits (.declare _ _) (.fault refusal'))
  | declareFails inner unbound innerCapped =>
      exact (innerCapped (.ok _)).one (.declareFails · unbound) rfl
        (.stmtExits (.declare _ _) (.fault refusal'))
  | assign inner assigned innerCapped =>
      exact (innerCapped (.ok _)).one (.assign · assigned) rfl
        (.stmtExits (.assign _ _) (.fault refusal'))
  | assignFails inner unknown innerCapped =>
      exact (innerCapped (.ok _)).one (.assignFails · unknown) rfl
        (.stmtExits (.assign _ _) (.fault refusal'))
  | expr inner innerCapped =>
      exact (innerCapped (.ok _)).one .expr rfl (.stmtExits .expr (.fault refusal'))
  | result inner innerCapped =>
      exact (innerCapped (.ok _)).one .result rfl (.stmtExits (.result _) (.fault refusal'))
  | missingStmt => exact .of_ends .missingStmt rfl
  | done => exact .of_ends .done rfl
  | seqExits exit first firstCapped =>
      exact (firstCapped kept).one (.seqExits exit) rfl (.seqExits (.fault refusal'))
  | quiet first more firstCapped moreCapped =>
      exact (firstCapped (.ok _)).two (moreCapped kept) .quiet
        (.seqExits (.fault refusal')) .quiet
  | value first more firstCapped moreCapped =>
      exact (firstCapped (.ok _)).two (moreCapped kept) .value
        (.seqExits (.fault refusal')) .value
  | block body bodyCapped => exact (bodyCapped kept.of_map).block
  | arity mismatch => exact .of_ends (.arity mismatch) rfl
  | refused fits excess => exact absurd rfl (kept _ excess)
  | scopeFails fits room unbound =>
      refine ⟨[.calling _ _ _], rfl, fun room => ?_, fun excess => ?_⟩
      · rw [Event.peak, Event.peak, Nat.max_zero] at room
        exact .scopeFails fits room unbound
      · rw [Event.peak, Event.peak, Nat.max_zero] at excess
        exact ⟨_, .refused fits excess⟩
  | bodyFails fits room bound body bodyCapped =>
      exact (bodyCapped kept.error_of_error).call [] fits bound rfl rfl
        fun room body => .bodyFails fits room bound body
  | bodyEnds fits room bound body bodyCapped =>
      exact (bodyCapped (.ok _)).call [.returned _ _] fits bound rfl rfl
        fun room body => .bodyEnds fits room bound body

/-! ## Programs -/

/-- A program ends with a result on a machine: its statements do. -/
def Program.EndsWith (limit : DepthLimit) (refusal : Fault) (program : Program)
    (machine : Machine) (result : Except Fault Value) (after : Machine) : Prop :=
  ∃ outcome, Ends limit refusal (.seq .quiet program) machine outcome after ∧
    result = outcome.map Outcome.result

/-- The room for further calls shrinks by each active call. -/
theorem DepthLimit.room_eq (limit : DepthLimit) (depth : Nat) :
    limit.room depth = limit.room 0 - depth := by
  cases limit <;> rfl

namespace Session

/-- A session executes the statements of a program with the room its limit
leaves. -/
theorem run_apply (machine : Machine) (limit : DepthLimit) (program : Program) :
    Session.run ⟨machine, limit⟩ program =
      let ended := Block.exec (Function.call limit.refusal (limit.room 0 - machine.depth))
        .quiet program machine
      (ended.1.map Outcome.result, ⟨ended.2, limit⟩) := by
  unfold run perform DepthLimit.caller
  rw [DepthLimit.room_eq]
  rfl

/-- A session gives the result of a program under its limit. -/
theorem run_eq_iff
    (limit : DepthLimit)
    {program : Program}
    {machine after : Machine}
    {result : Except Fault Value} :
    Session.run ⟨machine, limit⟩ program = (result, ⟨after, limit⟩) ↔
      program.EndsWith (.atMost (limit.room 0)) limit.refusal machine result after := by
  rw [run_apply]
  constructor
  · intro run
    cases run
    exact ⟨_, Ends.iff_perform.mpr rfl, rfl⟩
  · rintro ⟨outcome, ends, rfl⟩
    have performed := ends.perform_eq
    rw [Task.perform] at performed
    rw [performed]

/-- A session ends a program under every limit. -/
theorem exists_run_eq (machine : Machine) (limit : DepthLimit) (program : Program) :
    ∃ result after, Session.run ⟨machine, limit⟩ program = (result, ⟨after, limit⟩) :=
  ⟨_, _, run_apply machine limit program⟩

end Session

namespace Program.EndsWith

variable
  {limit : DepthLimit}
  {refusal : Fault}
  {program : Program}
  {machine after : Machine}
  {result : Except Fault Value}

/-- A program ends under another limit as it did, unless that limit refuses one of
the calls in the trace that the program leaves. -/
theorem capped
    (ends : program.EndsWith limit refusal machine result after)
    (kept : Kept limit refusal result) :
    ∃ events, after.trace = events ++ machine.trace ∧
      ∀ (limit' : DepthLimit) (refusal' : Fault),
        (limit'.admits (Event.peak events) = true →
          program.EndsWith limit' refusal' machine result after) ∧
        (limit'.admits (Event.peak events) = false →
          ∃ stopped, program.EndsWith limit' refusal' machine (.error refusal') stopped) := by
  obtain ⟨outcome, statements, rfl⟩ := ends
  obtain ⟨events, trace, -⟩ := statements.capped kept.of_map limit refusal
  refine ⟨events, trace, fun limit' refusal' => ?_⟩
  obtain ⟨events', trace', within, beyond⟩ := statements.capped kept.of_map limit' refusal'
  -- The trace at the end determines the calls, whatever limit is asked about.
  obtain rfl : events = events' := List.append_cancel_right (trace.symm.trans trace')
  refine ⟨fun room => ⟨outcome, within room, rfl⟩, fun excess => ?_⟩
  obtain ⟨stopped, refused⟩ := beyond excess
  exact ⟨stopped, .error refusal', refused, rfl⟩

/-- A program that ends without a limit makes only so many calls, and ends in the same
way under a limit that admits them. -/
theorem exists_atMost (ends : program.EndsWith .unlimited .exhausted machine result after) :
    ∃ calls, ∀ refusal, program.EndsWith (.atMost calls) refusal machine result after := by
  obtain ⟨events, -, capped⟩ := ends.capped fun _ excess => nomatch excess
  exact ⟨Event.peak events, fun refusal =>
    (capped (.atMost (Event.peak events)) refusal).1 (decide_eq_true (Nat.le_refl _))⟩

/-- A program that ends under a limit, and not with a refused call, ends without one. -/
theorem unlimited
    (ends : program.EndsWith limit refusal machine result after)
    (permitted : result ≠ .error refusal) :
    program.EndsWith .unlimited .exhausted machine result after := by
  obtain ⟨events, -, capped⟩ := ends.capped fun _ _ => permitted
  exact (capped .unlimited .exhausted).1 rfl

end Program.EndsWith

/-- Every program ends under a limit, whatever a refused call fails with. -/
theorem Program.exists_endsWith
    (program : Program)
    (machine : Machine)
    (calls : Nat)
    (refusal : Fault) :
    ∃ result after, program.EndsWith (.atMost calls) refusal machine result after :=
  ⟨_, _, _, Ends.iff_perform.mpr rfl, rfl⟩

/-- The limit on active calls is exact and otherwise invisible.  A program that ends
without a limit ends in the same way, on the same machine, under a limit that is at
least the largest number of calls active at once, and is refused under a smaller one.
A program that is not refused under a limit ends in the same way without one and under
every larger one.  A session without a limit gives what the program ends with, as long
as the active calls can be followed. -/
theorem depth_limit_is_exact (program : Program) (machine : Machine) (calls : Nat) :
    (∀ result after, program.EndsWith .unlimited .exhausted machine result after →
      ∃ events, after.trace = events ++ machine.trace ∧
        (Event.peak events ≤ calls →
          Session.run ⟨machine, .atMost calls⟩ program = (result, ⟨after, .atMost calls⟩)) ∧
        (calls < Event.peak events →
          (Session.run ⟨machine, .atMost calls⟩ program).1 =
            .error (.runtime (.callDepthExceeded calls))) ∧
        (Event.peak events ≤ DepthLimit.ceiling →
          Session.run ⟨machine, .unlimited⟩ program = (result, ⟨after, .unlimited⟩))) ∧
    ((Session.run ⟨machine, .atMost calls⟩ program).1 ≠
        .error (.runtime (.callDepthExceeded calls)) →
      ∃ result after,
        Session.run ⟨machine, .atMost calls⟩ program = (result, ⟨after, .atMost calls⟩) ∧
        program.EndsWith .unlimited .exhausted machine result after ∧
        ∀ more, calls ≤ more →
          Session.run ⟨machine, .atMost more⟩ program = (result, ⟨after, .atMost more⟩)) ∧
    ((Session.run ⟨machine, .unlimited⟩ program).1 ≠ .error .exhausted →
      ∃ result after,
        Session.run ⟨machine, .unlimited⟩ program = (result, ⟨after, .unlimited⟩) ∧
        program.EndsWith .unlimited .exhausted machine result after) := by
  refine ⟨fun result after ends => ?_, fun permitted => ?_, fun followed => ?_⟩
  · obtain ⟨events, trace, capped⟩ := ends.capped fun _ excess => nomatch excess
    refine ⟨events, trace, fun room => ?_, fun excess => ?_, fun room => ?_⟩
    · exact (Session.run_eq_iff (.atMost calls)).mpr
        ((capped (.atMost calls) _).1 (decide_eq_true room))
    · obtain ⟨stopped, refused⟩ :=
        (capped (.atMost calls) _).2 (decide_eq_false (Nat.not_le.mpr excess))
      rw [(Session.run_eq_iff (.atMost calls)).mpr refused]
      rfl
    · exact (Session.run_eq_iff .unlimited).mpr
        ((capped (.atMost DepthLimit.ceiling) _).1 (decide_eq_true room))
  · obtain ⟨result, after, run⟩ := Session.exists_run_eq machine (.atMost calls) program
    rw [run] at permitted
    obtain ⟨events, trace, capped⟩ :=
      ((Session.run_eq_iff _).mp run).capped fun _ _ => permitted
    have within : Event.peak events ≤ calls := by
      by_contra excess
      obtain ⟨stopped, refused⟩ := (capped (.atMost calls) _).2 (decide_eq_false excess)
      rw [(Session.run_eq_iff (.atMost calls)).mpr refused] at run
      exact permitted (Prod.mk.inj run).1.symm
    refine ⟨result, after, run, (capped .unlimited _).1 rfl, fun more larger => ?_⟩
    exact (Session.run_eq_iff (.atMost more)).mpr
      ((capped (.atMost more) _).1 (decide_eq_true (Nat.le_trans within larger)))
  · obtain ⟨result, after, run⟩ := Session.exists_run_eq machine .unlimited program
    rw [run] at followed
    obtain ⟨events, trace, capped⟩ :=
      ((Session.run_eq_iff _).mp run).capped fun _ _ => followed
    exact ⟨result, after, run, (capped .unlimited _).1 rfl⟩

/-- A function that calls itself once needs a limit of two. -/
theorem depth_limit_is_exact_recursive :
    let program : Program :=
      [.declare .start "f" (.function .start ["b"]
        [.expr (.branch .start (.name .start "b")
          [.expr (.call (.name .start "f") [.bool .start false])]
          (some [.expr (.int .start 1)]))]),
        .expr (.call (.name .start "f") [.bool .start true])]
    let machine : Machine := ⟨.fresh, 0, []⟩
    (Session.run ⟨machine, .atMost 1⟩ program).1 = .error (.runtime (.callDepthExceeded 1)) ∧
      ∃ after, ∀ more, 2 ≤ more →
        Session.run ⟨machine, .atMost more⟩ program = (.ok (.int 1), ⟨after, .atMost more⟩) := by
  intro program machine
  have run : (Session.run ⟨machine, .atMost 2⟩ program).1 = .ok (.int 1) := rfl
  obtain ⟨result, after, run', unlimited, larger⟩ :=
    (depth_limit_is_exact program machine 2).2.1 (by rw [run]; nofun)
  obtain rfl : result = .ok (.int 1) := by rw [← run, run']
  obtain ⟨events, trace, -, beyond, -⟩ :=
    (depth_limit_is_exact program machine 1).1 _ _ unlimited
  have peak : Event.peak (Session.run ⟨machine, .atMost 2⟩ program).2.machine.trace = 2 := rfl
  rw [run', trace, List.append_nil] at peak
  exact ⟨beyond (by omega), after, larger⟩

end Siren
