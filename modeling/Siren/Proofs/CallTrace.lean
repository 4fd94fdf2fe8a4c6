import Siren.Proofs.CallDepth

/-!
# The trace of calls

Evaluation leaves a trace of the calls that start and end.  Read as brackets, the
steps fit: each end closes the latest open start and has its name, and each start
has the number of calls that are then open.

A call that fails is left without a step, and on the way out its scope and its
depth are undone.  To say which calls were active when something failed, programs
are also evaluated on a station, which keeps a stack of the active calls and stops
where it fails: nothing is undone and nothing is traced from then on.  Evaluation
gives the same results and the same trace as the station, and the steps left open
in the trace are the calls on its stack.
-/

namespace Siren

/-! ## Stations -/

/-- A call that has started and not ended. -/
structure Activation where
  /-- The name it was called by. -/
  name : Text
  /-- The number of its arguments. -/
  args : Nat
  deriving DecidableEq, Repr

/-- The state of evaluation that stops where it fails. -/
structure Station where
  /-- The scope of the running call. -/
  scope : Scope
  /-- The active calls, the innermost first. -/
  active : List Activation
  /-- The steps of calls made so far, the latest first. -/
  trace : List Event

namespace Station

/-- The machine with as many active calls. -/
def machine (station : Station) : Machine :=
  ⟨station.scope, station.active.length, station.trace⟩

/-- A call starts. -/
def enter (station : Station) (call : Activation) : Station :=
  ⟨station.scope, call :: station.active,
    .calling call.name call.args (station.active.length + 1) :: station.trace⟩

/-- The innermost call ends, and the scope is again that of its caller. -/
def leave (station : Station) (scope : Scope) (name : Text) (outcome : Outcome) : Station :=
  ⟨scope, station.active.tail, .returned name outcome :: station.trace⟩

end Station

/-- A computation on a station that may fail; a failure leaves the station as it
was at that moment. -/
abbrev Halting := ExceptT Fault (StateM Station)

/-- How a function is called with arguments by a name. -/
abbrev HaltingCaller := Function → List Value → Text → Halting Value

namespace Halting

/-- A step on the machine of a station that starts and ends no call. -/
def ofEval {α : Type} (action : Eval α) : Halting α := fun station =>
  let (result, machine) := action station.machine
  (result, { station with scope := machine.scope, trace := machine.trace })

/-- Goes on with the value of an expression, unless it met a `return`. -/
def onValue {α β : Type} (first : Halting (Flow α)) (next : α → Halting (Flow β)) :
    Halting (Flow β) := do
  match ← first with
  | .value value => next value
  | .returning result => return .returning result

/-- Runs statements in a block of their own, which a failure leaves open. -/
def inBlock (body : Halting Outcome) : Halting (Flow Value) := do
  modify fun station => { station with scope := station.scope.push }
  let outcome ← body
  modify fun station => { station with scope := station.scope.pop }
  return outcome.flow

end Halting

mutual

/-- Evaluates an expression. -/
def Expr.evalHalting (call : HaltingCaller) : Expr → Halting (Flow Value)
  | .name _ name => return .value (← .ofEval (Eval.lookup name))
  | .int _ value => return .value (.int value)
  | .bool _ value => return .value (.bool value)
  | .function _ params body => return .value (.fn ⟨params, body⟩)
  | .unary _ op operand =>
    (operand.evalHalting call).onValue fun value =>
      return .value (← .ofEval (.ofExcept (op.apply value)))
  | .binary left op right =>
    (left.evalHalting call).onValue fun left =>
      (right.evalHalting call).onValue fun right =>
        return .value (← .ofEval (.ofExcept (op.apply left right)))
  | .branch _ condition thenArm elseArm =>
    (condition.evalHalting call).onValue fun test => do
      if ← .ofEval (.ofExcept (test.asBool.mapError .runtime)) then
        .inBlock (Block.execHalting call .quiet thenArm)
      else
        Block.execElseHalting call elseArm
  | .call callee args =>
    (Expr.evalAllHalting call args).onValue fun args => do
      match callee with
      | .name _ name =>
        match ← .ofEval (Eval.lookup name) with
        | .fn function => return .value (← call function args name)
        | other =>
          throw (.runtime (.notCallable (name ++ " (" ++ other.kindName ++ ")")))
      | .function _ params body => return .value (← call ⟨params, body⟩ args [])
      | other => throw (.runtime (.notCallable other.text))
  | .missing => throw .missingExpression
termination_by structural expr => expr

/-- Evaluates the arguments of a call from left to right. -/
def Expr.evalAllHalting (call : HaltingCaller) : List Expr → Halting (Flow (List Value))
  | [] => return .value []
  | expr :: exprs =>
    (expr.evalHalting call).onValue fun value =>
      (Expr.evalAllHalting call exprs).onValue fun values => return .value (value :: values)
termination_by structural exprs => exprs

/-- Executes a statement. -/
def Stmt.execHalting (call : HaltingCaller) : Stmt → Halting Outcome
  | .declare _ name value => do
    match ← value.evalHalting call with
    | .value value => .ofEval (Eval.bind name value); return .quiet
    | .returning result => return .returning result
  | .assign _ name value => do
    match ← value.evalHalting call with
    | .value value => .ofEval (Eval.assign name value); return .quiet
    | .returning result => return .returning result
  | .expr value => do
    match ← value.evalHalting call with
    | .value value => return .value value
    | .returning result => return .returning result
  | .result _ value => do
    match ← value.evalHalting call with
    | .value value => return .returning value
    | .returning result => return .returning result
  | .missing => throw .missingStatement
termination_by structural stmt => stmt

/-- Executes statements in order up to the first `return`. -/
def Block.execHalting (call : HaltingCaller) (last : Outcome) : List Stmt → Halting Outcome
  | [] => return last
  | stmt :: stmts => do
    match ← stmt.execHalting call with
    | .quiet => Block.execHalting call last stmts
    | .value value => Block.execHalting call (.value value) stmts
    | .returning result => return .returning result
termination_by structural stmts => stmts

/-- Executes the second arm of a choice; an absent one gives the unit. -/
def Block.execElseHalting (call : HaltingCaller) : Option (List Stmt) → Halting (Flow Value)
  | none => return .value .unit
  | some block => .inBlock (Block.execHalting call .quiet block)
termination_by structural arm => arm

end

namespace Function

/-- Puts a call on the stack, runs its body in its own scope and takes it off again.
If its bindings or its body fail, it stays on the stack. -/
def activateHalting (function : Function) (args : List Value) (self : Text)
    (body : Halting Outcome) : Halting Value := do
  let outer := (← get).scope
  modify fun station => station.enter ⟨self, args.length⟩
  let scope ← .ofEval (.ofExcept (function.scope args self))
  modify fun station => { station with scope }
  let outcome ← body
  modify fun station => station.leave outer self outcome
  return outcome.result

/-- Calls a function when `room` more calls may be nested. -/
def callHalting (refusal : Fault) : Nat → HaltingCaller
  | 0, function, args, _ =>
    if args.length = function.arity then
      throw refusal
    else
      throw (.runtime (.arityMismatch function.arity args.length))
  | room + 1, function, args, self =>
    if args.length = function.arity then
      function.activateHalting args self
        (Block.execHalting (callHalting refusal room) .quiet function.body)
    else
      throw (.runtime (.arityMismatch function.arity args.length))

end Function

/-- Executes a program under a limit, and stops where it fails. -/
def Program.runHalting (limit : DepthLimit) (program : Program) (station : Station) :
    Except Fault Value × Station :=
  let call := Function.callHalting limit.refusal (limit.room station.active.length)
  let (outcome, station) := Block.execHalting call .quiet program station
  (outcome.map Outcome.result, station)

/-! ## Brackets -/

namespace Event

/-- The calls that are open after some steps.  Both lists have the latest first. -/
def unclosed : List Event → List Activation
  | [] => []
  | .calling name args _ :: events => ⟨name, args⟩ :: unclosed events
  | .returned _ _ :: events => (unclosed events).tail

/-- A step fits the steps before it: a call starts with one more active call than
there are open ones, as many as the limit admits, and the end of a call has the name
of the latest open one. -/
def Fits (limit : DepthLimit) (earlier : List Event) : Event → Prop
  | .calling _ _ depth =>
    depth = (unclosed earlier).length + 1 ∧ limit.admits depth = true
  | .returned name _ => ∃ args outer, unclosed earlier = ⟨name, args⟩ :: outer

/-- Each step fits those before it. -/
def Bracketed (limit : DepthLimit) : List Event → Prop
  | [] => True
  | event :: events => event.Fits limit events ∧ Bracketed limit events

/-- Steps that fit do so wherever the steps are cut. -/
theorem Bracketed.fits
    {limit : DepthLimit}
    {later earlier : List Event}
    {event : Event}
    (bracketed : Bracketed limit (later ++ event :: earlier)) :
    event.Fits limit earlier := by
  induction later with
  | nil => exact bracketed.1
  | cons _ _ inductionHypothesis => exact inductionHypothesis bracketed.2

end Event

/-- The steps since `base` fit, and the ones that are open are the active calls. -/
def Station.Follows (base : List Event) (limit : DepthLimit) (station : Station) : Prop :=
  ∃ events, station.trace = events ++ base ∧ Event.Bracketed limit events ∧
    Event.unclosed events = station.active

namespace Station.Follows

variable {base : List Event} {limit : DepthLimit} {station : Station}

/-- The steps of a station count, whatever its scope is. -/
theorem of_same
    {station' : Station}
    (follows : station.Follows base limit)
    (trace : station'.trace = station.trace)
    (active : station'.active = station.active) :
    station'.Follows base limit := by
  unfold Follows
  rw [trace, active]
  exact follows

/-- A call that the limit admits starts with one more active call. -/
theorem enter
    (follows : station.Follows base limit)
    (call : Activation)
    (admitted : limit.admits (station.active.length + 1) = true) :
    (station.enter call).Follows base limit := by
  obtain ⟨events, trace, bracketed, unclosed⟩ := follows
  refine ⟨.calling call.name call.args (station.active.length + 1) :: events, ?_,
    ⟨⟨?_, admitted⟩, bracketed⟩, ?_⟩
  · rw [Station.enter, trace, List.cons_append]
  · rw [unclosed]
  · rw [Event.unclosed, unclosed, Station.enter]

/-- The innermost call ends. -/
theorem leave
    {call : Activation}
    {outer : List Activation}
    (follows : station.Follows base limit)
    (active : station.active = call :: outer)
    (scope : Scope)
    (outcome : Outcome) :
    (station.leave scope call.name outcome).Follows base limit := by
  obtain ⟨events, trace, bracketed, unclosed⟩ := follows
  refine ⟨.returned call.name outcome :: events, ?_,
    ⟨⟨call.args, outer, unclosed.trans active⟩, bracketed⟩, ?_⟩
  · rw [Station.leave, trace, List.cons_append]
  · rw [Event.unclosed, unclosed, Station.leave]

end Station.Follows

/-! ## Machines and stations -/

/-- Two runs with the same calls `active` around them end alike.  If they succeed, the
station has come back to those calls and the machine is that of the station.  If they
fail, the traces are the same.  In both cases the steps of the trace fit, and the open
ones are the active calls of the station. -/
inductive EndAlike {α : Type} (base : List Event) (limit : DepthLimit)
    (active : List Activation) : Except Fault α × Machine → Except Fault α × Station → Prop where
  | ok (value : α) (station : Station)
      (back : station.active = active)
      (follows : station.Follows base limit) :
      EndAlike base limit active (.ok value, station.machine) (.ok value, station)
  | error (fault : Fault) {machine : Machine} {station : Station}
      (trace : machine.trace = station.trace)
      (follows : station.Follows base limit) :
      EndAlike base limit active (.error fault, machine) (.error fault, station)

namespace EndAlike

variable
  {α : Type}
  {base : List Event}
  {limit : DepthLimit}
  {active : List Activation}
  {run : Except Fault α × Machine}
  {run' : Except Fault α × Station}

theorem result_eq (alike : EndAlike base limit active run run') : run.1 = run'.1 := by
  cases alike <;> rfl

theorem trace_eq (alike : EndAlike base limit active run run') :
    run.2.trace = run'.2.trace := by
  cases alike with
  | ok value station back follows => rfl
  | error fault trace follows => exact trace

theorem follows (alike : EndAlike base limit active run run') : run'.2.Follows base limit := by
  cases alike with
  | ok value station back follows => exact follows
  | error fault trace follows => exact follows

/-- A run that succeeds comes back to the calls around it. -/
theorem active_eq
    (alike : EndAlike base limit active run run')
    {value : α}
    (succeeded : run.1 = .ok value) :
    run'.2.active = active := by
  cases alike with
  | ok value station back follows => exact back
  | error fault trace follows => cases succeeded

end EndAlike

/-- Two computations end alike from every station with the active calls `active`. -/
def Halting.Alike {α : Type} (base : List Event) (limit : DepthLimit)
    (active : List Activation) (action : Eval α) (halting : Halting α) : Prop :=
  ∀ station : Station, station.active = active → station.Follows base limit →
    EndAlike base limit active (action station.machine) (halting station)

/-- A step that makes no call and keeps the number of active ones. -/
def Eval.Silent {α : Type} (action : Eval α) : Prop :=
  ∀ machine, (action machine).2.depth = machine.depth ∧ (action machine).2.trace = machine.trace

namespace Eval.Silent

theorem ofExcept {α : Type} (result : Except Fault α) : Silent (Eval.ofExcept result) :=
  fun _ => ⟨rfl, rfl⟩

theorem lookup (name : Text) : Silent (Eval.lookup name) :=
  fun _ => ⟨rfl, rfl⟩

theorem bind (name : Text) (value : Value) : Silent (Eval.bind name value) := by
  intro machine
  unfold Eval.bind
  split <;> exact ⟨rfl, rfl⟩

theorem assign (name : Text) (value : Value) : Silent (Eval.assign name value) := by
  intro machine
  unfold Eval.assign
  split <;> exact ⟨rfl, rfl⟩

end Eval.Silent

namespace Halting

variable {α β : Type}

theorem bind_apply (first : Halting α) (next : α → Halting β) (station : Station) :
    (first >>= next) station =
      match first station with
      | (.ok value, after) => next value after
      | (.error fault, after) => (.error fault, after) := by
  rw [exceptT_bind_apply]
  rcases first station with ⟨fault | value, after⟩ <;> rfl

theorem inBlock_apply (body : Halting Outcome) (station : Station) :
    inBlock body station =
      match body { station with scope := station.scope.push } with
      | (.ok outcome, after) => (.ok outcome.flow, { after with scope := after.scope.pop })
      | (.error fault, after) => (.error fault, after) := by
  change (body >>= _) { station with scope := station.scope.push } = _
  rw [bind_apply]
  rcases body { station with scope := station.scope.push } with ⟨fault | outcome, after⟩ <;> rfl

theorem activate_apply
    (function : Function)
    (args : List Value)
    (self : Text)
    (body : Halting Outcome)
    (station : Station) :
    function.activateHalting args self body station =
      match function.scope args self with
      | .error fault => (.error fault, station.enter ⟨self, args.length⟩)
      | .ok scope =>
        match body { station.enter ⟨self, args.length⟩ with scope } with
        | (.ok outcome, after) =>
          (.ok outcome.result, after.leave station.scope self outcome)
        | (.error fault, after) => (.error fault, after) := by
  change (ofEval (.ofExcept (function.scope args self)) >>= _)
    (station.enter ⟨self, args.length⟩) = _
  cases function.scope args self with
  | error fault => rfl
  | ok scope =>
      change (body >>= _) { station.enter ⟨self, args.length⟩ with scope } = _
      rw [bind_apply]
      dsimp only
      generalize body _ = run
      obtain ⟨fault | outcome, after⟩ := run <;> rfl

namespace Alike

variable {base : List Event} {limit : DepthLimit} {active : List Activation}

theorem pure (value : α) :
    Alike base limit active (pure value : Eval α) (pure value : Halting α) :=
  fun station back follows => .ok value station back follows

theorem throw (fault : Fault) :
    Alike base limit active (throw fault : Eval α) (throw fault : Halting α) :=
  fun _ _ follows => .error fault rfl follows

/-- A step without a call is the same on both. -/
theorem ofEval
    {action : Eval α}
    (silent : action.Silent) :
    Alike base limit active action (ofEval action) := by
  intro station back follows
  obtain ⟨depth, trace⟩ := silent station.machine
  unfold Halting.ofEval
  generalize action station.machine = run at depth trace ⊢
  obtain ⟨fault | value, scope, calls, events⟩ := run
  · exact .error fault rfl (follows.of_same trace rfl)
  · obtain rfl : calls = station.active.length := depth
    exact .ok value ⟨scope, station.active, events⟩ back (follows.of_same trace rfl)

theorem bind
    {first : Eval α}
    {first' : Halting α}
    {next : α → Eval β}
    {next' : α → Halting β}
    (earlier : Alike base limit active first first')
    (later : ∀ value, Alike base limit active (next value) (next' value)) :
    Alike base limit active (first >>= next) (first' >>= next') := by
  intro station back follows
  have alike := earlier station back follows
  rw [Eval.bind_apply, bind_apply]
  generalize first station.machine = run, first' station = run' at alike ⊢
  cases alike with
  | ok value after back' follows' => exact later value after back' follows'
  | error fault trace follows' => exact .error fault trace follows'

theorem onValue
    {first : Eval (Flow α)}
    {first' : Halting (Flow α)}
    {next : α → Eval (Flow β)}
    {next' : α → Halting (Flow β)}
    (earlier : Alike base limit active first first')
    (later : ∀ value, Alike base limit active (next value) (next' value)) :
    Alike base limit active (first.onValue next) (first'.onValue next') := by
  apply earlier.bind
  intro flow
  cases flow with
  | value value => exact later value
  | returning result => exact .pure _

/-- A failure in a block leaves it open on the station only. -/
theorem inBlock
    {body : Eval Outcome}
    {body' : Halting Outcome}
    (inner : Alike base limit active body body') :
    Alike base limit active (Eval.inBlock body) (Halting.inBlock body') := by
  intro station back follows
  have alike := inner { station with scope := station.scope.push } back
    (follows.of_same rfl rfl)
  change EndAlike base limit active
    (body { station.machine with scope := station.machine.scope.push }) _ at alike
  rw [inBlock_apply]
  unfold Eval.inBlock
  generalize body { station.machine with scope := station.machine.scope.push } = run,
    body' { station with scope := station.scope.push } = run' at alike ⊢
  cases alike with
  | ok outcome after back' follows' =>
      exact .ok outcome.flow { after with scope := after.scope.pop } back'
        (follows'.of_same rfl rfl)
  | error fault trace follows' => exact .error fault trace follows'

/-- A failure in a call leaves it on the stack of the station. -/
theorem activate
    (function : Function)
    (args : List Value)
    (self : Text)
    {body : Eval Outcome}
    {body' : Halting Outcome}
    (admitted : limit.admits (active.length + 1) = true)
    (inner : Alike base limit (⟨self, args.length⟩ :: active) body body') :
    Alike base limit active (function.activate args self body)
      (function.activateHalting args self body') := by
  rintro station rfl follows
  have entered := follows.enter ⟨self, args.length⟩ admitted
  rw [activate_apply]
  unfold Function.activate
  cases function.scope args self with
  | error fault => exact .error fault rfl entered
  | ok scope =>
      have alike := inner { station.enter ⟨self, args.length⟩ with scope } rfl
        (entered.of_same rfl rfl)
      dsimp only [Station.machine, Station.enter, List.length_cons] at alike ⊢
      generalize body _ = run, body' _ = run' at alike ⊢
      cases alike with
      | ok outcome after back follows' =>
          have depth : after.machine.depth - 1 = after.active.tail.length := by
            rw [Station.machine, List.length_tail]
          dsimp only
          rw [depth]
          have returned : (after.leave station.scope self outcome).active = station.active := by
            rw [Station.leave, back, List.tail_cons]
          exact .ok outcome.result (after.leave station.scope self outcome) returned
            (follows'.leave back station.scope outcome)
      | error fault trace follows' => exact .error fault trace follows'

end Alike
end Halting

/-! ## Evaluation -/

/-- Calls end alike from every station with the active calls `active`. -/
def HaltingCaller.Alike (base : List Event) (limit : DepthLimit) (active : List Activation)
    (call : Caller) (call' : HaltingCaller) : Prop :=
  ∀ (function : Function) (args : List Value) (self : Text),
    Halting.Alike base limit active (call function args self) (call' function args self)

section Syntax

variable
  {base : List Event}
  {limit : DepthLimit}
  {active : List Activation}
  {call : Caller}
  {call' : HaltingCaller}

mutual

theorem Expr.evalHalting_alike
    (calls : HaltingCaller.Alike base limit active call call')
    (expr : Expr) :
    Halting.Alike base limit active (expr.eval call) (expr.evalHalting call') := by
  cases expr with
  | name _ name =>
      rw [Expr.eval, Expr.evalHalting]
      exact (Halting.Alike.ofEval (.lookup name)).bind fun _ => .pure _
  | int _ value =>
      rw [Expr.eval, Expr.evalHalting]
      exact .pure _
  | bool _ value =>
      rw [Expr.eval, Expr.evalHalting]
      exact .pure _
  | function _ params body =>
      rw [Expr.eval, Expr.evalHalting]
      exact .pure _
  | unary _ op operand =>
      rw [Expr.eval, Expr.evalHalting]
      apply (Expr.evalHalting_alike calls operand).onValue
      intro value
      exact (Halting.Alike.ofEval (.ofExcept _)).bind fun _ => .pure _
  | binary left op right =>
      rw [Expr.eval, Expr.evalHalting]
      apply (Expr.evalHalting_alike calls left).onValue
      intro leftValue
      apply (Expr.evalHalting_alike calls right).onValue
      intro rightValue
      exact (Halting.Alike.ofEval (.ofExcept _)).bind fun _ => .pure _
  | branch _ condition thenArm elseArm =>
      rw [Expr.eval, Expr.evalHalting]
      apply (Expr.evalHalting_alike calls condition).onValue
      intro test
      apply (Halting.Alike.ofEval (.ofExcept _)).bind
      intro holds
      cases holds with
      | true => exact (Block.execHalting_alike calls .quiet thenArm).inBlock
      | false => exact Block.execElseHalting_alike calls elseArm
  | call callee args =>
      rw [Expr.eval, Expr.evalHalting]
      apply (Expr.evalAllHalting_alike calls args).onValue
      intro values
      cases callee with
      | name _ name =>
          apply (Halting.Alike.ofEval (.lookup name)).bind
          intro value
          cases value with
          | fn function => exact (calls function values name).bind fun _ => .pure _
          | unit | int | bool | foreign => exact .throw _
      | function _ params body => exact (calls _ values []).bind fun _ => .pure _
      | int | bool | unary | binary | call | branch | missing => exact .throw _
  | missing =>
      rw [Expr.eval, Expr.evalHalting]
      exact .throw _
termination_by structural expr

theorem Expr.evalAllHalting_alike
    (calls : HaltingCaller.Alike base limit active call call')
    (exprs : List Expr) :
    Halting.Alike base limit active (Expr.evalAll call exprs)
      (Expr.evalAllHalting call' exprs) := by
  cases exprs with
  | nil =>
      rw [Expr.evalAll, Expr.evalAllHalting]
      exact .pure _
  | cons expr exprs =>
      rw [Expr.evalAll, Expr.evalAllHalting]
      apply (Expr.evalHalting_alike calls expr).onValue
      intro value
      exact (Expr.evalAllHalting_alike calls exprs).onValue fun _ => .pure _
termination_by structural exprs

theorem Stmt.execHalting_alike
    (calls : HaltingCaller.Alike base limit active call call')
    (stmt : Stmt) :
    Halting.Alike base limit active (stmt.exec call) (stmt.execHalting call') := by
  cases stmt with
  | declare _ name value =>
      rw [Stmt.exec, Stmt.execHalting]
      apply (Expr.evalHalting_alike calls value).bind
      rintro (given | result)
      · exact (Halting.Alike.ofEval (.bind name given)).bind fun _ => .pure _
      · exact .pure _
  | assign _ name value =>
      rw [Stmt.exec, Stmt.execHalting]
      apply (Expr.evalHalting_alike calls value).bind
      rintro (given | result)
      · exact (Halting.Alike.ofEval (.assign name given)).bind fun _ => .pure _
      · exact .pure _
  | expr value =>
      rw [Stmt.exec, Stmt.execHalting]
      apply (Expr.evalHalting_alike calls value).bind
      rintro (given | result) <;> exact .pure _
  | result _ value =>
      rw [Stmt.exec, Stmt.execHalting]
      apply (Expr.evalHalting_alike calls value).bind
      rintro (given | result) <;> exact .pure _
  | missing =>
      rw [Stmt.exec, Stmt.execHalting]
      exact .throw _
termination_by structural stmt

theorem Block.execHalting_alike
    (calls : HaltingCaller.Alike base limit active call call')
    (last : Outcome)
    (stmts : List Stmt) :
    Halting.Alike base limit active (Block.exec call last stmts)
      (Block.execHalting call' last stmts) := by
  cases stmts with
  | nil =>
      rw [Block.exec, Block.execHalting]
      exact .pure _
  | cons stmt stmts =>
      rw [Block.exec, Block.execHalting]
      apply (Stmt.execHalting_alike calls stmt).bind
      intro outcome
      cases outcome with
      | quiet => exact Block.execHalting_alike calls last stmts
      | value value => exact Block.execHalting_alike calls (.value value) stmts
      | returning result => exact .pure _
termination_by structural stmts

theorem Block.execElseHalting_alike
    (calls : HaltingCaller.Alike base limit active call call')
    (arm : Option (List Stmt)) :
    Halting.Alike base limit active (Block.execElse call arm)
      (Block.execElseHalting call' arm) := by
  cases arm with
  | none =>
      rw [Block.execElse, Block.execElseHalting]
      exact .pure _
  | some block =>
      rw [Block.execElse, Block.execElseHalting]
      exact (Block.execHalting_alike calls .quiet block).inBlock
termination_by structural arm

end

end Syntax

/-! ## Calls and programs -/

/-- A limit admits every number of active calls for which it has room. -/
theorem DepthLimit.admits_of_le_room
    {limit : DepthLimit}
    {active : Nat}
    (within : active ≤ limit.room 0) :
    limit.admits active = true := by
  cases limit with
  | atMost calls => exact decide_eq_true within
  | unlimited => rfl

/-- Calls end alike as long as the active calls and the further ones are no more than
the limit has room for. -/
theorem Function.callHalting_alike
    {base : List Event}
    {limit : DepthLimit}
    (refusal : Fault)
    (room : Nat)
    (active : List Activation)
    (within : active.length + room ≤ limit.room 0) :
    HaltingCaller.Alike base limit active (call refusal room) (callHalting refusal room) := by
  induction room generalizing active with
  | zero =>
      intro function args self
      unfold call callHalting
      split <;> exact .throw _
  | succ room inductionHypothesis =>
      intro function args self
      unfold call callHalting
      split
      · apply Halting.Alike.activate function args self
        · exact DepthLimit.admits_of_le_room (by omega)
        · apply Block.execHalting_alike
          apply inductionHypothesis
          rw [List.length_cons]
          omega
      · exact .throw _

/-- The trace of every run from a machine without active calls is well bracketed.  A run
gives the same result and the same trace as the one that stops where it fails, so
nothing is traced after a failure.  The calls that the run leaves open are those that
were active when it stopped, which are none if it succeeds.  Each end of a call has the
name of the latest open call, and each start has one more active call than there are
open ones, as many as the limit admits. -/
theorem call_trace_is_bracketed
    (scope : Scope)
    (trace : List Event)
    (limit : DepthLimit)
    (program : Program) :
    let (result, session) := Session.run ⟨⟨scope, 0, trace⟩, limit⟩ program
    let (halted, station) := program.runHalting limit ⟨scope, [], trace⟩
    halted = result ∧ station.trace = session.machine.trace ∧
      ∃ events, session.machine.trace = events ++ trace ∧
        Event.unclosed events = station.active ∧
        (∀ value, result = .ok value → Event.unclosed events = []) ∧
        (∀ later name outcome earlier, events = later ++ .returned name outcome :: earlier →
          ∃ args outer, Event.unclosed earlier = ⟨name, args⟩ :: outer) ∧
        (∀ later name args depth earlier,
          events = later ++ .calling name args depth :: earlier →
          depth = (Event.unclosed earlier).length + 1 ∧ limit.admits depth = true) := by
  have calls : HaltingCaller.Alike trace limit [] (limit.caller 0)
      (Function.callHalting limit.refusal (limit.room 0)) :=
    Function.callHalting_alike limit.refusal (limit.room 0) []
      (Nat.le_of_eq (Nat.zero_add _))
  have alike := Block.execHalting_alike calls .quiet program ⟨scope, [], trace⟩ rfl
    ⟨[], rfl, trivial, rfl⟩
  unfold Session.run Session.perform Program.runHalting
  dsimp only [Station.machine, List.length_nil] at alike ⊢
  generalize Block.exec (limit.caller 0) .quiet program ⟨scope, 0, trace⟩ = run,
    Block.execHalting (Function.callHalting limit.refusal (limit.room 0)) .quiet program
      ⟨scope, [], trace⟩ = run' at alike ⊢
  obtain ⟨events, since, bracketed, unclosed⟩ := alike.follows
  refine ⟨congrArg (Except.map Outcome.result) alike.result_eq.symm, alike.trace_eq.symm,
    events, alike.trace_eq.trans since, unclosed, ?_, ?_, ?_⟩
  · intro value succeeded
    cases ended : run.1 with
    | ok outcome => exact unclosed.trans (alike.active_eq ended)
    | error fault =>
        change run.1.map Outcome.result = .ok value at succeeded
        rw [ended] at succeeded
        cases succeeded
  · rintro later name outcome earlier rfl
    exact bracketed.fits
  · rintro later name args depth earlier rfl
    exact bracketed.fits

/-- A call ends, and then a call inside another fails as its parameter has the name it is
called by: both stay open, and the inner one has started with two active calls. -/
theorem call_trace_is_bracketed_duplicate_parameter :
    let program : Program :=
      [.declare .start "f" (.function .start ["g"] [.expr (.name .start "g")]),
        .expr (.call (.name .start "f") [.bool .start true]),
        .expr (.call (.function .start ["g"]
          [.expr (.call (.name .start "g") [.int .start 1])]) [.name .start "f"])]
    let session := (Session.run ⟨⟨.fresh, 0, []⟩, .atMost 2⟩ program).2
    let ended : List Event := [.returned "f" (.value (.bool true)), .calling "f" 1 1]
    session.machine.trace = .calling "g" 1 2 :: .calling [] 1 1 :: ended ∧
      (program.runHalting (.atMost 2) ⟨.fresh, [], []⟩).2.active = [⟨"g", 1⟩, ⟨[], 1⟩] ∧
      2 = (Event.unclosed (.calling [] 1 1 :: ended)).length + 1 ∧
      ∃ args outer, Event.unclosed [.calling "f" 1 1] = ⟨"f", args⟩ :: outer := by
  intro program session ended
  have trace : session.machine.trace = .calling "g" 1 2 :: .calling [] 1 1 :: ended := rfl
  obtain ⟨-, -, events, since, unclosed, -, returned, calling⟩ :=
    call_trace_is_bracketed .fresh [] (.atMost 2) program
  obtain rfl : events = .calling "g" 1 2 :: .calling [] 1 1 :: ended := by
    rw [← trace, ← List.append_nil events]
    exact since.symm
  exact ⟨trace, unclosed.symm, (calling [] "g" 1 2 _ rfl).1,
    returned [.calling "g" 1 2, .calling [] 1 1] "f" _ _ rfl⟩

end Siren
