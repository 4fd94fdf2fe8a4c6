import Siren.Proofs.RuntimeSafety

/-!
# The frames in which calls start

The body of a call starts in a single frame.  It holds the name by which the function
was called, if there is one, and behind it the parameters with their arguments.  The
parameters of a function are distinct, so the only name that can be declared twice is
the one by which the function is called.

That parameters are distinct is checked where a function is read.  From there functions
go through declarations, assignments, arguments and results, so it has to be an invariant
of everything that is evaluated on the way: of the tasks that an evaluation enters one
from another, whether it ends or not.
-/

namespace Siren

/-! ## Tasks on the way -/

/-- Evaluating a task on a machine enters a part of it on another machine: the parts
before that one have ended. -/
inductive Task.Enters (limit : DepthLimit) : Task → Machine → Task → Machine → Prop where
  | operand {machine : Machine} {pos : Position} {op : UnaryOp} {operand : Expr} :
      Enters limit (.expr (.unary pos op operand)) machine (.expr operand) machine
  | left {machine : Machine} {op : BinaryOp} {left right : Expr} :
      Enters limit (.expr (.binary left op right)) machine (.expr left) machine
  | right {start between : Machine} {op : BinaryOp} {left right : Expr} {value : Value}
      (first : Ends limit limit.refusal (.expr left) start (.ok (.value value)) between) :
      Enters limit (.expr (.binary left op right)) start (.expr right) between
  | condition {machine : Machine} {pos : Position} {condition : Expr}
      {thenArm : List Stmt} {elseArm : Option (List Stmt)} :
      Enters limit (.expr (.branch pos condition thenArm elseArm)) machine
        (.expr condition) machine
  | thenArm {start between : Machine} {pos : Position} {condition : Expr}
      {thenArm : List Stmt} {elseArm : Option (List Stmt)} {value : Value}
      (test : Ends limit limit.refusal (.expr condition) start (.ok (.value value)) between)
      (holds : value.asBool = .ok true) :
      Enters limit (.expr (.branch pos condition thenArm elseArm)) start (.block thenArm) between
  | elseArm {start between : Machine} {pos : Position} {condition : Expr}
      {thenArm block : List Stmt} {value : Value}
      (test : Ends limit limit.refusal (.expr condition) start (.ok (.value value)) between)
      (fails : value.asBool = .ok false) :
      Enters limit (.expr (.branch pos condition thenArm (some block))) start
        (.block block) between
  | args {machine : Machine} {callee : Expr} {args : List Expr} :
      Enters limit (.expr (.call callee args)) machine (.args args) machine
  | callee {start between : Machine} {callee : Expr} {args : List Expr}
      {values : List Value} {function : Function} {self : Text}
      (first : Ends limit limit.refusal (.args args) start (.ok (.value values)) between)
      (resolved : callee.callee between.scope = .ok (function, self)) :
      Enters limit (.expr (.call callee args)) start (.call function values self) between
  | arg {machine : Machine} {expr : Expr} {exprs : List Expr} :
      Enters limit (.args (expr :: exprs)) machine (.expr expr) machine
  | moreArgs {start between : Machine} {expr : Expr} {exprs : List Expr} {value : Value}
      (first : Ends limit limit.refusal (.expr expr) start (.ok (.value value)) between) :
      Enters limit (.args (expr :: exprs)) start (.args exprs) between
  | inner {machine : Machine} (hole : StmtHole) {expr : Expr} :
      Enters limit (.stmt (hole.fill expr)) machine (.expr expr) machine
  | first {machine : Machine} {last : Outcome} {stmt : Stmt} {stmts : List Stmt} :
      Enters limit (.seq last (stmt :: stmts)) machine (.stmt stmt) machine
  | quiet {start between : Machine} {last : Outcome} {stmt : Stmt} {stmts : List Stmt}
      (first : Ends limit limit.refusal (.stmt stmt) start (.ok .quiet) between) :
      Enters limit (.seq last (stmt :: stmts)) start (.seq last stmts) between
  | value {start between : Machine} {last : Outcome} {stmt : Stmt} {stmts : List Stmt}
      {value : Value}
      (first : Ends limit limit.refusal (.stmt stmt) start (.ok (.value value)) between) :
      Enters limit (.seq last (stmt :: stmts)) start (.seq (.value value) stmts) between
  | block {machine : Machine} {stmts : List Stmt} :
      Enters limit (.block stmts) machine (.seq .quiet stmts)
        { machine with scope := machine.scope.push }
  | body {machine : Machine} {function : Function} {args : List Value} {self : Text}
      {scope : Scope}
      (fits : args.length = function.arity)
      (room : limit.admits (machine.depth + 1) = true)
      (bound : function.scope args self = .ok scope) :
      Enters limit (.call function args self) machine (.seq .quiet function.body)
        ⟨scope, machine.depth + 1,
          .calling self args.length (machine.depth + 1) :: machine.trace⟩

/-- A task that comes up on a machine while a session under a limit evaluates programs
from source texts without syntax errors, whether the evaluation ends or not. -/
inductive Task.Visited (limit : DepthLimit) : Task → Machine → Prop where
  | program {machine : Machine} {source : Text}
      (reached : machine.Reached limit)
      (clean : (Program.ofText source).errors = []) :
      Visited limit (.seq .quiet (Program.ofText source).program) machine
  | stmt {machine : Machine} {source : Text} {stmt : Stmt}
      (reached : machine.Reached limit)
      (clean : (Program.ofText source).errors = [])
      (member : stmt ∈ (Program.ofText source).program) :
      Visited limit (.stmt stmt) machine
  | part {task task' : Task} {machine machine' : Machine}
      (whole : Visited limit task machine)
      (enters : Task.Enters limit task machine task' machine') :
      Visited limit task' machine'

/-! ## The invariant -/

namespace Scope.Ordinary

theorem push {scope : Scope} (ordinary : scope.Ordinary) : scope.push.Ordinary := by
  refine ⟨List.cons_ne_nil _ _, fun frame member => ?_⟩
  rcases List.mem_cons.mp member with rfl | outer
  · exact List.forall_mem_nil _
  · exact ordinary.values frame outer

/-- The value of a name is ordinary. -/
theorem of_lookup
    {scope : Scope}
    (ordinary : scope.Ordinary)
    {name : Text}
    {value : Value}
    (found : scope.lookup name = .ok value) :
    value.Ordinary := by
  have related := (Correspondence.wellFormed_scopes ordinary).lookup name
  rw [found] at related
  cases related with
  | ok related => exact ((Correspondence.wellFormed_values_iff _ _).mp related).2

end Scope.Ordinary

/-- The scope of a call of a well-formed function with ordinary arguments is ordinary. -/
theorem Function.ordinary_scope
    {function : Function}
    (formed : function.WellFormed)
    {args : List Value}
    (given : ∀ value ∈ args, Value.Ordinary value)
    {self : Text}
    {scope : Scope}
    (bound : function.scope args self = .ok scope) :
    scope.Ordinary := by
  have same : Correspondence.wellFormed.function function function := ⟨rfl, formed⟩
  have related := Correspondence.function_scope same
    (List.forall₂_same.mpr fun value member => Correspondence.wellFormed_values (given value member))
    self
  rw [bound] at related
  cases related with
  | ok scopes => exact Correspondence.ordinary_of_scopes scopes Nat.one_ne_zero

/-- A well-formed callee calls a well-formed function. -/
theorem Expr.WellFormed.callee
    {callee : Expr}
    (formed : callee.WellFormed)
    {scope : Scope}
    (ordinary : scope.Ordinary)
    {function : Function}
    {self : Text}
    (resolved : callee.callee scope = .ok (function, self)) :
    function.WellFormed := by
  cases callee with
  | name pos name =>
      rw [Expr.callee] at resolved
      cases found : scope.lookup name with
      | error error =>
          rw [found] at resolved
          cases resolved
      | ok value =>
          rw [found] at resolved
          have known := ordinary.of_lookup found
          cases value with
          | fn called =>
              cases resolved
              exact known
          | unit | int | bool | foreign => cases resolved
  | function pos params body =>
      cases resolved
      exact ⟨formed.1, formed.2.1, formed.2.2⟩
  | int | bool | unary | binary | call | branch | missing => cases resolved

namespace Ends

variable {limit : DepthLimit} {start after : Machine}

theorem ordinary_of_expr
    {expr : Expr}
    {value : Value}
    (ends : Ends limit limit.refusal (.expr expr) start (.ok (.value value)) after)
    (formed : expr.WellFormed)
    (ordinary : start.scope.Ordinary) :
    value.Ordinary ∧ after.scope.Ordinary := by
  obtain ⟨answers, left⟩ := ends.ordinary formed ordinary
  cases answers with
  | ok flows =>
      cases flows with
      | value related => exact ⟨((Correspondence.wellFormed_values_iff _ _).mp related).2, left⟩

theorem ordinary_of_args
    {exprs : List Expr}
    {values : List Value}
    (ends : Ends limit limit.refusal (.args exprs) start (.ok (.value values)) after)
    (formed : Expr.AllWellFormed exprs)
    (ordinary : start.scope.Ordinary) :
    (∀ value ∈ values, Value.Ordinary value) ∧ after.scope.Ordinary := by
  obtain ⟨answers, left⟩ := ends.ordinary formed ordinary
  refine ⟨fun value member => ?_, left⟩
  cases answers with
  | ok flows =>
      cases flows with
      | value related =>
          have same := List.forall₂_same.mp related value member
          exact ((Correspondence.wellFormed_values_iff _ _).mp same).2

theorem ordinary_of_stmt
    {stmt : Stmt}
    {outcome : Outcome}
    (ends : Ends limit limit.refusal (.stmt stmt) start (.ok outcome) after)
    (formed : stmt.WellFormed)
    (ordinary : start.scope.Ordinary) :
    outcome.result.Ordinary ∧ after.scope.Ordinary := by
  obtain ⟨answers, left⟩ := ends.ordinary formed ordinary
  cases answers with
  | ok related => exact ⟨((Correspondence.wellFormed_values_iff _ _).mp related.result).2, left⟩

end Ends

namespace Task

variable {limit : DepthLimit} {task task' : Task} {machine machine' : Machine}

/-- An ordinary task on ordinary bindings enters only such tasks. -/
theorem Enters.ordinary
    (enters : Enters limit task machine task' machine')
    (formed : task.Ordinary)
    (ordinary : machine.scope.Ordinary) :
    task'.Ordinary ∧ machine'.scope.Ordinary := by
  cases enters with
  | operand => exact ⟨formed.2, ordinary⟩
  | left => exact ⟨formed.2.1, ordinary⟩
  | right first => exact ⟨formed.2.2, (first.ordinary_of_expr formed.2.1 ordinary).2⟩
  | condition => exact ⟨formed.1, ordinary⟩
  | thenArm test holds => exact ⟨formed.2.1, (test.ordinary_of_expr formed.1 ordinary).2⟩
  | elseArm test fails => exact ⟨formed.2.2, (test.ordinary_of_expr formed.1 ordinary).2⟩
  | args => exact ⟨formed.2, ordinary⟩
  | callee first resolved =>
      obtain ⟨given, left⟩ := first.ordinary_of_args formed.2 ordinary
      exact ⟨⟨Expr.WellFormed.callee formed.1 left resolved, given⟩, left⟩
  | arg => exact ⟨formed.1, ordinary⟩
  | moreArgs first => exact ⟨formed.2, (first.ordinary_of_expr formed.1 ordinary).2⟩
  | inner hole =>
      refine ⟨?_, ordinary⟩
      cases hole with
      | declare pos name => exact formed.2
      | assign pos name => exact formed.2
      | expr => exact formed
      | result pos => exact formed
  | first => exact ⟨formed.2.1, ordinary⟩
  | quiet first => exact ⟨⟨formed.1, formed.2.2⟩, (first.ordinary_of_stmt formed.2.1 ordinary).2⟩
  | value first =>
      obtain ⟨given, left⟩ := first.ordinary_of_stmt formed.2.1 ordinary
      exact ⟨⟨given, formed.2.2⟩, left⟩
  | block => exact ⟨⟨trivial, formed⟩, ordinary.push⟩
  | body fits room bound =>
      exact ⟨⟨trivial, formed.1.body⟩, Function.ordinary_scope formed.1 formed.2 bound⟩

/-- Whatever comes up in a session is ordinary, step by step. -/
theorem Visited.ordinary (visited : Visited limit task machine) :
    task.Ordinary ∧ machine.scope.Ordinary := by
  induction visited with
  | program reached clean => exact ⟨⟨trivial, Program.wellFormed_ofText clean⟩, reached.ordinary⟩
  | stmt reached clean member =>
      exact ⟨(Program.wellFormed_ofText clean).of_mem member, reached.ordinary⟩
  | part whole enters inductionHypothesis =>
      exact enters.ordinary inductionHypothesis.1 inductionHypothesis.2

end Task

/-- Every function in a frame has distinct parameters. -/
def Scope.Distinct (scope : Scope) : Prop :=
  ∀ frame ∈ scope.frames, ∀ binding ∈ frame, ∀ function,
    binding.2 = .fn function → function.params.Nodup

theorem Scope.Ordinary.distinct {scope : Scope} (ordinary : scope.Ordinary) : scope.Distinct := by
  intro frame member binding member' function bound
  have formed := ordinary.values frame member binding member'
  rw [bound] at formed
  exact formed.distinct

/-! ## The scope of a call -/

namespace Scope

theorem bindAll_append (scope : Scope) (first second : List Binding) :
    scope.bindAll (first ++ second) = (do
      let scope ← scope.bindAll first
      scope.bindAll second) := by
  induction first generalizing scope with
  | nil => rfl
  | cons binding first inductionHypothesis =>
      rw [List.cons_append, bindAll, bindAll]
      cases scope.bind binding.1 binding.2 with
      | error fault => rfl
      | ok scope => exact inductionHypothesis scope

/-- Distinct names are all declared in the innermost frame, in their order. -/
theorem bindAll_of_nodup
    {frame : Frame}
    {bindings : List Binding}
    (distinct : (Frame.names (frame ++ bindings)).Nodup)
    (outer : List Frame) :
    bindAll ⟨frame :: outer⟩ bindings = .ok ⟨(frame ++ bindings) :: outer⟩ := by
  induction bindings generalizing frame with
  | nil => rw [bindAll, List.append_nil]
  | cons binding bindings inductionHypothesis =>
      have fresh : Frame.declares frame binding.1 = false := by
        rw [Bool.eq_false_iff, ne_eq, Frame.declares_iff]
        intro declared
        rw [Frame.names, List.map_append, List.nodup_append] at distinct
        exact distinct.2.2 _ declared _ List.mem_cons_self rfl
      rw [List.append_cons] at distinct ⊢
      rw [bindAll, bind]
      dsimp only
      rw [fresh, if_neg Bool.false_ne_true]
      exact inductionHypothesis distinct

/-- The first name that is declared already is the one that fails. -/
theorem bindAll_of_declared
    {frame : Frame}
    {bindings : List Binding}
    {name : Text}
    (distinct : (Frame.names (frame ++ bindings)).Nodup)
    (declared : name ∈ Frame.names (frame ++ bindings))
    (value : Value)
    (outer : List Frame)
    (others : List Binding) :
    bindAll ⟨frame :: outer⟩ (bindings ++ (name, value) :: others) =
      .error (.runtime (.duplicateBinding name)) := by
  rw [bindAll_append, bindAll_of_nodup distinct]
  change bindAll ⟨(frame ++ bindings) :: outer⟩ ((name, value) :: others) = _
  rw [bindAll, bind]
  dsimp only
  rw [(Frame.declares_iff _ _).mpr declared, if_pos rfl]
  rfl

end Scope

/-- The name by which a callee is called, unless it is called where it is written. -/
def Expr.calledName : Expr → Option Text
  | .name _ called => some called
  | _ => none

/-- The frame in which a call starts: the name by which the function is called, bound to
the function itself, and then each parameter bound to its argument. -/
def Function.startFrame (function : Function) (args : List Value) (name : Option Text) : Frame :=
  (name.map fun name => (name, .fn function)).toList ++ function.params.zip args

namespace Function

variable {function : Function} {args : List Value}

theorem names_zip (fits : args.length = function.arity) :
    Frame.names (function.params.zip args) = function.params := by
  apply List.map_fst_zip
  rw [fits]
  exact Nat.le_refl _

/-- The scope of a call holds the name and the parameters, as far as they can be
declared. -/
theorem scope_eq
    {callee : Expr}
    (formed : callee.WellFormed)
    {scope : Scope}
    {self : Text}
    (resolved : callee.callee scope = .ok (function, self))
    (args : List Value) :
    function.scope args self = Scope.fresh.bindAll (function.startFrame args callee.calledName) := by
  rw [Function.scope, startFrame]
  cases callee with
  | name pos name =>
      have nonempty : name ≠ [] := by
        rintro rfl
        cases formed
      have same : name = self := by
        rw [Expr.callee] at resolved
        split at resolved
        · cases resolved
          rfl
        all_goals cases resolved
      rw [← same, if_neg nonempty]
      rfl
  | function pos params body =>
      cases resolved
      rw [if_pos rfl]
      rfl
  | int | bool | unary | binary | call | branch | missing => cases resolved

/-- A call by a name that no parameter has starts in a frame with all the bindings. -/
theorem bindAll_startFrame
    (distinct : function.params.Nodup)
    (fits : args.length = function.arity)
    {name : Option Text}
    (apart : ∀ called ∈ name, called ∉ function.params) :
    Scope.fresh.bindAll (function.startFrame args name) =
      .ok ⟨[function.startFrame args name]⟩ := by
  apply Scope.bindAll_of_nodup
  rw [List.nil_append, startFrame, Frame.names, List.map_append, ← Frame.names, ← Frame.names,
    names_zip fits]
  cases name with
  | none => exact distinct
  | some name => exact List.nodup_cons.mpr ⟨apart name rfl, distinct⟩

/-- A call by the name of a parameter fails with that name. -/
theorem bindAll_startFrame_of_param
    (distinct : function.params.Nodup)
    (fits : args.length = function.arity)
    {name : Text}
    (param : name ∈ function.params) :
    Scope.fresh.bindAll (function.startFrame args (some name)) =
      .error (.runtime (.duplicateBinding name)) := by
  rw [← names_zip fits] at distinct param
  obtain ⟨⟨called, value⟩, member, rfl⟩ := List.mem_map.mp param
  obtain ⟨before, behind, split⟩ := List.append_of_mem member
  rw [split, Frame.names, List.map_append, List.map_cons, List.perm_middle.nodup_iff] at distinct
  obtain ⟨apart, distinct⟩ := List.nodup_cons.mp distinct
  rw [startFrame, split]
  change Scope.bindAll ⟨[[]]⟩ (((called, .fn function) :: before) ++ (called, value) :: behind) = _
  apply Scope.bindAll_of_declared
  · refine List.nodup_cons.mpr ⟨fun early => apart ?_, (List.nodup_append.mp distinct).1⟩
    exact List.mem_append_left _ early
  · exact List.mem_cons_self

end Function

/-! ## Calls -/

/-- With room for one more call, a call with the right number of arguments runs the body
of the function in its own scope. -/
theorem DepthLimit.caller_of_room
    {limit : DepthLimit}
    {machine : Machine}
    (room : 0 < limit.room machine.depth)
    {function : Function}
    {args : List Value}
    (fits : args.length = function.arity)
    (self : Text) :
    limit.caller machine.depth function args self machine =
      function.activate args self
        (Block.exec (limit.caller (machine.depth + 1)) .quiet function.body) machine := by
  have smaller : limit.room machine.depth = limit.room (machine.depth + 1) + 1 := by
    rw [DepthLimit.room_eq] at room ⊢
    rw [DepthLimit.room_eq limit (machine.depth + 1)]
    omega
  rw [DepthLimit.caller, smaller, Function.call, if_pos fits]
  rfl

/-- Call frames are built exactly, and only the name by which a function is called can be
declared twice.  Whatever comes up while a session evaluates programs without syntax
errors, every function in its frames has distinct parameters, and so has every function in
the frames it leaves.  Take any call that comes up, with its arguments evaluated and its
callee resolved, that has the right number of arguments and room for one more call.  When
it is made by the name of a parameter it fails with that name, before anything of the body
is executed.  Otherwise the body is executed in a scope of one frame, which holds the name
of the call, if there is one, and then the parameters with their arguments. -/
theorem call_frames_are_exact
    {limit : DepthLimit}
    {task : Task}
    {machine : Machine}
    (visited : task.Visited limit machine) :
    machine.scope.Distinct ∧
    (∀ result after, Ends limit limit.refusal task machine result after →
      after.scope.Distinct) ∧
    ∀ callee args, task = .expr (.call callee args) →
      ∀ values between function self,
        Expr.evalAll (limit.caller machine.depth) args machine = (.ok (.value values), between) →
        callee.callee between.scope = .ok (function, self) →
        values.length = function.arity →
        0 < limit.room between.depth →
        let call := (Expr.call callee args).eval (limit.caller machine.depth) machine
        let trace := .calling self values.length (between.depth + 1) :: between.trace
        let frame := function.startFrame values callee.calledName
        let body := Block.exec (limit.caller (between.depth + 1)) .quiet function.body
          ⟨⟨[frame]⟩, between.depth + 1, trace⟩
        function.params.Nodup ∧
        (∀ name ∈ callee.calledName, name ∈ function.params →
          call = (.error (.runtime (.duplicateBinding name)), { between with trace })) ∧
        ((∀ name ∈ callee.calledName, name ∉ function.params) →
          function.scope values self = .ok ⟨[frame]⟩ ∧
          call.1 = body.1.map (.value ·.result) ∧
          call.2.scope = between.scope ∧ call.2.depth = body.2.depth - 1) := by
  obtain ⟨formed, ordinary⟩ := visited.ordinary
  refine ⟨ordinary.distinct, fun result after ends => (ends.ordinary formed ordinary).2.distinct, ?_⟩
  rintro callee args rfl values between function self evaluated resolved fits room
  have ends : Ends limit limit.refusal (.args args) machine (.ok (.value values)) between := by
    have performed := Ends.of_perform limit (.args args) machine
    rw [Task.perform, evaluated] at performed
    refine performed.resolve_right fun exhausted => ?_
    cases exhausted.2
  obtain ⟨-, left⟩ := ends.ordinary_of_args formed.2 ordinary
  have distinct := (Expr.WellFormed.callee formed.1 left resolved).distinct
  have scope := Function.scope_eq formed.1 resolved values
  have called : (Expr.call callee args).eval (limit.caller machine.depth) machine = _ :=
    Expr.eval_call evaluated
  rw [resolved, ← ends.depth_eq] at called
  dsimp only at called
  rw [Eval.bind_apply, DepthLimit.caller_of_room room fits, Function.activate, scope] at called
  refine ⟨distinct, fun name named param => ?_, fun apart => ?_⟩
  · rw [Option.mem_def.mp named, Function.bindAll_startFrame_of_param distinct fits param] at called
    dsimp only at called ⊢
    rw [← ends.depth_eq]
    exact called
  · rw [Function.bindAll_startFrame distinct fits apart] at called scope
    dsimp only at called ⊢
    rw [← ends.depth_eq, called]
    generalize Block.exec _ _ _ _ = run
    obtain ⟨fault | outcome, after⟩ := run
    · exact ⟨scope, rfl, rfl, rfl⟩
    · exact ⟨scope, rfl, rfl, rfl⟩

/-- The name and the number of a program that is one call of a name with a number. -/
def calledWithNumber? : Program → Option (Text × Int64)
  | [.expr (.call (.name _ name) [.int _ value])] => some (name, value)
  | _ => none

/-- A function is called by a second name, which is also that of its parameter. -/
theorem call_frames_are_exact_alias :
    let defining := Program.ofText "let f = fn(g) \x7b g \x7d; let g = f"
    let calling := Program.ofText "g(1)"
    let session := ((Session.start (.atMost 9)).run defining.program).2
    ∃ pos pos', calling.program = [.expr (.call (.name pos "g") [.int pos' 1])] ∧
      Task.Visited (.atMost 9) (.expr (.call (.name pos "g") [.int pos' 1])) session.machine ∧
      ((Expr.call (.name pos "g") [.int pos' 1]).eval
        ((DepthLimit.atMost 9).caller session.machine.depth) session.machine).1 =
          .error (.runtime (.duplicateBinding "g")) := by
  intro defining calling session
  have clean : defining.errors = [] := by decide +kernel
  have clean' : calling.errors = [] := by decide +kernel
  have reached : session.machine.Reached (.atMost 9) :=
    .run .start clean ((Session.run_eq_iff (.atMost 9)).mp rfl)
  have written : calledWithNumber? calling.program = some (("g" : Text), (1 : Int64)) := by
    decide +kernel
  have bound : (Expr.callee session.machine.scope (.name .start "g")).map
      (fun called => (called.1.params, called.2)) = .ok ([("g" : Text)], "g") := by decide +kernel
  unfold calledWithNumber? at written
  split at written
  case h_2 => cases written
  case h_1 program pos name pos' value parsed =>
    cases known : Expr.callee session.machine.scope (.name .start "g") with
    | error fault =>
      rw [known] at bound
      cases bound
    | ok called =>
      obtain ⟨function, self⟩ := called
      rw [known] at bound
      obtain ⟨params, rfl⟩ := Prod.mk.inj (Except.ok.inj bound)
      cases written
      have visited : Task.Visited (.atMost 9) (.expr (.call (.name pos "g") [.int pos' 1]))
          session.machine :=
        .part (.stmt reached clean' (parsed ▸ List.mem_singleton_self _)) (.inner .expr)
      have resolved : Expr.callee session.machine.scope (.name pos "g") = .ok (function, "g") := by
        rw [← known, Expr.callee, Expr.callee]
      have arity : [Value.int 1].length = function.arity := by
        rw [Function.arity, params]
        rfl
      have room : 0 < (DepthLimit.atMost 9).room session.machine.depth := by decide +kernel
      have fails := ((call_frames_are_exact visited).2.2 _ _ rfl [.int 1] session.machine function
        "g" rfl resolved arity room).2.1 "g" rfl (params ▸ List.mem_singleton_self _)
      exact ⟨pos, pos', parsed, visited, congrArg Prod.fst fails⟩

end Siren
