import Siren.Proofs.CallDepth
import Siren.Proofs.WellFormedTrees

/-!
# What can go wrong in a program

A program from a source text fails only with a runtime error.  No part of it is
without a meaning, no name is declared where no block is open, and no parameter is
left without an argument.

This is an invariant of whole sessions: every function in reach, in the scope of any
active call or as a value, is well formed.  Well-formed functions correspond to
themselves, so the invariant is a correspondence of a session with itself.
-/

namespace Siren

/-- A unit, an integer, a truth value or a well-formed function. -/
def Value.Ordinary : Value → Prop
  | .unit => True
  | .int _ => True
  | .bool _ => True
  | .fn function => function.WellFormed
  | .foreign _ => False

/-- A block is open, and all bindings have ordinary values. -/
structure Scope.Ordinary (scope : Scope) : Prop where
  opened : scope.frames ≠ []
  values : ∀ frame ∈ scope.frames, ∀ binding ∈ frame, Value.Ordinary binding.2

/-! ## The invariant -/

/-- Functions that are the same and well formed correspond, and so do faults that are
the same runtime error. -/
def Correspondence.wellFormed : Correspondence where
  function left right := left = right ∧ left.WellFormed
  fault left right := left = right ∧ ∃ error, left = .runtime error
  foreign := False
  params_eq := fun related => congrArg Function.params related.1
  runtime := fun same => ⟨congrArg Fault.runtime same, _, rfl⟩

namespace Correspondence

theorem wellFormed_values_iff (left right : Value) :
    wellFormed.Values left right ↔ left = right ∧ left.Ordinary := by
  constructor
  · intro related
    cases related with
    | unit | int | bool => exact ⟨rfl, trivial⟩
    | fn related => exact ⟨congrArg Value.fn related.1, related.2⟩
    | foreign allowed code => exact allowed.elim
  · rintro ⟨rfl, ordinary⟩
    cases left with
    | unit => exact .unit
    | int value => exact .int value
    | bool value => exact .bool value
    | fn function => exact .fn ⟨rfl, ordinary⟩
    | foreign code => exact ordinary.elim

/-- A scope corresponds to itself when its bindings are ordinary. -/
theorem wellFormed_scopes
    {scope : Scope}
    (ordinary : scope.Ordinary) :
    wellFormed.Scopes scope.depth scope scope := by
  refine ⟨rfl, List.forall₂_same.mpr fun frame member => ?_⟩
  refine List.forall₂_same.mpr fun binding member' => ⟨rfl, ?_⟩
  exact (wellFormed_values_iff _ _).mpr ⟨rfl, ordinary.values frame member binding member'⟩

theorem ordinary_of_scopes
    {height : Nat}
    {scope : Scope}
    (related : wellFormed.Scopes height scope scope)
    (opened : height ≠ 0) :
    scope.Ordinary := by
  refine ⟨?_, fun frame member binding member' => ?_⟩
  · intro none
    rw [← related.height_eq, Scope.depth, none] at opened
    exact opened rfl
  · have bindings := List.forall₂_same.mp (List.forall₂_same.mp related.frames frame member)
    exact ((wellFormed_values_iff _ _).mp (bindings binding member').value).2

mutual

/-- A well-formed expression corresponds to itself. -/
theorem wellFormed_exprs (expr : Expr) (formed : expr.WellFormed) :
    wellFormed.Exprs expr expr := by
  cases expr with
  | name _ name => exact .name
  | int _ value => exact .int
  | bool _ value => exact .bool
  | unary _ op operand =>
      obtain ⟨known, inner⟩ := formed
      exact .unary (fun unknown => nomatch unknown.symm.trans known)
        (wellFormed_exprs operand inner)
  | binary left op right =>
      obtain ⟨known, first, second⟩ := formed
      exact .binary (fun unknown => nomatch unknown.symm.trans known)
        (wellFormed_exprs left first) (wellFormed_exprs right second)
  | function _ params body =>
      obtain ⟨distinct, names, inner⟩ := formed
      exact .function ⟨rfl, distinct, names, inner⟩
  | call callee args =>
      obtain ⟨called, given⟩ := formed
      exact .call (wellFormed_exprs callee called) (wellFormed.runtime rfl)
        (wellFormed_exprLists args given)
  | branch _ condition thenArm elseArm =>
      obtain ⟨test, first, second⟩ := formed
      exact .branch (wellFormed_exprs condition test) (wellFormed_blocks thenArm first)
        (wellFormed_arms elseArm second)
  | missing => exact formed.elim
termination_by structural expr

theorem wellFormed_exprLists (exprs : List Expr) (formed : Expr.AllWellFormed exprs) :
    wellFormed.ExprLists exprs exprs := by
  cases exprs with
  | nil => exact .nil
  | cons expr exprs =>
      exact .cons (wellFormed_exprs expr formed.1) (wellFormed_exprLists exprs formed.2)
termination_by structural exprs

theorem wellFormed_stmts (stmt : Stmt) (formed : stmt.WellFormed) :
    wellFormed.Stmts stmt stmt := by
  cases stmt with
  | declare _ name value => exact .declare (wellFormed_exprs value formed.2)
  | assign _ name value => exact .assign (wellFormed_exprs value formed.2)
  | expr value => exact .expr (wellFormed_exprs value formed)
  | result _ value => exact .result (wellFormed_exprs value formed)
  | missing => exact formed.elim
termination_by structural stmt

theorem wellFormed_blocks (stmts : List Stmt) (formed : Block.WellFormed stmts) :
    wellFormed.Blocks stmts stmts := by
  cases stmts with
  | nil => exact .nil
  | cons stmt stmts =>
      exact .cons (wellFormed_stmts stmt formed.1) (wellFormed_blocks stmts formed.2)
termination_by structural stmts

theorem wellFormed_arms (arm : Option (List Stmt)) (formed : Block.ElseWellFormed arm) :
    wellFormed.Arms arm arm := by
  cases arm with
  | none => exact .none
  | some block => exact .some (wellFormed_blocks block formed)
termination_by structural arm

end

theorem wellFormed_unfolds : wellFormed.Unfolds := by
  rintro function _ ⟨rfl, formed⟩
  exact wellFormed_blocks function.body formed.body

end Correspondence

/-! ## Results -/

/-- An ordinary value or a runtime error. -/
inductive Proper : Except Fault Value → Prop where
  | value {value : Value} (ordinary : value.Ordinary) : Proper (.ok value)
  | failure (error : RuntimeError) : Proper (.error (.runtime error))

theorem Proper.of_outcomes
    {result result' : Except Fault Outcome}
    (related : Correspondence.wellFormed.Results Correspondence.wellFormed.Outcomes
      result result') :
    Proper (result.map Outcome.result) := by
  cases related with
  | ok related => exact .value ((Correspondence.wellFormed_values_iff _ _).mp related.result).2
  | error related =>
      obtain ⟨-, error, rfl⟩ := related
      exact .failure error

/-! ## Evaluation -/

/-- A task on well-formed trees and ordinary values. -/
def Task.Ordinary : Task → Prop
  | .expr tree => tree.WellFormed
  | .args trees => Expr.AllWellFormed trees
  | .stmt tree => tree.WellFormed
  | .seq last stmts => last.result.Ordinary ∧ Block.WellFormed stmts
  | .block stmts => Block.WellFormed stmts
  | .call function values _ => function.WellFormed ∧ ∀ value ∈ values, Value.Ordinary value

/-- Answers to a task that correspond. -/
def Task.Answers (rel : Correspondence) : (task : Task) → task.Answer → task.Answer → Prop
  | .expr _ => rel.Flows rel.Values
  | .args _ => rel.Flows (List.Forall₂ rel.Values)
  | .stmt _ => rel.Outcomes
  | .seq _ _ => rel.Outcomes
  | .block _ => rel.Flows rel.Values
  | .call _ _ _ => rel.Values

namespace Correspondence

theorem wellFormed_values {value : Value} (ordinary : value.Ordinary) :
    wellFormed.Values value value :=
  (wellFormed_values_iff value value).mpr ⟨rfl, ordinary⟩

theorem wellFormed_outcomes {outcome : Outcome} (ordinary : outcome.result.Ordinary) :
    wellFormed.Outcomes outcome outcome := by
  cases outcome with
  | quiet => exact .quiet
  | value value => exact .value (wellFormed_values ordinary)
  | returning result => exact .returning (wellFormed_values ordinary)

/-- An ordinary task is performed alike where functions are called alike. -/
theorem wellFormed_computations
    {call : Caller}
    (callers : wellFormed.Callers call call)
    {task : Task}
    (ordinary : task.Ordinary)
    {height : Nat}
    (opened : height ≠ 0) :
    wellFormed.Computations height (task.Answers wellFormed) (task.perform call)
      (task.perform call) := by
  cases task with
  | expr expr => exact (wellFormed_exprs expr ordinary).eval callers height
  | args exprs => exact (wellFormed_exprLists exprs ordinary).evalAll callers height
  | stmt stmt => exact (wellFormed_stmts stmt ordinary).exec callers (.inl opened)
  | seq last stmts =>
      exact (wellFormed_blocks stmts ordinary.2).exec callers (wellFormed_outcomes ordinary.1)
        (.inl opened)
  | block stmts =>
      exact ((wellFormed_blocks stmts ordinary).exec callers .quiet
        (.inl (Nat.succ_ne_zero height))).inBlock
  | call function args self =>
      exact callers function function args args self height ⟨rfl, ordinary.1⟩
        (List.forall₂_same.mpr fun value member => wellFormed_values (ordinary.2 value member))

end Correspondence

theorem Scope.Ordinary.depth_ne_zero {scope : Scope} (ordinary : scope.Ordinary) :
    scope.depth ≠ 0 :=
  fun none => ordinary.opened (List.length_eq_zero_iff.mp none)

namespace Ends

/-- What ends under a limit or without one also ends in the same way under some
limit: it makes only so many calls. -/
theorem exists_atMost
    {limit : DepthLimit}
    {task : Task}
    {start after : Machine}
    {result : Except Fault task.Answer}
    (ends : Ends limit limit.refusal task start result after) :
    ∃ calls, Ends (.atMost calls) (DepthLimit.atMost calls).refusal task start result after := by
  cases limit with
  | atMost calls => exact ⟨calls, ends⟩
  | unlimited =>
      obtain ⟨events, trace, -⟩ := ends.capped (fun _ excess => nomatch excess) .unlimited .exhausted
      have capped := ends.capped (fun _ excess => nomatch excess) (.atMost (Event.peak events))
        (DepthLimit.atMost (Event.peak events)).refusal
      obtain ⟨events', trace', within, -⟩ := capped
      obtain rfl : events = events' := List.append_cancel_right (trace.symm.trans trace')
      exact ⟨Event.peak events, within (decide_eq_true (Nat.le_refl _))⟩

/-- A session evaluates as the rules say, unless it has no limit and cannot follow the
calls. -/
theorem of_perform (limit : DepthLimit) (task : Task) (machine : Machine) :
    let ended := task.perform (limit.caller machine.depth) machine
    Ends limit limit.refusal task machine ended.1 ended.2 ∨
      limit = .unlimited ∧ ended.1 = .error .exhausted := by
  intro ended
  cases limit with
  | atMost calls => exact .inl (Ends.iff_perform.mpr rfl)
  | unlimited =>
      have ends : Ends (.atMost DepthLimit.ceiling) .exhausted task machine ended.1 ended.2 :=
        Ends.iff_perform.mpr rfl
      by_cases exhausted : ended.1 = .error .exhausted
      · exact .inr ⟨rfl, exhausted⟩
      · obtain ⟨events, -, within, -⟩ :=
          ends.capped (fun _ _ => exhausted) .unlimited .exhausted
        exact .inl (within rfl)

/-- An ordinary task that ends gives an ordinary answer or a runtime error, and leaves
ordinary bindings. -/
theorem ordinary
    {limit : DepthLimit}
    {task : Task}
    {machine after : Machine}
    {result : Except Fault task.Answer}
    (ends : Ends limit limit.refusal task machine result after)
    (formed : task.Ordinary)
    (ordinary : machine.scope.Ordinary) :
    Correspondence.wellFormed.Results (task.Answers Correspondence.wellFormed) result result ∧
      after.scope.Ordinary := by
  obtain ⟨calls, ends⟩ := ends.exists_atMost
  have opened := ordinary.depth_ne_zero
  have refused : Correspondence.wellFormed.fault (DepthLimit.atMost calls).refusal
      (DepthLimit.atMost calls).refusal := Correspondence.wellFormed.runtime rfl
  have callers := Correspondence.call_callers Correspondence.wellFormed_unfolds refused
    (calls - machine.depth)
  obtain ⟨results, machines⟩ := Correspondence.wellFormed_computations callers formed opened
    machine machine ⟨rfl, Correspondence.wellFormed_scopes ordinary⟩
  rw [ends.perform_eq] at results machines
  exact ⟨results, Correspondence.ordinary_of_scopes machines.scope opened⟩

variable {limit : DepthLimit} {machine after : Machine} {result : Except Fault Outcome}

/-- Well-formed statements give a proper result and leave ordinary bindings. -/
theorem proper_of_seq
    {stmts : List Stmt}
    (ends : Ends limit limit.refusal (.seq .quiet stmts) machine result after)
    (ordinary : machine.scope.Ordinary)
    (formed : Block.WellFormed stmts) :
    Proper (result.map Outcome.result) ∧ after.scope.Ordinary := by
  obtain ⟨results, left⟩ := ends.ordinary ⟨trivial, formed⟩ ordinary
  exact ⟨.of_outcomes results, left⟩

/-- So does a well-formed statement. -/
theorem proper_of_stmt
    {stmt : Stmt}
    (ends : Ends limit limit.refusal (.stmt stmt) machine result after)
    (ordinary : machine.scope.Ordinary)
    (formed : stmt.WellFormed) :
    Proper (result.map Outcome.result) ∧ after.scope.Ordinary := by
  obtain ⟨results, left⟩ := ends.ordinary formed ordinary
  exact ⟨.of_outcomes results, left⟩

end Ends

/-! ## Arguments by their place -/

/-- Declares parameters from a place on, each with the argument at its place; a place
without an argument is out of range. -/
def Scope.bindAt (outOfRange : Fault) (args : List Value) (scope : Scope) (place : Nat) :
    List Text → Except Fault Scope
  | [] => .ok scope
  | name :: names =>
    match args[place]? with
    | none => .error outOfRange
    | some value => do
      let scope ← scope.bind name value
      scope.bindAt outOfRange args (place + 1) names

/-- The scope in which the body of a call starts, with the arguments taken by their
places. -/
def Function.scopeAt (outOfRange : Fault) (function : Function) (args : List Value)
    (self : Text) : Except Fault Scope := do
  let scope ← if self = [] then .ok Scope.fresh else Scope.fresh.bind self (.fn function)
  scope.bindAt outOfRange args 0 function.params

/-- With an argument for each parameter no place is out of range. -/
theorem Scope.bindAt_eq
    (outOfRange : Fault)
    (args : List Value)
    (scope : Scope)
    {place : Nat}
    {names : List Text}
    (enough : place + names.length ≤ args.length) :
    scope.bindAt outOfRange args place names = scope.bindAll (names.zip (args.drop place)) := by
  induction names generalizing scope place with
  | nil => rfl
  | cons name names inductionHypothesis =>
      rw [List.length_cons] at enough
      have inRange : place < args.length := by omega
      rw [bindAt, List.getElem?_eq_getElem inRange, List.drop_eq_getElem_cons inRange,
        List.zip_cons_cons, bindAll]
      dsimp only
      cases scope.bind name args[place] with
      | error fault => rfl
      | ok scope => exact inductionHypothesis scope (by omega)

/-- A call with as many arguments as parameters takes each argument from its place. -/
theorem Function.scopeAt_eq
    (outOfRange : Fault)
    {function : Function}
    {args : List Value}
    (fits : args.length = function.arity)
    (self : Text) :
    function.scopeAt outOfRange args self = function.scope args self := by
  have enough : 0 + function.params.length ≤ args.length := by
    rw [fits, Nat.zero_add]
    exact Nat.le_refl _
  rw [scopeAt, scope]
  split
  · exact Scope.bindAt_eq outOfRange args _ enough
  · rw [List.cons_append, List.nil_append, Scope.bindAll]
    cases Scope.fresh.bind self (.fn function) with
    | error fault => rfl
    | ok scope => exact Scope.bindAt_eq outOfRange args scope enough

/-- A call with too few or too many arguments does nothing but fail. -/
theorem Function.call_of_arity
    (refusal : Fault)
    (room : Nat)
    {function : Function}
    {args : List Value}
    (mismatch : args.length ≠ function.arity)
    (self : Text)
    (machine : Machine) :
    Function.call refusal room function args self machine =
      (.error (.runtime (.arityMismatch function.arity args.length)), machine) := by
  cases room <;> rw [Function.call, if_neg mismatch] <;> rfl

/-! ## Programs from source texts -/

/-- A machine that a session under a limit comes to by programs from source texts
without syntax errors, each of them run as a whole or by some of its statements. -/
inductive Machine.Reached (limit : DepthLimit) : Machine → Prop where
  | start : Reached limit (Session.start limit).machine
  | run {machine after : Machine} {source : Text} {result : Except Fault Value}
      (before : Reached limit machine)
      (clean : (Program.ofText source).errors = [])
      (ends : (Program.ofText source).program.EndsWith limit limit.refusal machine result after) :
      Reached limit after
  | exec {machine after : Machine} {source : Text} {stmt : Stmt} {result : Except Fault Outcome}
      (before : Reached limit machine)
      (clean : (Program.ofText source).errors = [])
      (member : stmt ∈ (Program.ofText source).program)
      (ends : Ends limit limit.refusal (.stmt stmt) machine result after) :
      Reached limit after

theorem Machine.Reached.ordinary
    {limit : DepthLimit}
    {machine : Machine}
    (reached : machine.Reached limit) :
    machine.scope.Ordinary := by
  induction reached with
  | start =>
      refine ⟨List.cons_ne_nil _ _, fun frame member binding member' => ?_⟩
      rw [List.mem_singleton.mp member] at member'
      cases member'
  | run before clean ends ordinary =>
      obtain ⟨outcome, ends, -⟩ := ends
      exact (ends.proper_of_seq ordinary (Program.wellFormed_ofText clean)).2
  | exec before clean member ends ordinary =>
      exact (ends.proper_of_stmt ordinary ((Program.wellFormed_ofText clean).of_mem member)).2

/-- Programs from source texts fail only with runtime errors.  Whatever such programs a
session has run, under any limit: a block is open and all bindings have ordinary values,
and so do the bindings after any further evaluation that ends.  A program, or one of its
statements, that ends gives an ordinary value or a runtime error, and nothing else can
come of it in a session, except that without a limit there may be more calls than can be
followed.  No call takes an argument from a place out of range, because it fails first
when the arguments are not as many as the parameters. -/
theorem parsed_programs_fail_only_at_runtime
    {limit : DepthLimit}
    {machine : Machine}
    (reached : machine.Reached limit) :
    machine.scope.Ordinary ∧
    (∀ source, (Program.ofText source).errors = [] →
      let program := (Program.ofText source).program
      (∀ result after, program.EndsWith limit limit.refusal machine result after →
        Proper result ∧ after.scope.Ordinary) ∧
      (∀ stmt ∈ program, ∀ result after,
        Ends limit limit.refusal (.stmt stmt) machine result after →
          Proper (result.map Outcome.result) ∧ after.scope.Ordinary) ∧
      (∀ result after, Session.run ⟨machine, limit⟩ program = (result, after) →
        program.EndsWith limit limit.refusal machine result after.machine ∨
          limit = .unlimited ∧ result = .error .exhausted) ∧
      ∀ stmt ∈ program, ∀ result after, Session.exec ⟨machine, limit⟩ stmt = (result, after) →
        Ends limit limit.refusal (.stmt stmt) machine result after.machine ∨
          limit = .unlimited ∧ result = .error .exhausted) ∧
    ∀ (function : Function) (args : List Value) (self : Text),
      (args.length = function.arity → ∀ outOfRange,
        function.scopeAt outOfRange args self = function.scope args self) ∧
      (args.length ≠ function.arity → ∀ refusal room,
        Function.call refusal room function args self machine =
          (.error (.runtime (.arityMismatch function.arity args.length)), machine)) := by
  have ordinary := reached.ordinary
  refine ⟨ordinary, fun source clean => ?_, fun function args self => ⟨?_, ?_⟩⟩
  · have formed := Program.wellFormed_ofText clean
    refine ⟨?_, ?_, ?_, ?_⟩
    · rintro result after ⟨outcome, ends, rfl⟩
      exact ends.proper_of_seq ordinary formed
    · intro stmt member result after ends
      exact ends.proper_of_stmt ordinary (formed.of_mem member)
    · rintro _ _ ⟨rfl, rfl⟩
      obtain ends | ⟨unlimited, exhausted⟩ := Ends.of_perform limit (.seq .quiet _) machine
      · exact .inl ⟨_, ends, rfl⟩
      · exact .inr ⟨unlimited, congrArg (·.map Outcome.result) exhausted⟩
    · rintro stmt member _ _ ⟨rfl, rfl⟩
      exact Ends.of_perform limit (.stmt stmt) machine
  · exact fun fits outOfRange => Function.scopeAt_eq outOfRange fits self
  · exact fun mismatch refusal room => Function.call_of_arity refusal room mismatch self machine

/-- A function from one source text, called by another, fails with a runtime error. -/
theorem parsed_programs_fail_only_at_runtime_division :
    let first := Program.ofText "let f = fn(n) { return 10 / n }"
    let second := Program.ofText "f(0)"
    let session := ((Session.start (.atMost 1)).run first.program).2
    session.machine.Reached (.atMost 1) ∧ first.errors = [] ∧ second.errors = [] ∧
      Proper (session.run second.program).1 ∧
      (session.run second.program).1.map Value.text = .error (.runtime .divisionByZero) := by
  intro first second session
  have clean : first.errors = [] := by decide +kernel
  have clean' : second.errors = [] := by decide +kernel
  have reached : session.machine.Reached (.atMost 1) :=
    .run .start clean ((Session.run_eq_iff (.atMost 1)).mp rfl)
  have safe := (parsed_programs_fail_only_at_runtime reached).2.1 _ clean'
  obtain ends | ⟨unlimited, -⟩ := safe.2.2.1 _ _ rfl
  · exact ⟨reached, clean, clean', (safe.1 _ _ ends).1, by decide +kernel⟩
  · cases unlimited

end Siren
