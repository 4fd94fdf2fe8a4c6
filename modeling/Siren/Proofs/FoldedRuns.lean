import Siren.Proofs.CallDepth
import Siren.Proofs.ExactArithmetic
import Siren.Proofs.PrintAndParse

/-!
# Runs with folded minus signs

A minus sign before digits is an operator on a literal, or a part of the literal.  The
two give the same value, because the literal without its sign is never the least
integer.  Where calls stand between the sign and the literal the trees differ more,
since the sign moves to the other side of the calls; but a literal cannot be called, so
both evaluate the same arguments and then fail.

So folding minus signs, in a program and in the functions that its bindings hold,
changes nothing but the functions in values and how an error prints a callee that is no
function.
-/

namespace Siren

/-! ## Folded values -/

/-- A function with the minus signs in its body folded. -/
def Function.fold (function : Function) : Function :=
  ⟨function.params, Block.fold function.body⟩

/-- A value with the minus signs of a function folded. -/
def Value.fold : Value → Value :=
  Value.mapFunction Function.fold

/-- A scope with the minus signs of its functions folded. -/
def Scope.fold : Scope → Scope :=
  Scope.mapFunction Function.fold

/-- A machine with the minus signs of the functions in its scope folded. -/
def Machine.fold (machine : Machine) : Machine :=
  { machine with scope := machine.scope.fold }

/-- Faults of one kind: the same, or that a callee is no function, which may be printed
in two ways. -/
inductive Fault.SameKind : Fault → Fault → Prop where
  | same (fault : Fault) : SameKind fault fault
  | notCallable (found found' : Text) :
      SameKind (.runtime (.notCallable found)) (.runtime (.notCallable found'))

/-- A result and what it is after folding: the folded value, or a fault of the same
kind. -/
inductive Folds : Except Fault Value → Except Fault Value → Prop where
  | ok (value : Value) : Folds (.ok value) (.ok value.fold)
  | error {fault fault' : Fault} (kind : fault.SameKind fault') :
      Folds (.error fault) (.error fault')

/-! ## Signs before calls -/

namespace Expr

/-- A chain of calls on a literal cannot be called, with or without its sign. -/
theorem isCallable_of_isNaturalChain
    {expr : Expr}
    (chain : expr.isNaturalChain = true) :
    expr.isCallable = false ∧ expr.fold.negateHead.isCallable = false := by
  cases expr with
  | int | call => exact ⟨rfl, rfl⟩
  | name | bool | unary | binary | function | branch | missing => cases chain

/-- A call of what cannot be called evaluates its arguments and fails. -/
theorem eval_call_of_uncallable
    {callee : Expr}
    (uncallable : callee.isCallable = false)
    (args : List Expr)
    (call : Caller) :
    (Expr.call callee args).eval call =
      (Expr.evalAll call args).onValue fun _ => throw (.runtime (.notCallable callee.text)) := by
  rw [Expr.eval]
  cases callee with
  | name | function => cases uncallable
  | int | bool | unary | binary | call | branch | missing => rfl

end Expr

/-- What fails after its first part does nothing more. -/
theorem Eval.onValue_throw
    {α β γ : Type}
    (first : Eval (Flow α))
    (fault : Fault)
    (next : β → Eval (Flow γ)) :
    (first.onValue fun _ => throw fault).onValue next = first.onValue fun _ => throw fault := by
  funext machine
  rcases run : first machine with ⟨fault' | (value | result), after⟩
  · rw [onValue_of_error run, onValue_of_error (onValue_of_error run _)]
  · rw [onValue_of_value run, onValue_of_error (onValue_of_value run _)]
    rfl
  · rw [onValue_of_returning run, onValue_of_returning (onValue_of_returning run _)]

/-! ## Folded trees -/

/-- Functions correspond to themselves with their minus signs folded, and faults to
those of the same kind. -/
def Correspondence.folded : Correspondence where
  function left right := left.fold = right
  fault := Fault.SameKind
  foreign := True
  params_eq := fun related => related ▸ rfl
  runtime := fun equal => equal ▸ .same _

namespace Correspondence

theorem folded_maps : folded.Maps Function.fold :=
  ⟨fun _ _ => Iff.rfl, trivial⟩

/-- A literal runs like its sign before the literal without it. -/
theorem folded_negate_int
    (pos pos' : Position)
    {value : Int64}
    (natural : 0 ≤ value.toInt) :
    folded.Exprs (.unary pos .negate (.int pos' value)) (.int pos' (-value)) := by
  refine .alike rfl rfl fun call call' _ height => ?_
  rw [Expr.eval, Expr.eval, Expr.eval]
  change folded.Computations height _
    (do return Flow.value (← Eval.ofExcept (UnaryOp.negate.apply (.int value)))) _
  rw [UnaryOp.apply_negate_of_natural natural]
  exact .pure (.value (.int _))

/-- A sign before a call of what cannot be called is never reached. -/
theorem folded_negate_call
    (pos : Position)
    {callee callee' : Expr}
    {args args' : List Expr}
    (uncallable : callee.isCallable = false)
    (uncallable' : callee'.isCallable = false)
    (given : folded.ExprLists args args') :
    folded.Exprs (.unary pos .negate (.call callee args)) (.call callee' args') := by
  refine .alike rfl rfl fun call call' callers height => ?_
  rw [Expr.eval, Expr.eval_call_of_uncallable uncallable,
    Expr.eval_call_of_uncallable uncallable', Eval.onValue_throw]
  exact (given.evalAll callers height).onValue fun _ _ _ => .throw (.notCallable _ _)

mutual

/-- An expression corresponds to itself with its minus signs folded. -/
theorem folded_exprs (expr : Expr) : folded.Exprs expr expr.fold := by
  cases expr with
  | name _ name => exact .name
  | int _ value => exact .int
  | bool _ value => exact .bool
  | unary pos op operand =>
      rw [Expr.fold]
      split
      · rename_i folds
        obtain ⟨rfl, chain⟩ := folds
        cases operand with
        | int pos' value => exact folded_negate_int pos pos' (of_decide_eq_true chain)
        | call callee args =>
            have inner : callee.isNaturalChain = true := chain
            obtain ⟨uncallable, uncallable'⟩ := Expr.isCallable_of_isNaturalChain inner
            exact folded_negate_call pos uncallable uncallable' (folded_exprLists args)
        | name | bool | unary | binary | function | branch | missing => cases chain
      · exact .unary (fun _ => .same _) (folded_exprs operand)
  | binary left op right =>
      exact .binary (fun _ => ⟨.same _, .same _⟩) (folded_exprs left) (folded_exprs right)
  | function _ params body => exact .function rfl
  | call callee args =>
      exact .call (folded_exprs callee) (.notCallable _ _) (folded_exprLists args)
  | branch _ condition thenArm elseArm =>
      exact .branch (folded_exprs condition) (folded_blocks thenArm) (folded_arms elseArm)
  | missing => exact .missing (.same _)
termination_by structural expr

theorem folded_exprLists (exprs : List Expr) : folded.ExprLists exprs (Expr.foldAll exprs) := by
  cases exprs with
  | nil => exact .nil
  | cons expr exprs => exact .cons (folded_exprs expr) (folded_exprLists exprs)
termination_by structural exprs

theorem folded_stmts (stmt : Stmt) : folded.Stmts stmt stmt.fold := by
  cases stmt with
  | declare _ name value => exact .declare (folded_exprs value)
  | assign _ name value => exact .assign (folded_exprs value)
  | expr value => exact .expr (folded_exprs value)
  | result _ value => exact .result (folded_exprs value)
  | missing => exact .missing (.same _)
termination_by structural stmt

theorem folded_blocks (stmts : List Stmt) : folded.Blocks stmts (Block.fold stmts) := by
  cases stmts with
  | nil => exact .nil
  | cons stmt stmts => exact .cons (folded_stmts stmt) (folded_blocks stmts)
termination_by structural stmts

theorem folded_arms (arm : Option (List Stmt)) : folded.Arms arm (Block.foldElse arm) := by
  cases arm with
  | none => exact .none
  | some block => exact .some (folded_blocks block)
termination_by structural arm

end

theorem folded_unfolds : folded.Unfolds := by
  rintro function _ rfl
  exact folded_blocks function.body

end Correspondence

/-! ## Folded runs -/

namespace Folds

variable {result result' : Except Fault Value}

theorem of_results
    (related : Correspondence.folded.Results Correspondence.folded.Values result result') :
    Folds result result' := by
  cases related with
  | ok values =>
      obtain rfl := (Correspondence.folded_maps.values_iff _ _).mp values
      exact .ok _
  | error kind => exact .error kind

/-- A fault that is of another kind than that of a result. -/
def otherFault : Except Fault Value → Fault
  | .error .exhausted => .noBlock
  | _ => .exhausted

/-- Neither result of two is the fault of another kind than the other. -/
theorem ne_otherFault (folds : Folds result result') :
    result' ≠ .error (otherFault result) ∧ result ≠ .error (otherFault result') := by
  cases folds with
  | ok value => exact ⟨nofun, nofun⟩
  | @error fault _ kind =>
      cases kind with
      | same => cases fault <;> exact ⟨nofun, nofun⟩
      | notCallable found found' => exact ⟨nofun, nofun⟩

end Folds

namespace Program

variable {program : Program} {machine : Machine}

/-- Under a limit a program ends as it does with its minus signs folded. -/
theorem EndsWith.fold
    {calls : Nat}
    {refusal : Fault}
    {result result' : Except Fault Value}
    {after after' : Machine}
    (ends : program.EndsWith (.atMost calls) refusal machine result after)
    (ends' : EndsWith (.atMost calls) refusal (Block.fold program) machine.fold result' after') :
    Folds result result' ∧ after'.scope = after.scope.fold ∧ after'.depth = after.depth := by
  obtain ⟨outcome, ends, rfl⟩ := ends
  obtain ⟨outcome', ends', rfl⟩ := ends'
  have machines : Correspondence.folded.Machines machine.scope.depth machine machine.fold :=
    ⟨rfl, (Correspondence.folded_maps.scopes_iff _ _).mpr rfl⟩
  have callers := Correspondence.call_callers Correspondence.folded_unfolds
    (Fault.SameKind.same refusal) (calls - machine.depth)
  obtain ⟨results, related⟩ := (Correspondence.folded_blocks program).exec callers .quiet
    (.inr (.same _)) machine machine.fold machines
  have run := ends.perform_eq
  have run' := ends'.perform_eq
  rw [Task.perform] at run run'
  change Block.exec (Function.call refusal (calls - machine.depth)) .quiet (Block.fold program)
    machine.fold = _ at run'
  rw [run, run'] at results related
  have scope := related.scope
  rw [← scope.height_eq] at scope
  refine ⟨.of_results ?_, ((Correspondence.folded_maps.scopes_iff _ _).mp scope).symm,
    related.depth.symm⟩
  cases results with
  | ok outcomes => exact .ok outcomes.result
  | error kind => exact .error kind

/-- A program that ends under a limit or without one ends with its minus signs
folded. -/
theorem EndsWith.exists_fold
    {limit : DepthLimit}
    {result : Except Fault Value}
    {after : Machine}
    (ends : program.EndsWith limit limit.refusal machine result after) :
    ∃ result' after',
      EndsWith limit limit.refusal (Block.fold program) machine.fold result' after' ∧
      Folds result result' ∧ after'.scope = after.scope.fold ∧ after'.depth = after.depth := by
  cases limit with
  | atMost calls =>
      obtain ⟨result', after', ends'⟩ :=
        exists_endsWith (Block.fold program) machine.fold calls (DepthLimit.atMost calls).refusal
      exact ⟨result', after', ends', ends.fold ends'⟩
  | unlimited =>
      -- Calls are refused with a fault that the folded program cannot end with otherwise.
      obtain ⟨calls, limited⟩ := ends.exists_atMost
      obtain ⟨result', after', ends'⟩ :=
        exists_endsWith (Block.fold program) machine.fold calls (Folds.otherFault result)
      have related := (limited _).fold ends'
      exact ⟨result', after', ends'.unlimited related.1.ne_otherFault.1, related⟩

/-- A program ends if it does with its minus signs folded. -/
theorem EndsWith.exists_of_fold
    {limit : DepthLimit}
    {result' : Except Fault Value}
    {after' : Machine}
    (ends' : EndsWith limit limit.refusal (Block.fold program) machine.fold result' after') :
    ∃ result after, program.EndsWith limit limit.refusal machine result after := by
  cases limit with
  | atMost calls => exact exists_endsWith program machine calls (DepthLimit.atMost calls).refusal
  | unlimited =>
      obtain ⟨calls, limited⟩ := ends'.exists_atMost
      obtain ⟨result, after, ends⟩ :=
        exists_endsWith program machine calls (Folds.otherFault result')
      have related := ends.fold (limited _)
      exact ⟨result, after, ends.unlimited related.1.ne_otherFault.2⟩

end Program

/-- Folding minus signs into literals preserves meaning.  For every program, bindings
and limit, the program with its minus signs folded, on bindings with theirs folded, ends
exactly when the program does.  It then gives the folded value or a fault of the same
kind, and leaves the folded bindings and as many active calls.  A session gives the
same, also where it runs out of calls that it can follow. -/
theorem folding_preserves_meaning (limit : DepthLimit) (program : Program) (machine : Machine) :
    (∀ result after, program.EndsWith limit limit.refusal machine result after →
      ∃ result' after',
        Program.EndsWith limit limit.refusal (Block.fold program) machine.fold result' after' ∧
        Folds result result' ∧ after'.scope = after.scope.fold ∧ after'.depth = after.depth) ∧
    (∀ result' after',
      Program.EndsWith limit limit.refusal (Block.fold program) machine.fold result' after' →
      ∃ result after, program.EndsWith limit limit.refusal machine result after) ∧
    (let (result, session) := Session.run ⟨machine, limit⟩ program
      let (result', session') := Session.run ⟨machine.fold, limit⟩ (Block.fold program)
      Folds result result' ∧ session'.machine.scope = session.machine.scope.fold ∧
        session'.machine.depth = session.machine.depth) := by
  refine ⟨fun result after ends => ends.exists_fold, fun result' after' ends' =>
    ends'.exists_of_fold, ?_⟩
  exact ((Session.run_eq_iff limit).mp rfl).fold ((Session.run_eq_iff limit).mp rfl)

/-- A stored function returns a folded number, and then a sign before a call of a literal
fails: the callee is printed with its sign when that is folded. -/
theorem folding_preserves_meaning_called_literal :
    let function : Function := ⟨[], [.result .start (.unary .start .negate (.int .start 5))]⟩
    let machine : Machine := ⟨⟨[[("f", .fn function)]]⟩, 0, []⟩
    let program : Program :=
      [.declare .start "x" (.call (.name .start "f") []),
        .expr (.unary .start .negate (.call (.int .start 3) [.name .start "x"]))]
    let after := (Session.run ⟨machine, .atMost 1⟩ program).2.machine
    program.EndsWith (.atMost 1) (DepthLimit.atMost 1).refusal machine
        (.error (.runtime (.notCallable "3"))) after ∧
      after.scope = ⟨[[("f", .fn function), ("x", .int (-5))]]⟩ ∧
      ∃ result' after',
        Program.EndsWith (.atMost 1) (DepthLimit.atMost 1).refusal (Block.fold program)
          machine.fold result' after' ∧
        Folds (.error (.runtime (.notCallable "3"))) result' ∧
        after'.scope =
          ⟨[[("f", .fn ⟨[], [.result .start (.int .start (-5))]⟩), ("x", .int (-5))]]⟩ := by
  intro function machine program after
  have ends : program.EndsWith (.atMost 1) (DepthLimit.atMost 1).refusal machine
      (.error (.runtime (.notCallable "3"))) after := (Session.run_eq_iff (.atMost 1)).mp rfl
  obtain ⟨result', after', ends', folds, scope, -⟩ :=
    (folding_preserves_meaning (.atMost 1) program machine).1 _ _ ends
  exact ⟨ends, rfl, result', after', ends', folds, scope⟩

end Siren
