import Siren.Console
import Siren.Proofs.Correspondence

/-!
# Trees without positions

Positions serve messages about the source text and nothing else: printing and
evaluation do not see them.  So trees that are the same without their positions
are printed alike, and run alike on bindings that are the same without them.
-/

namespace Siren

mutual

/-- An expression without its positions. -/
def Expr.bare : Expr → Expr
  | .name _ name => .name .nowhere name
  | .int _ value => .int .nowhere value
  | .bool _ value => .bool .nowhere value
  | .unary _ op operand => .unary .nowhere op operand.bare
  | .binary left op right => .binary left.bare op right.bare
  | .function _ params body => .function .nowhere params (Block.bare body)
  | .call callee args => .call callee.bare (Expr.bareAll args)
  | .branch _ condition thenArm elseArm =>
    .branch .nowhere condition.bare (Block.bare thenArm) (Block.bareElse elseArm)
  | .missing => .missing
termination_by structural expr => expr

/-- Expressions without their positions. -/
def Expr.bareAll : List Expr → List Expr
  | [] => []
  | expr :: exprs => expr.bare :: Expr.bareAll exprs
termination_by structural exprs => exprs

/-- A statement without its positions. -/
def Stmt.bare : Stmt → Stmt
  | .declare _ name value => .declare .nowhere name value.bare
  | .assign _ name value => .assign .nowhere name value.bare
  | .expr value => .expr value.bare
  | .result _ value => .result .nowhere value.bare
  | .missing => .missing
termination_by structural stmt => stmt

/-- Statements without their positions. -/
def Block.bare : List Stmt → List Stmt
  | [] => []
  | stmt :: stmts => stmt.bare :: Block.bare stmts
termination_by structural stmts => stmts

/-- The second arm of a choice without its positions. -/
def Block.bareElse : Option (List Stmt) → Option (List Stmt)
  | none => none
  | some block => some (Block.bare block)
termination_by structural arm => arm

end

mutual

theorem Expr.bare_bare (expr : Expr) : expr.bare.bare = expr.bare := by
  cases expr with
  | name | int | bool | missing => rfl
  | unary _ op operand => simp only [Expr.bare, Expr.bare_bare operand]
  | binary left op right => simp only [Expr.bare, Expr.bare_bare left, Expr.bare_bare right]
  | function _ params body => simp only [Expr.bare, Block.bare_bare body]
  | call callee args => simp only [Expr.bare, Expr.bare_bare callee, Expr.bareAll_bareAll args]
  | branch _ condition thenArm elseArm =>
      simp only [Expr.bare, Expr.bare_bare condition, Block.bare_bare thenArm,
        Block.bareElse_bareElse elseArm]
termination_by structural expr

theorem Expr.bareAll_bareAll (exprs : List Expr) :
    Expr.bareAll (Expr.bareAll exprs) = Expr.bareAll exprs := by
  cases exprs with
  | nil => rfl
  | cons expr exprs =>
      simp only [Expr.bareAll, Expr.bare_bare expr, Expr.bareAll_bareAll exprs]
termination_by structural exprs

theorem Stmt.bare_bare (stmt : Stmt) : stmt.bare.bare = stmt.bare := by
  cases stmt with
  | declare _ _ value | assign _ _ value | expr value | result _ value =>
      simp only [Stmt.bare, Expr.bare_bare value]
  | missing => rfl
termination_by structural stmt

theorem Block.bare_bare (stmts : List Stmt) : Block.bare (Block.bare stmts) = Block.bare stmts := by
  cases stmts with
  | nil => rfl
  | cons stmt stmts => simp only [Block.bare, Stmt.bare_bare stmt, Block.bare_bare stmts]
termination_by structural stmts

theorem Block.bareElse_bareElse (arm : Option (List Stmt)) :
    Block.bareElse (Block.bareElse arm) = Block.bareElse arm := by
  cases arm with
  | none => rfl
  | some block => simp only [Block.bareElse, Block.bare_bare block]
termination_by structural arm

end

/-- A function without the positions in its body. -/
def Function.bare (function : Function) : Function :=
  ⟨function.params, Block.bare function.body⟩

/-- A value without the positions in a function body. -/
def Value.bare : Value → Value
  | .fn function => .fn function.bare
  | other => other

/-- A binding without positions in its value. -/
def Binding.bare (binding : Binding) : Binding :=
  (binding.1, binding.2.bare)

/-- A scope without positions in its values. -/
def Scope.bare (scope : Scope) : Scope :=
  ⟨scope.frames.map (List.map Binding.bare)⟩

/-! ## Printing -/

mutual

theorem Expr.text_bare (expr : Expr) : expr.bare.text = expr.text := by
  cases expr with
  | name | int | bool | missing => rfl
  | unary _ op operand => rw [Expr.bare, Expr.text, Expr.text, Expr.text_bare operand]
  | binary left op right =>
      rw [Expr.bare, Expr.text, Expr.text, Expr.text_bare left, Expr.text_bare right]
  | function _ params body =>
      rw [Expr.bare, Expr.text, Expr.text, Block.closedText_bare body]
  | call callee args =>
      rw [Expr.bare, Expr.text, Expr.text, Expr.text_bare callee, Expr.texts_bareAll args]
  | branch _ condition thenArm elseArm =>
      rw [Expr.bare, Expr.text, Expr.text, Expr.text_bare condition,
        Block.closedText_bare thenArm, Block.elseText_bareElse elseArm]
termination_by structural expr

theorem Expr.texts_bareAll (exprs : List Expr) :
    Expr.texts (Expr.bareAll exprs) = Expr.texts exprs := by
  cases exprs with
  | nil => rfl
  | cons expr exprs =>
      rw [Expr.bareAll, Expr.texts, Expr.texts, Expr.text_bare expr, Expr.texts_bareAll exprs]
termination_by structural exprs

theorem Stmt.text_bare (stmt : Stmt) : stmt.bare.text = stmt.text := by
  cases stmt with
  | declare _ _ value | assign _ _ value | expr value | result _ value =>
      rw [Stmt.bare, Stmt.text, Stmt.text, Expr.text_bare value]
  | missing => rfl
termination_by structural stmt

theorem Block.closedText_bare (stmts : List Stmt) :
    Block.closedText (Block.bare stmts) = Block.closedText stmts := by
  cases stmts with
  | nil => rfl
  | cons stmt stmts =>
      rw [Block.bare, Block.closedText, Block.closedText, Stmt.text_bare stmt,
        Block.closedText_bare stmts]
termination_by structural stmts

theorem Block.elseText_bareElse (arm : Option (List Stmt)) :
    Block.elseText (Block.bareElse arm) = Block.elseText arm := by
  cases arm with
  | none => rfl
  | some block =>
      rw [Block.bareElse, Block.elseText, Block.elseText, Block.closedText_bare block]
termination_by structural arm

end

theorem Value.text_bare (value : Value) : value.bare.text = value.text := by
  cases value with
  | fn function =>
      rw [Value.bare, Value.text, Value.text, Function.text, Function.text, Block.text,
        Block.text, Function.bare, Block.closedText_bare]
  | unit | int | bool | foreign => rfl

/-! ## Bindings -/

theorem Frame.declares_bare (frame : Frame) (name : Text) :
    Frame.declares (frame.map Binding.bare) name = Frame.declares frame name := by
  rw [Frame.declares, Frame.declares, List.any_map]
  rfl

theorem Scope.visibleIn_bare (inner frames : List Frame) :
    Scope.visibleIn (inner.map (List.map Binding.bare)) (frames.map (List.map Binding.bare)) =
      (Scope.visibleIn inner frames).map Binding.bare := by
  induction frames generalizing inner with
  | nil => rfl
  | cons frame outer inductionHypothesis =>
      have hidden (binding : Binding) :
          (inner.map (List.map Binding.bare)).any (Frame.declares · binding.bare.1) =
            inner.any (Frame.declares · binding.1) := by
        rw [List.any_map]
        congr 1
        funext frame
        exact Frame.declares_bare frame binding.1
      rw [List.map_cons, visibleIn, visibleIn, List.map_append,
        ← inductionHypothesis (frame :: inner), List.map_cons, List.filter_map]
      congr 2
      refine List.filter_congr fun binding _ => ?_
      exact congrArg (!·) (hidden binding)

theorem Scope.bindingsText_bare (scope : Scope) (color : Bool) :
    Console.bindingsText color scope.bare.bindings =
      Console.bindingsText color scope.bindings := by
  have bindings : scope.bare.bindings = scope.bindings.map Binding.bare :=
    Scope.visibleIn_bare [] scope.frames
  rw [bindings, Console.bindingsText, Console.bindingsText, List.isEmpty_map, List.flatMap_map]
  simp only [Binding.bare, Value.text_bare]

/-- Bindings that are the same without positions are printed alike. -/
theorem Scope.bindingsText_eq_of_bare
    {scope scope' : Scope}
    (same : scope.bare = scope'.bare)
    (color : Bool) :
    Console.bindingsText color scope.bindings = Console.bindingsText color scope'.bindings := by
  rw [← scope.bindingsText_bare, same, scope'.bindingsText_bare]

/-! ## Evaluation -/

/-- Functions correspond to themselves without positions, and faults to themselves. -/
def Correspondence.bare : Correspondence where
  function left right := left.bare = right
  fault left right := left = right
  foreign := True
  params_eq := fun related => related ▸ rfl
  runtime := congrArg Fault.runtime

namespace Correspondence

theorem bare_maps : bare.Maps Function.bare :=
  ⟨fun _ _ => Iff.rfl, trivial⟩

theorem bare_values_iff (left right : Value) : bare.Values left right ↔ left.bare = right :=
  bare_maps.values_iff left right

theorem bare_scopes_iff (left right : Scope) :
    bare.Scopes left.depth left right ↔ left.bare = right :=
  bare_maps.scopes_iff left right

mutual

/-- An expression corresponds to itself without positions. -/
theorem bare_exprs (expr : Expr) : bare.Exprs expr expr.bare := by
  cases expr with
  | name _ name => exact .name
  | int _ value => exact .int
  | bool _ value => exact .bool
  | unary _ op operand => exact .unary (fun _ => rfl) (bare_exprs operand)
  | binary left op right =>
      exact .binary (fun _ => ⟨rfl, rfl⟩) (bare_exprs left) (bare_exprs right)
  | function _ params body => exact .function rfl
  | call callee args =>
      refine .call (bare_exprs callee) ?_ (bare_exprLists args)
      rw [Expr.text_bare]
      exact bare.runtime rfl
  | branch _ condition thenArm elseArm =>
      exact .branch (bare_exprs condition) (bare_blocks thenArm) (bare_arms elseArm)
  | missing => exact .missing rfl
termination_by structural expr

theorem bare_exprLists (exprs : List Expr) : bare.ExprLists exprs (Expr.bareAll exprs) := by
  cases exprs with
  | nil => exact .nil
  | cons expr exprs => exact .cons (bare_exprs expr) (bare_exprLists exprs)
termination_by structural exprs

theorem bare_stmts (stmt : Stmt) : bare.Stmts stmt stmt.bare := by
  cases stmt with
  | declare _ name value => exact .declare (bare_exprs value)
  | assign _ name value => exact .assign (bare_exprs value)
  | expr value => exact .expr (bare_exprs value)
  | result _ value => exact .result (bare_exprs value)
  | missing => exact .missing rfl
termination_by structural stmt

theorem bare_blocks (stmts : List Stmt) : bare.Blocks stmts (Block.bare stmts) := by
  cases stmts with
  | nil => exact .nil
  | cons stmt stmts => exact .cons (bare_stmts stmt) (bare_blocks stmts)
termination_by structural stmts

theorem bare_arms (arm : Option (List Stmt)) : bare.Arms arm (Block.bareElse arm) := by
  cases arm with
  | none => exact .none
  | some block => exact .some (bare_blocks block)
termination_by structural arm

end

theorem bare_unfolds : bare.Unfolds := by
  rintro function _ rfl
  exact bare_blocks function.body

/-- Outcomes that are the same without positions are printed alike. -/
theorem bare_outcomeText
    {left right : Except Fault Outcome}
    (related : bare.Results bare.Outcomes left right)
    (color : Bool) :
    Console.outcomeText color left = Console.outcomeText color right := by
  have printed {value value' : Value} (same : bare.Values value value') :
      value.isUnit = value'.isUnit ∧ value.text = value'.text := by
    obtain rfl := (bare_values_iff value value').mp same
    exact ⟨by cases value <;> rfl, value.text_bare.symm⟩
  cases related with
  | error same => exact congrArg (fun fault => Console.outcomeText color (.error fault)) same
  | ok same =>
      cases same with
      | quiet => rfl
      | value same | returning same =>
          obtain ⟨unit, text⟩ := printed same
          simp [Console.outcomeText, Outcome.hasValue, Outcome.result, unit, text]

end Correspondence

namespace Session

/-- A session without its trace, and without positions in its bindings. -/
def bare (session : Session) : Session :=
  ⟨⟨session.machine.scope.bare, session.machine.depth, []⟩, session.limit⟩

/-- A program without positions, run on bindings without positions, gives what the
program gives, without positions. -/
theorem run_bare (session : Session) (program : Program) :
    (session.bare.run (Block.bare program)).1 = (session.run program).1.map Value.bare ∧
      (session.bare.run (Block.bare program)).2.machine.scope =
        (session.run program).2.machine.scope.bare := by
  have sessions : Correspondence.bare.Sessions session.machine.scope.depth session session.bare :=
    ⟨rfl, rfl, (Correspondence.bare_scopes_iff _ _).mpr rfl⟩
  obtain ⟨results, after⟩ := sessions.run Correspondence.bare_unfolds rfl (.inr rfl)
    (Correspondence.bare_blocks program)
  have scope := after.machine.scope
  rw [← scope.height_eq] at scope
  refine ⟨?_, ((Correspondence.bare_scopes_iff _ _).mp scope).symm⟩
  generalize (session.run program).1 = result at results
  generalize (session.bare.run (Block.bare program)).1 = result' at results
  cases results with
  | ok related =>
      exact congrArg Except.ok ((Correspondence.bare_values_iff _ _).mp related).symm
  | error related => exact congrArg Except.error related.symm

/-- Programs that are the same without positions run alike on bindings that are the
same without positions: they give the same printed value or the same fault, and the same
bindings without positions. -/
theorem run_eq_of_bare
    {session session' : Session}
    (limit : session.limit = session'.limit)
    (depth : session.machine.depth = session'.machine.depth)
    (scope : session.machine.scope.bare = session'.machine.scope.bare)
    {program program' : Program}
    (same : Block.bare program = Block.bare program') :
    (session.run program).1.map Value.text = (session'.run program').1.map Value.text ∧
      (session.run program).2.machine.scope.bare =
        (session'.run program').2.machine.scope.bare := by
  have alike : session.bare = session'.bare := by
    rw [bare, bare, limit, depth, scope]
  obtain ⟨result, after⟩ := session.run_bare program
  obtain ⟨result', after'⟩ := session'.run_bare program'
  rw [alike, same] at result after
  have printed (result : Except Fault Value) :
      (result.map Value.bare).map Value.text = result.map Value.text := by
    cases result with
    | error fault => rfl
    | ok value => exact congrArg Except.ok value.text_bare
  refine ⟨?_, after.symm.trans after'⟩
  rw [← printed, ← printed (session'.run program').1, ← result, ← result']

/-- A program executed one statement after the other prints what it prints without
positions, on bindings without positions. -/
theorem execEach_bare (session : Session) (program : Program) (color : Bool) :
    (session.execEach program).1.flatMap (Console.outcomeText color) =
        (session.bare.execEach (Block.bare program)).1.flatMap (Console.outcomeText color) ∧
      (session.execEach program).2.machine.scope.bare =
        (session.bare.execEach (Block.bare program)).2.machine.scope := by
  have sessions : Correspondence.bare.Sessions session.machine.scope.depth session session.bare :=
    ⟨rfl, rfl, (Correspondence.bare_scopes_iff _ _).mpr rfl⟩
  obtain ⟨outcomes, after⟩ := sessions.execEach Correspondence.bare_unfolds (fun _ => rfl)
    (Correspondence.bare_blocks program)
  have scope := after.machine.scope
  rw [← scope.height_eq] at scope
  refine ⟨?_, (Correspondence.bare_scopes_iff _ _).mp scope⟩
  generalize (session.execEach program).1 = given at outcomes
  generalize (session.bare.execEach (Block.bare program)).1 = given' at outcomes
  induction outcomes with
  | nil => rfl
  | cons same _ inductionHypothesis =>
      rw [List.flatMap_cons, List.flatMap_cons, Correspondence.bare_outcomeText same,
        inductionHypothesis]

end Session
end Siren
