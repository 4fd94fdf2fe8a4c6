import Mathlib.Data.List.Forall2
import Siren.Proofs.ScopeGrowth

/-!
# Corresponding runs

Two runs correspond when they go through the same steps with functions, and
perhaps faults, that differ in a fixed way.  A correspondence says which functions
and which faults go together.  It extends to values, frames, machines and
computations, and to syntax: two trees correspond when they have the same shape,
up to positions, the functions in them and parts that are known to run alike.

Corresponding trees run alike on corresponding machines.  A correspondence of a
thing with itself is an invariant: functions that correspond only to themselves,
and only when they have a property, stay the only ones in reach.
-/

namespace Siren

/-- Whether an operator before its operand has a meaning. -/
def UnaryOp.isKnown : UnaryOp → Bool
  | .other _ => false
  | _ => true

/-- Whether an operator between its operands has a meaning. -/
def BinaryOp.isKnown : BinaryOp → Bool
  | .other _ => false
  | _ => true

/-- Whether a call of the expression can call anything. -/
def Expr.isCallable : Expr → Bool
  | .name _ _ => true
  | .function _ _ _ => true
  | _ => false

/-- Which functions and which faults of two runs go together, and whether values
of unknown kinds may occur in them. -/
structure Correspondence where
  function : Function → Function → Prop
  fault : Fault → Fault → Prop
  foreign : Prop
  params_eq : ∀ {left right : Function}, function left right → left.params = right.params
  runtime : ∀ {left right : RuntimeError}, left = right → fault (.runtime left) (.runtime right)

namespace Correspondence

/-! ## Values and results -/

/-- Values that are the same up to corresponding functions. -/
inductive Values (rel : Correspondence) : Value → Value → Prop where
  | unit : Values rel .unit .unit
  | int (value : Int64) : Values rel (.int value) (.int value)
  | bool (value : Bool) : Values rel (.bool value) (.bool value)
  | fn {left right : Function} (related : rel.function left right) :
      Values rel (.fn left) (.fn right)
  | foreign (allowed : rel.foreign) (code : Int) : Values rel (.foreign code) (.foreign code)

/-- Results of expressions that correspond. -/
inductive Flows {α β : Type} (rel : Correspondence) (values : α → β → Prop) :
    Flow α → Flow β → Prop where
  | value {left : α} {right : β} (related : values left right) :
      Flows rel values (.value left) (.value right)
  | returning {left right : Value} (related : rel.Values left right) :
      Flows rel values (.returning left) (.returning right)

/-- Outcomes of statements that correspond. -/
inductive Outcomes (rel : Correspondence) : Outcome → Outcome → Prop where
  | quiet : Outcomes rel .quiet .quiet
  | value {left right : Value} (related : rel.Values left right) :
      Outcomes rel (.value left) (.value right)
  | returning {left right : Value} (related : rel.Values left right) :
      Outcomes rel (.returning left) (.returning right)

/-- Two results that correspond, or two faults that do. -/
inductive Results {α β : Type} (rel : Correspondence) (values : α → β → Prop) :
    Except Fault α → Except Fault β → Prop where
  | ok {left : α} {right : β} (related : values left right) :
      Results rel values (.ok left) (.ok right)
  | error {left right : Fault} (related : rel.fault left right) :
      Results rel values (.error left) (.error right)

variable {rel : Correspondence}

theorem Values.asInt_eq {left right : Value} (related : rel.Values left right) :
    left.asInt = right.asInt := by
  cases related <;> rfl

theorem Values.asBool_eq {left right : Value} (related : rel.Values left right) :
    left.asBool = right.asBool := by
  cases related <;> rfl

theorem Outcomes.flow {left right : Outcome} (related : rel.Outcomes left right) :
    rel.Flows rel.Values left.flow right.flow := by
  cases related with
  | quiet => exact .value .unit
  | value related => exact .value related
  | returning related => exact .returning related

theorem Outcomes.result {left right : Outcome} (related : rel.Outcomes left right) :
    rel.Values left.result right.result := by
  cases related with
  | quiet => exact .unit
  | value related => exact related
  | returning related => exact related

/-- A runtime error goes with itself. -/
theorem Results.ofRuntime
    {α : Type}
    {values : α → α → Prop}
    (result : Except RuntimeError α)
    (same : ∀ value, values value value) :
    rel.Results values (result.mapError Fault.runtime) (result.mapError Fault.runtime) := by
  cases result with
  | error => exact .error (rel.runtime rfl)
  | ok value => exact .ok (same value)

/-! ## Operators -/

theorem unary_apply
    {op : UnaryOp}
    {left right : Value}
    (known : op.isKnown = false → rel.fault (.unknownUnary op) (.unknownUnary op))
    (related : rel.Values left right) :
    rel.Results rel.Values (op.apply left) (op.apply right) := by
  cases op with
  | negate =>
      simp only [UnaryOp.apply, related.asInt_eq]
      cases right.asInt >>= Integer.negate with
      | error => exact .error (rel.runtime rfl)
      | ok value => exact .ok (.int value)
  | not =>
      simp only [UnaryOp.apply, related.asBool_eq]
      cases right.asBool with
      | error => exact .error (rel.runtime rfl)
      | ok value => exact .ok (.bool _)
  | other code => exact .error (known rfl)

/-- Corresponding values are ordered alike. -/
theorem order_eq
    (op : BinaryOp)
    {left left' right right' : Value}
    (first : rel.Values left left')
    (second : rel.Values right right') :
    op.order left right = op.order left' right' := by
  cases first <;> cases second <;> rfl

theorem binary_applyComparison
    {op : BinaryOp}
    {left left' right right' : Value}
    (known : op.isKnown = false → rel.fault (.unknownComparison op) (.unknownComparison op))
    (compares : op.isComparison = true)
    (first : rel.Values left left')
    (second : rel.Values right right') :
    rel.Results rel.Values (op.applyComparison left right) (op.applyComparison left' right') := by
  rw [BinaryOp.applyComparison, BinaryOp.applyComparison, order_eq op first second]
  cases op.order left' right' with
  | error => exact .error (rel.runtime rfl)
  | ok order =>
      dsimp only
      cases holds : op.holds? order with
      | some value => exact .ok (.bool value)
      | none =>
          refine .error (known ?_)
          cases op with
          | other code => rfl
          | add | subtract | multiply | divide => cases compares
          | equal | notEqual | less | lessEqual | greater | greaterEqual => cases holds

theorem binary_applyArithmetic
    {op : BinaryOp}
    {left left' right right' : Value}
    (known : op.isKnown = false → rel.fault (.unknownBinary op) (.unknownBinary op))
    (calculates : op.isComparison = false)
    (first : rel.Values left left')
    (second : rel.Values right right') :
    rel.Results rel.Values (op.applyArithmetic left right) (op.applyArithmetic left' right') := by
  rw [BinaryOp.applyArithmetic, BinaryOp.applyArithmetic, first.asInt_eq, second.asInt_eq]
  cases left'.asInt with
  | error => exact .error (rel.runtime rfl)
  | ok x =>
      cases right'.asInt with
      | error => exact .error (rel.runtime rfl)
      | ok y =>
          have same : rel.Results (· = ·) (op.applyIntegers x y) (op.applyIntegers x y) := by
            cases op with
            | add | subtract | multiply | divide => exact .ofRuntime _ fun _ => rfl
            | other code => exact .error (known rfl)
            | equal | notEqual | less | lessEqual | greater | greaterEqual => cases calculates
          simp only [Except.mapError, Bind.bind, Except.bind]
          cases equal : op.applyIntegers x y with
          | ok value => exact .ok (.int value)
          | error fault =>
              rw [equal] at same
              cases same with
              | error related => exact .error related

/-- An operator gives corresponding results on corresponding operands. -/
theorem binary_apply
    {op : BinaryOp}
    {left left' right right' : Value}
    (known : op.isKnown = false → rel.fault (.unknownBinary op) (.unknownBinary op) ∧
      rel.fault (.unknownComparison op) (.unknownComparison op))
    (first : rel.Values left left')
    (second : rel.Values right right') :
    rel.Results rel.Values (op.apply left right) (op.apply left' right') := by
  rw [BinaryOp.apply, BinaryOp.apply]
  split
  · rename_i compares
    exact binary_applyComparison (fun unknown => (known unknown).2) compares first second
  · rename_i calculates
    exact binary_applyArithmetic (fun unknown => (known unknown).1)
      (Bool.eq_false_iff.mpr calculates) first second

/-! ## Frames -/

/-- Bindings of one name to corresponding values. -/
structure Bindings (rel : Correspondence) (left right : Binding) : Prop where
  name : left.1 = right.1
  value : rel.Values left.2 right.2

/-- Frames with corresponding bindings in the same order. -/
abbrev Frames (rel : Correspondence) : Frame → Frame → Prop :=
  List.Forall₂ rel.Bindings

namespace Frames

variable {left right : Frame}

theorem declares_eq (related : rel.Frames left right) (name : Text) :
    Frame.declares left name = Frame.declares right name := by
  induction related with
  | nil => rfl
  | cons first _ inductionHypothesis =>
      simp only [Frame.declares, List.any_cons, first.name] at inductionHypothesis ⊢
      rw [inductionHypothesis]

/-- A name has corresponding values in both frames, or none. -/
theorem get? (related : rel.Frames left right) (name : Text) :
    Option.Rel rel.Values (Frame.get? left name) (Frame.get? right name) := by
  unfold Frame.get?
  induction related with
  | nil => exact .none
  | @cons binding binding' _ _ first _ inductionHypothesis =>
      by_cases same : binding.1 = name
      · have same' : binding'.1 = name := first.name.symm.trans same
        rw [List.find?_cons_of_pos (by simpa using same),
          List.find?_cons_of_pos (by simpa using same')]
        exact .some first.value
      · have other : ¬binding'.1 = name := fun equal => same (first.name.trans equal)
        rw [List.find?_cons_of_neg (by simpa using same),
          List.find?_cons_of_neg (by simpa using other)]
        exact inductionHypothesis

theorem set
    (related : rel.Frames left right)
    (name : Text)
    {value value' : Value}
    (given : rel.Values value value') :
    rel.Frames (Frame.set left name value) (Frame.set right name value') := by
  refine List.forall₂_map_left_iff.mpr (List.forall₂_map_right_iff.mpr ?_)
  refine related.imp fun binding binding' first => ?_
  rw [first.name]
  split
  · exact ⟨rfl, given⟩
  · exact first

theorem declare
    (related : rel.Frames left right)
    (name : Text)
    {value value' : Value}
    (given : rel.Values value value') :
    rel.Frames (left ++ [(name, value)]) (right ++ [(name, value')]) :=
  List.rel_append related (.cons ⟨rfl, given⟩ .nil)

/-- The innermost frames that declare a name give it corresponding values. -/
theorem findSome?
    {frames frames' : List Frame}
    (related : List.Forall₂ rel.Frames frames frames')
    (name : Text) :
    Option.Rel rel.Values (frames.findSome? (Frame.get? · name))
      (frames'.findSome? (Frame.get? · name)) := by
  induction related with
  | nil => exact .none
  | @cons frame frame' _ _ first _ inductionHypothesis =>
      have found := first.get? name
      rw [List.findSome?_cons, List.findSome?_cons]
      generalize Frame.get? frame name = value at found
      generalize Frame.get? frame' name = value' at found
      cases found with
      | none => exact inductionHypothesis
      | some related => exact .some related

/-- A name is assigned in both scopes, in frames of the same height, or in none. -/
theorem assignIn
    {frames frames' : List Frame}
    (related : List.Forall₂ rel.Frames frames frames')
    (name : Text)
    {value value' : Value}
    (given : rel.Values value value') :
    Option.Rel
      (fun after after' => after.length = frames.length ∧ List.Forall₂ rel.Frames after after')
      (Scope.assignIn name value frames) (Scope.assignIn name value' frames') := by
  induction related with
  | nil => exact .none
  | @cons frame frame' outer outer' first rest inductionHypothesis =>
      rw [Scope.assignIn, Scope.assignIn, first.declares_eq name]
      split
      · exact .some ⟨rfl, .cons (first.set name given) rest⟩
      · generalize Scope.assignIn name value outer = after at inductionHypothesis
        generalize Scope.assignIn name value' outer' = after' at inductionHypothesis
        cases inductionHypothesis with
        | none => exact .none
        | some found => exact .some ⟨congrArg (· + 1) found.1, .cons first found.2⟩

end Frames

/-! ## Scopes -/

/-- Scopes of a height with corresponding frames. -/
structure Scopes (rel : Correspondence) (height : Nat) (left right : Scope) : Prop where
  height_eq : left.depth = height
  frames : List.Forall₂ rel.Frames left.frames right.frames

namespace Scopes

variable {height : Nat} {left right : Scope}

theorem fresh : rel.Scopes 1 .fresh .fresh :=
  ⟨rfl, .cons .nil .nil⟩

theorem push (related : rel.Scopes height left right) :
    rel.Scopes (height + 1) left.push right.push :=
  ⟨congrArg (· + 1) related.height_eq, .cons .nil related.frames⟩

theorem pop (related : rel.Scopes (height + 1) left right) :
    rel.Scopes height left.pop right.pop := by
  obtain ⟨height_eq, frames⟩ := related
  obtain ⟨frames⟩ := left
  obtain ⟨frames'⟩ := right
  cases frames with
  | nil => cases height_eq
  | cons _ rest => exact ⟨Nat.succ.inj height_eq, rest⟩

/-- A name has corresponding values in both scopes, or is unknown in both. -/
theorem lookup (related : rel.Scopes height left right) (name : Text) :
    rel.Results rel.Values ((left.lookup name).mapError .runtime)
      ((right.lookup name).mapError .runtime) := by
  have found := Frames.findSome? related.frames name
  unfold Scope.lookup
  generalize left.frames.findSome? (Frame.get? · name) = value at found
  generalize right.frames.findSome? (Frame.get? · name) = value' at found
  cases found with
  | none => exact .error (rel.runtime rfl)
  | some related => exact .ok related

/-- A name is declared in both scopes, or refused in both.  Without an open block
it is refused. -/
theorem bind
    (related : rel.Scopes height left right)
    (opened : height ≠ 0 ∨ rel.fault .noBlock .noBlock)
    (name : Text)
    {value value' : Value}
    (given : rel.Values value value') :
    rel.Results (rel.Scopes height) (left.bind name value) (right.bind name value') := by
  obtain ⟨height_eq, frames⟩ := related
  obtain ⟨frames⟩ := left
  obtain ⟨frames'⟩ := right
  cases frames with
  | nil => exact .error (opened.resolve_left fun nonzero => nonzero height_eq.symm)
  | cons first rest =>
      rw [Scope.bind, Scope.bind]
      dsimp only
      rw [first.declares_eq name]
      split
      · exact .error (rel.runtime rfl)
      · exact .ok ⟨height_eq, .cons (first.declare name given) rest⟩

theorem bindAll
    (related : rel.Scopes height left right)
    (opened : height ≠ 0)
    {bindings bindings' : List Binding}
    (given : List.Forall₂ rel.Bindings bindings bindings') :
    rel.Results (rel.Scopes height) (left.bindAll bindings) (right.bindAll bindings') := by
  induction given generalizing left right with
  | nil => exact .ok related
  | @cons binding binding' _ _ first _ inductionHypothesis =>
      obtain ⟨name, value⟩ := binding
      obtain ⟨name', value'⟩ := binding'
      obtain ⟨rfl, given⟩ := first
      have bound := related.bind (.inl opened) name given
      rw [Scope.bindAll, Scope.bindAll]
      dsimp only at bound ⊢
      generalize left.bind name value = after at bound
      generalize right.bind name value' = after' at bound
      cases bound with
      | error related => exact .error related
      | ok related => exact inductionHypothesis related

/-- A name is assigned in both scopes, or unknown in both. -/
theorem assign
    (related : rel.Scopes height left right)
    (name : Text)
    {value value' : Value}
    (given : rel.Values value value') :
    rel.Results (rel.Scopes height) ((left.assign name value).mapError .runtime)
      ((right.assign name value').mapError .runtime) := by
  have found := Frames.assignIn related.frames name given
  unfold Scope.assign
  generalize Scope.assignIn name value left.frames = after at found
  generalize Scope.assignIn name value' right.frames = after' at found
  cases found with
  | none => exact .error (rel.runtime rfl)
  | some found => exact .ok ⟨found.1.trans related.height_eq, found.2⟩

end Scopes

/-! ## Machines and computations -/

/-- Machines with as many active calls and corresponding scopes of a height.  Their
traces do not matter. -/
structure Machines (rel : Correspondence) (height : Nat) (left right : Machine) : Prop where
  depth : left.depth = right.depth
  scope : rel.Scopes height left.scope right.scope

/-- Computations that give corresponding results on corresponding machines, and
leave them so. -/
def Computations {α β : Type} (rel : Correspondence) (height : Nat) (values : α → β → Prop)
    (left : Eval α) (right : Eval β) : Prop :=
  ∀ machine machine' : Machine, rel.Machines height machine machine' →
    rel.Results values (left machine).1 (right machine').1 ∧
      rel.Machines height (left machine).2 (right machine').2

namespace Computations

variable {α β α' β' : Type} {height : Nat} {values : α → β → Prop} {values' : α' → β' → Prop}

theorem pure {left : α} {right : β} (related : values left right) :
    rel.Computations height values (pure left) (pure right) :=
  fun _ _ machines => ⟨.ok related, machines⟩

theorem throw {left right : Fault} (related : rel.fault left right) :
    rel.Computations height values (throw left) (throw right) :=
  fun _ _ machines => ⟨.error related, machines⟩

theorem ofExcept
    {left : Except Fault α}
    {right : Except Fault β}
    (related : rel.Results values left right) :
    rel.Computations height values (Eval.ofExcept left) (Eval.ofExcept right) :=
  fun _ _ machines => ⟨related, machines⟩

theorem lookup (name : Text) :
    rel.Computations height rel.Values (Eval.lookup name) (Eval.lookup name) :=
  fun _ _ machines => ⟨machines.scope.lookup name, machines⟩

theorem declare
    (opened : height ≠ 0 ∨ rel.fault .noBlock .noBlock)
    (name : Text)
    {value value' : Value}
    (given : rel.Values value value') :
    rel.Computations height (· = ·) (Eval.bind name value) (Eval.bind name value') := by
  intro machine machine' machines
  have bound := machines.scope.bind opened name given
  unfold Eval.bind
  generalize machine.scope.bind name value = after at bound
  generalize machine'.scope.bind name value' = after' at bound
  cases bound with
  | error related => exact ⟨.error related, machines⟩
  | ok scope => exact ⟨.ok rfl, machines.depth, scope⟩

theorem assign_apply (name : Text) (value : Value) (machine : Machine) :
    Eval.assign name value machine =
      match (machine.scope.assign name value).mapError Fault.runtime with
      | .ok scope => (.ok (), { machine with scope })
      | .error fault => (.error fault, machine) := by
  unfold Eval.assign
  cases machine.scope.assign name value <;> rfl

theorem assign
    (name : Text)
    {value value' : Value}
    (given : rel.Values value value') :
    rel.Computations height (· = ·) (Eval.assign name value) (Eval.assign name value') := by
  intro machine machine' machines
  have assigned := machines.scope.assign name given
  rw [assign_apply, assign_apply]
  generalize (machine.scope.assign name value).mapError Fault.runtime = after at assigned
  generalize (machine'.scope.assign name value').mapError Fault.runtime = after' at assigned
  cases assigned with
  | error related => exact ⟨.error related, machines⟩
  | ok scope => exact ⟨.ok rfl, machines.depth, scope⟩

theorem bind
    {first : Eval α}
    {first' : Eval β}
    {next : α → Eval α'}
    {next' : β → Eval β'}
    (earlier : rel.Computations height values first first')
    (later : ∀ left right, values left right →
      rel.Computations height values' (next left) (next' right)) :
    rel.Computations height values' (first >>= next) (first' >>= next') := by
  intro machine machine' machines
  obtain ⟨results, after⟩ := earlier machine machine' machines
  rw [Eval.bind_apply, Eval.bind_apply]
  generalize first machine = run at results after
  generalize first' machine' = run' at results after
  obtain ⟨result, between⟩ := run
  obtain ⟨result', between'⟩ := run'
  cases results with
  | error related => exact ⟨.error related, after⟩
  | ok related => exact later _ _ related between between' after

theorem onValue
    {first : Eval (Flow α)}
    {first' : Eval (Flow β)}
    {next : α → Eval (Flow α')}
    {next' : β → Eval (Flow β')}
    (earlier : rel.Computations height (rel.Flows values) first first')
    (later : ∀ left right, values left right →
      rel.Computations height (rel.Flows values') (next left) (next' right)) :
    rel.Computations height (rel.Flows values') (first.onValue next) (first'.onValue next') := by
  refine earlier.bind fun left right flow => ?_
  cases flow with
  | value related => exact later _ _ related
  | returning related => exact .pure (.returning related)

/-- A block adds a frame to both scopes and takes it away again. -/
theorem inBlock
    {body body' : Eval Outcome}
    (inner : rel.Computations (height + 1) rel.Outcomes body body') :
    rel.Computations height (rel.Flows rel.Values) (Eval.inBlock body) (Eval.inBlock body') := by
  intro machine machine' machines
  obtain ⟨results, after⟩ := inner { machine with scope := machine.scope.push }
    { machine' with scope := machine'.scope.push } ⟨machines.depth, machines.scope.push⟩
  unfold Eval.inBlock
  generalize body { machine with scope := machine.scope.push } = run at results after
  generalize body' { machine' with scope := machine'.scope.push } = run' at results after
  obtain ⟨result, between⟩ := run
  obtain ⟨result', between'⟩ := run'
  cases results with
  | error related => exact ⟨.error related, after.depth, after.scope.pop⟩
  | ok related => exact ⟨.ok related.flow, after.depth, after.scope.pop⟩

end Computations

/-! ## Syntax -/

/-- Ways of calling that call corresponding functions alike. -/
def Callers (rel : Correspondence) (call call' : Caller) : Prop :=
  ∀ (function function' : Function) (args args' : List Value) (self : Text) (height : Nat),
    rel.function function function' → List.Forall₂ rel.Values args args' →
      rel.Computations height rel.Values (call function args self) (call' function' args' self)

mutual

/-- Expressions of the same shape with corresponding functions in them, or of any shape
if they run alike and cannot be called.  A part without a meaning must fail in a way
that corresponds to itself. -/
inductive Exprs (rel : Correspondence) : Expr → Expr → Prop where
  | name {pos pos' : Position} {name : Text} : Exprs rel (.name pos name) (.name pos' name)
  | int {pos pos' : Position} {value : Int64} : Exprs rel (.int pos value) (.int pos' value)
  | bool {pos pos' : Position} {value : Bool} : Exprs rel (.bool pos value) (.bool pos' value)
  | unary {pos pos' : Position} {op : UnaryOp} {operand operand' : Expr}
      (known : op.isKnown = false → rel.fault (.unknownUnary op) (.unknownUnary op))
      (inner : Exprs rel operand operand') :
      Exprs rel (.unary pos op operand) (.unary pos' op operand')
  | binary {left left' right right' : Expr} {op : BinaryOp}
      (known : op.isKnown = false → rel.fault (.unknownBinary op) (.unknownBinary op) ∧
        rel.fault (.unknownComparison op) (.unknownComparison op))
      (first : Exprs rel left left')
      (second : Exprs rel right right') :
      Exprs rel (.binary left op right) (.binary left' op right')
  | function {pos pos' : Position} {params params' : List Text} {body body' : List Stmt}
      (related : rel.function ⟨params, body⟩ ⟨params', body'⟩) :
      Exprs rel (.function pos params body) (.function pos' params' body')
  | call {callee callee' : Expr} {args args' : List Expr}
      (called : Exprs rel callee callee')
      (refused : rel.fault (.runtime (.notCallable callee.text))
        (.runtime (.notCallable callee'.text)))
      (given : ExprLists rel args args') :
      Exprs rel (.call callee args) (.call callee' args')
  | branch {pos pos' : Position} {condition condition' : Expr} {thenArm thenArm' : List Stmt}
      {elseArm elseArm' : Option (List Stmt)}
      (test : Exprs rel condition condition')
      (first : Blocks rel thenArm thenArm')
      (second : Arms rel elseArm elseArm') :
      Exprs rel (.branch pos condition thenArm elseArm) (.branch pos' condition' thenArm' elseArm')
  | missing (related : rel.fault .missingExpression .missingExpression) :
      Exprs rel .missing .missing
  | alike {expr expr' : Expr}
      (uncallable : expr.isCallable = false)
      (uncallable' : expr'.isCallable = false)
      (runs : ∀ (call call' : Caller), rel.Callers call call' → ∀ height : Nat,
        rel.Computations height (rel.Flows rel.Values) (expr.eval call) (expr'.eval call')) :
      Exprs rel expr expr'

/-- Lists of corresponding expressions. -/
inductive ExprLists (rel : Correspondence) : List Expr → List Expr → Prop where
  | nil : ExprLists rel [] []
  | cons {expr expr' : Expr} {exprs exprs' : List Expr}
      (first : Exprs rel expr expr')
      (rest : ExprLists rel exprs exprs') :
      ExprLists rel (expr :: exprs) (expr' :: exprs')

/-- Statements of the same kind and name with corresponding expressions. -/
inductive Stmts (rel : Correspondence) : Stmt → Stmt → Prop where
  | declare {pos pos' : Position} {name : Text} {value value' : Expr}
      (inner : Exprs rel value value') :
      Stmts rel (.declare pos name value) (.declare pos' name value')
  | assign {pos pos' : Position} {name : Text} {value value' : Expr}
      (inner : Exprs rel value value') :
      Stmts rel (.assign pos name value) (.assign pos' name value')
  | expr {value value' : Expr} (inner : Exprs rel value value') :
      Stmts rel (.expr value) (.expr value')
  | result {pos pos' : Position} {value value' : Expr} (inner : Exprs rel value value') :
      Stmts rel (.result pos value) (.result pos' value')
  | missing (related : rel.fault .missingStatement .missingStatement) :
      Stmts rel .missing .missing

/-- Lists of corresponding statements. -/
inductive Blocks (rel : Correspondence) : List Stmt → List Stmt → Prop where
  | nil : Blocks rel [] []
  | cons {stmt stmt' : Stmt} {stmts stmts' : List Stmt}
      (first : Stmts rel stmt stmt')
      (rest : Blocks rel stmts stmts') :
      Blocks rel (stmt :: stmts) (stmt' :: stmts')

/-- Second arms of a choice that are both absent, or correspond. -/
inductive Arms (rel : Correspondence) : Option (List Stmt) → Option (List Stmt) → Prop where
  | none : Arms rel none none
  | some {block block' : List Stmt} (inner : Blocks rel block block') :
      Arms rel (some block) (some block')

end

/-! ## Evaluation -/

section Syntax

variable {call call' : Caller}

mutual

/-- Corresponding expressions are evaluated alike. -/
theorem Exprs.eval
    (callers : rel.Callers call call')
    {expr expr' : Expr}
    (related : rel.Exprs expr expr')
    (height : Nat) :
    rel.Computations height (rel.Flows rel.Values) (expr.eval call) (expr'.eval call') := by
  match related with
  | .name =>
      rw [Expr.eval, Expr.eval]
      exact (Computations.lookup _).bind fun _ _ value => .pure (.value value)
  | .int =>
      rw [Expr.eval, Expr.eval]
      exact .pure (.value (.int _))
  | .bool =>
      rw [Expr.eval, Expr.eval]
      exact .pure (.value (.bool _))
  | .function related =>
      rw [Expr.eval, Expr.eval]
      exact .pure (.value (.fn related))
  | .unary known inner =>
      rw [Expr.eval, Expr.eval]
      refine (Exprs.eval callers inner height).onValue fun _ _ value => ?_
      exact (Computations.ofExcept (unary_apply known value)).bind
        fun _ _ result => .pure (.value result)
  | .binary known first second =>
      rw [Expr.eval, Expr.eval]
      refine (Exprs.eval callers first height).onValue fun _ _ left => ?_
      refine (Exprs.eval callers second height).onValue fun _ _ right => ?_
      exact (Computations.ofExcept (binary_apply known left right)).bind
        fun _ _ result => .pure (.value result)
  | .branch test first second =>
      rw [Expr.eval, Expr.eval]
      refine (Exprs.eval callers test height).onValue fun left right value => ?_
      rw [value.asBool_eq]
      have tested : rel.Results (· = ·) (right.asBool.mapError Fault.runtime)
          (right.asBool.mapError Fault.runtime) := .ofRuntime _ fun _ => rfl
      refine (Computations.ofExcept tested).bind ?_
      rintro holds _ rfl
      cases holds with
      | true => exact (Blocks.exec callers first .quiet (.inl (Nat.succ_ne_zero height))).inBlock
      | false => exact Arms.exec callers second height
  | .call called refused given =>
      rw [Expr.eval, Expr.eval]
      refine (ExprLists.evalAll callers given height).onValue fun args args' given => ?_
      match called with
      | .name =>
          refine (Computations.lookup _).bind fun _ _ value => ?_
          cases value with
          | fn related =>
              exact (callers _ _ args args' _ height related given).bind
                fun _ _ result => .pure (.value result)
          | unit | int | bool | foreign => exact .throw (rel.runtime rfl)
      | .function related =>
          exact (callers _ _ args args' [] height related given).bind
            fun _ _ result => .pure (.value result)
      | .int | .bool | .unary _ _ | .binary _ _ _ | .call _ _ _ | .branch _ _ _ | .missing _ =>
          exact .throw refused
      | .alike uncallable uncallable' _ =>
          split
          · cases uncallable
          · cases uncallable
          · split
            · cases uncallable'
            · cases uncallable'
            · exact .throw refused
  | .missing related =>
      rw [Expr.eval, Expr.eval]
      exact .throw related
  | .alike _ _ runs => exact runs call call' callers height
termination_by structural related

theorem ExprLists.evalAll
    (callers : rel.Callers call call')
    {exprs exprs' : List Expr}
    (related : rel.ExprLists exprs exprs')
    (height : Nat) :
    rel.Computations height (rel.Flows (List.Forall₂ rel.Values)) (Expr.evalAll call exprs)
      (Expr.evalAll call' exprs') := by
  match related with
  | .nil =>
      rw [Expr.evalAll, Expr.evalAll]
      exact .pure (.value .nil)
  | .cons first rest =>
      rw [Expr.evalAll, Expr.evalAll]
      refine (Exprs.eval callers first height).onValue fun _ _ value => ?_
      exact (ExprLists.evalAll callers rest height).onValue
        fun _ _ values => .pure (.value (.cons value values))
termination_by structural related

/-- Corresponding statements are executed alike. -/
theorem Stmts.exec
    (callers : rel.Callers call call')
    {height : Nat}
    {stmt stmt' : Stmt}
    (related : rel.Stmts stmt stmt')
    (opened : height ≠ 0 ∨ rel.fault .noBlock .noBlock) :
    rel.Computations height rel.Outcomes (stmt.exec call) (stmt'.exec call') := by
  match related with
  | .declare inner =>
      rw [Stmt.exec, Stmt.exec]
      refine (Exprs.eval callers inner height).bind fun _ _ flow => ?_
      cases flow with
      | value given => exact (Computations.declare opened _ given).bind fun _ _ _ => .pure .quiet
      | returning result => exact .pure (.returning result)
  | .assign inner =>
      rw [Stmt.exec, Stmt.exec]
      refine (Exprs.eval callers inner height).bind fun _ _ flow => ?_
      cases flow with
      | value given => exact (Computations.assign _ given).bind fun _ _ _ => .pure .quiet
      | returning result => exact .pure (.returning result)
  | .expr inner =>
      rw [Stmt.exec, Stmt.exec]
      refine (Exprs.eval callers inner height).bind fun _ _ flow => ?_
      cases flow with
      | value given => exact .pure (.value given)
      | returning result => exact .pure (.returning result)
  | .result inner =>
      rw [Stmt.exec, Stmt.exec]
      refine (Exprs.eval callers inner height).bind fun _ _ flow => ?_
      cases flow with
      | value given => exact .pure (.returning given)
      | returning result => exact .pure (.returning result)
  | .missing related =>
      rw [Stmt.exec, Stmt.exec]
      exact .throw related
termination_by structural related

theorem Blocks.exec
    (callers : rel.Callers call call')
    {height : Nat}
    {stmts stmts' : List Stmt}
    (related : rel.Blocks stmts stmts')
    {last last' : Outcome}
    (before : rel.Outcomes last last')
    (opened : height ≠ 0 ∨ rel.fault .noBlock .noBlock) :
    rel.Computations height rel.Outcomes (Block.exec call last stmts)
      (Block.exec call' last' stmts') := by
  match related with
  | .nil =>
      rw [Block.exec, Block.exec]
      exact .pure before
  | .cons first rest =>
      rw [Block.exec, Block.exec]
      refine (Stmts.exec callers first opened).bind fun _ _ outcome => ?_
      cases outcome with
      | quiet => exact Blocks.exec callers rest before opened
      | value given => exact Blocks.exec callers rest (.value given) opened
      | returning result => exact .pure (.returning result)
termination_by structural related

theorem Arms.exec
    (callers : rel.Callers call call')
    {arm arm' : Option (List Stmt)}
    (related : rel.Arms arm arm')
    (height : Nat) :
    rel.Computations height (rel.Flows rel.Values) (Block.execElse call arm)
      (Block.execElse call' arm') := by
  match related with
  | .none =>
      rw [Block.execElse, Block.execElse]
      exact .pure (.value .unit)
  | .some inner =>
      rw [Block.execElse, Block.execElse]
      exact (Blocks.exec callers inner .quiet (.inl (Nat.succ_ne_zero height))).inBlock
termination_by structural related

end

end Syntax

/-! ## Calls -/

/-- The bodies of corresponding functions correspond. -/
def Unfolds (rel : Correspondence) : Prop :=
  ∀ {left right : Function}, rel.function left right → rel.Blocks left.body right.body

/-- Parameters are bound to corresponding arguments. -/
theorem zip_bindings
    (params : List Text)
    {args args' : List Value}
    (given : List.Forall₂ rel.Values args args') :
    List.Forall₂ rel.Bindings (params.zip args) (params.zip args') := by
  induction given generalizing params with
  | nil => simp
  | cons first _ inductionHypothesis =>
      cases params with
      | nil => exact .nil
      | cons name params => exact .cons ⟨rfl, first⟩ (inductionHypothesis params)

theorem function_scope
    {function function' : Function}
    {args args' : List Value}
    (related : rel.function function function')
    (given : List.Forall₂ rel.Values args args')
    (self : Text) :
    rel.Results (rel.Scopes 1) (function.scope args self) (function'.scope args' self) := by
  have params := rel.params_eq related
  unfold Function.scope
  rw [← params]
  refine Scopes.fresh.bindAll Nat.one_ne_zero (List.rel_append ?_ (zip_bindings _ given))
  split
  · exact .nil
  · exact .cons ⟨rfl, .fn related⟩ .nil

/-- A call of corresponding functions comes back with corresponding results. -/
theorem activate_computations
    {function function' : Function}
    {args args' : List Value}
    {body body' : Eval Outcome}
    (related : rel.function function function')
    (given : List.Forall₂ rel.Values args args')
    (self : Text)
    (inner : rel.Computations 1 rel.Outcomes body body')
    (height : Nat) :
    rel.Computations height rel.Values (function.activate args self body)
      (function'.activate args' self body') := by
  intro machine machine' machines
  have bound := function_scope related given self
  unfold Function.activate
  generalize function.scope args self = scope at bound
  generalize function'.scope args' self = scope' at bound
  cases bound with
  | error related => exact ⟨.error related, machines.depth, machines.scope⟩
  | ok scopes =>
      dsimp only
      obtain ⟨results, after⟩ := inner _ _
        (⟨congrArg (· + 1) machines.depth, scopes⟩ : rel.Machines 1
          ⟨_, machine.depth + 1, .calling self args.length (machine.depth + 1) :: machine.trace⟩
          ⟨_, machine'.depth + 1,
            .calling self args'.length (machine'.depth + 1) :: machine'.trace⟩)
      generalize body _ = run at results after
      generalize body' _ = run' at results after
      obtain ⟨result, between⟩ := run
      obtain ⟨result', between'⟩ := run'
      have depth := congrArg (· - 1) after.depth
      cases results with
      | error related => exact ⟨.error related, depth, machines.scope⟩
      | ok related => exact ⟨.ok related.result, depth, machines.scope⟩

/-- Corresponding functions are called alike, however deep they recurse. -/
theorem call_callers
    (unfolds : rel.Unfolds)
    {refusal refusal' : Fault}
    (refused : rel.fault refusal refusal')
    (room : Nat) :
    rel.Callers (Function.call refusal room) (Function.call refusal' room) := by
  induction room with
  | zero =>
      intro function function' args args' self height related given
      have arity : function.arity = function'.arity := congrArg List.length (rel.params_eq related)
      unfold Function.call
      rw [arity, given.length_eq]
      split
      · exact .throw refused
      · exact .throw (rel.runtime rfl)
  | succ room inductionHypothesis =>
      intro function function' args args' self height related given
      have arity : function.arity = function'.arity := congrArg List.length (rel.params_eq related)
      unfold Function.call
      rw [arity, given.length_eq]
      split
      · refine activate_computations related given self ?_ height
        exact (unfolds related).exec inductionHypothesis .quiet (.inl Nat.one_ne_zero)
      · exact .throw (rel.runtime rfl)

/-! ## Sessions -/

/-- Sessions under one limit on corresponding machines. -/
structure Sessions (rel : Correspondence) (height : Nat) (left right : Session) : Prop where
  limit : left.limit = right.limit
  machine : rel.Machines height left.machine right.machine

/-- Corresponding computations of corresponding sessions. -/
theorem Sessions.perform
    {α β : Type}
    {values : α → β → Prop}
    {height : Nat}
    {left right : Session}
    (sessions : rel.Sessions height left right)
    (unfolds : rel.Unfolds)
    (refused : rel.fault left.limit.refusal left.limit.refusal)
    {action : Caller → Eval α}
    {action' : Caller → Eval β}
    (related : ∀ call call', rel.Callers call call' →
      rel.Computations height values (action call) (action' call')) :
    rel.Results values (left.perform action).1 (right.perform action').1 ∧
      rel.Sessions height (left.perform action).2 (right.perform action').2 := by
  obtain ⟨machine, limit⟩ := left
  obtain ⟨machine', limit'⟩ := right
  obtain ⟨rfl, machines⟩ := sessions
  have depth : machine.depth = machine'.depth := machines.depth
  have callers : rel.Callers (limit.caller machine.depth) (limit.caller machine'.depth) := by
    rw [depth]
    exact call_callers unfolds refused _
  obtain ⟨results, after⟩ := related _ _ callers machine machine' machines
  exact ⟨results, rfl, after⟩

/-- Corresponding programs run alike in corresponding sessions. -/
theorem Sessions.run
    {height : Nat}
    {left right : Session}
    (sessions : rel.Sessions height left right)
    (unfolds : rel.Unfolds)
    (refused : rel.fault left.limit.refusal left.limit.refusal)
    (opened : height ≠ 0 ∨ rel.fault .noBlock .noBlock)
    {program program' : Program}
    (related : rel.Blocks program program') :
    rel.Results rel.Values (left.run program).1 (right.run program').1 ∧
      rel.Sessions height (left.run program).2 (right.run program').2 := by
  obtain ⟨results, after⟩ := sessions.perform unfolds refused
    fun _ _ callers => related.exec callers .quiet opened
  refine ⟨?_, after⟩
  unfold Session.run
  generalize left.perform (Block.exec · .quiet program) = run at results
  generalize right.perform (Block.exec · .quiet program') = run' at results
  obtain ⟨result, between⟩ := run
  obtain ⟨result', between'⟩ := run'
  cases results with
  | error related => exact .error related
  | ok related => exact .ok related.result

/-- Corresponding statements are executed alike in corresponding sessions. -/
theorem Sessions.exec
    {height : Nat}
    {left right : Session}
    (sessions : rel.Sessions height left right)
    (unfolds : rel.Unfolds)
    (refused : rel.fault left.limit.refusal left.limit.refusal)
    (opened : height ≠ 0 ∨ rel.fault .noBlock .noBlock)
    {stmt stmt' : Stmt}
    (related : rel.Stmts stmt stmt') :
    rel.Results rel.Outcomes (left.exec stmt).1 (right.exec stmt').1 ∧
      rel.Sessions height (left.exec stmt).2 (right.exec stmt').2 :=
  sessions.perform unfolds refused fun _ _ callers => related.exec callers opened

/-- Corresponding statements executed one by one give corresponding outcomes. -/
theorem Sessions.execEach
    {height : Nat}
    {left right : Session}
    (sessions : rel.Sessions height left right)
    (unfolds : rel.Unfolds)
    (refused : ∀ fault, rel.fault fault fault)
    {stmts stmts' : List Stmt}
    (related : rel.Blocks stmts stmts') :
    List.Forall₂ (rel.Results rel.Outcomes) (left.execEach stmts).1 (right.execEach stmts').1 ∧
      rel.Sessions height (left.execEach stmts).2 (right.execEach stmts').2 := by
  induction stmts generalizing stmts' left right with
  | nil =>
      cases related with
      | nil => exact ⟨.nil, sessions⟩
  | cons stmt stmts inductionHypothesis =>
      cases related with
      | @cons _ stmt' _ stmts' first rest =>
          obtain ⟨results, after⟩ := sessions.exec unfolds (refused _) (.inr (refused _)) first
          rw [Session.execEach, Session.execEach]
          generalize left.exec stmt = run at results after
          generalize right.exec stmt' = run' at results after
          obtain ⟨result, between⟩ := run
          obtain ⟨result', between'⟩ := run'
          cases results with
          | error same => exact ⟨.cons (.error same) .nil, after⟩
          | ok same =>
              obtain ⟨later, ended⟩ := inductionHypothesis after rest
              exact ⟨.cons (.ok same) later, ended⟩

end Correspondence

/-! ## Functions changed in one way -/

/-- A value with its function, if it is one, changed. -/
def Value.mapFunction (change : Function → Function) : Value → Value
  | .fn function => .fn (change function)
  | other => other

/-- A binding with the function in its value changed. -/
def Binding.mapFunction (change : Function → Function) (binding : Binding) : Binding :=
  (binding.1, binding.2.mapFunction change)

/-- A scope with the functions in its values changed. -/
def Scope.mapFunction (change : Function → Function) (scope : Scope) : Scope :=
  ⟨scope.frames.map (List.map (Binding.mapFunction change))⟩

namespace Correspondence

/-- Each function corresponds to what a change makes of it, and values of unknown kinds
may occur. -/
structure Maps (rel : Correspondence) (change : Function → Function) : Prop where
  function_iff : ∀ left right, rel.function left right ↔ change left = right
  foreign : rel.foreign

namespace Maps

variable {rel : Correspondence} {change : Function → Function}

theorem values_iff (maps : rel.Maps change) (left right : Value) :
    rel.Values left right ↔ left.mapFunction change = right := by
  constructor
  · intro related
    cases related with
    | unit | int | bool | foreign => rfl
    | fn related => exact congrArg Value.fn ((maps.function_iff _ _).mp related)
  · rintro rfl
    cases left with
    | unit => exact .unit
    | int value => exact .int value
    | bool value => exact .bool value
    | fn function => exact .fn ((maps.function_iff _ _).mpr rfl)
    | foreign code => exact .foreign maps.foreign code

theorem frames_iff (maps : rel.Maps change) (left right : Frame) :
    rel.Frames left right ↔ left.map (Binding.mapFunction change) = right := by
  rw [← List.forall₂_eq_eq_eq, List.forall₂_map_left_iff]
  refine iff_of_eq (congrArg (List.Forall₂ · left right) ?_)
  funext binding binding'
  refine propext ⟨fun related => ?_, ?_⟩
  · exact Prod.ext related.name ((maps.values_iff _ _).mp related.value)
  · rintro rfl
    exact ⟨rfl, (maps.values_iff _ _).mpr rfl⟩

/-- A scope corresponds to itself with its functions changed, and to nothing else. -/
theorem scopes_iff (maps : rel.Maps change) (left right : Scope) :
    rel.Scopes left.depth left right ↔ left.mapFunction change = right := by
  have frames : List.Forall₂ rel.Frames left.frames right.frames ↔
      left.frames.map (List.map (Binding.mapFunction change)) = right.frames := by
    rw [← List.forall₂_eq_eq_eq, List.forall₂_map_left_iff]
    refine iff_of_eq (congrArg (List.Forall₂ · left.frames right.frames) ?_)
    funext frame frame'
    exact propext (maps.frames_iff frame frame')
  refine ⟨fun related => congrArg Scope.mk (frames.mp related.frames), fun equal => ?_⟩
  exact ⟨rfl, frames.mpr (congrArg Scope.frames equal)⟩

end Maps
end Correspondence
end Siren
