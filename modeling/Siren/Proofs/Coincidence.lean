import Siren.Proofs.ScopeGrowth

/-!
# Evaluation depends on the names that are used

Two runs of one expression give the same result when the scopes they start in
agree on the names that the expression uses outside of the functions in it, and
the scopes agree on these names afterwards.  The scopes may have any number of
frames and any other bindings.

Inside the blocks that an expression opens the two runs have the same frames on
top of scopes that agree.  This is the relation that every step keeps.  A call
starts in a scope made of its arguments alone, so calls give the same result
from any two scopes.
-/

namespace Siren

/-! ## Scopes -/

namespace Scope

/-- A name is looked up in the first of two parts first. -/
theorem lookup_append (inner outer : List Frame) (name : Text) :
    lookup ⟨inner ++ outer⟩ name =
      match inner.findSome? (Frame.get? · name) with
      | some value => .ok value
      | none => lookup ⟨outer⟩ name := by
  unfold lookup
  rw [List.findSome?_append]
  cases inner.findSome? (Frame.get? · name) with
  | none => rfl
  | some value => rfl

theorem lookup_cons (frame : Frame) (outer : List Frame) (name : Text) :
    lookup ⟨frame :: outer⟩ name =
      match Frame.get? frame name with
      | some value => .ok value
      | none => lookup ⟨outer⟩ name := by
  unfold lookup
  rw [List.findSome?_cons]
  cases Frame.get? frame name with
  | none => rfl
  | some value => rfl

/-- Assigning in frames looks at the first of two parts first. -/
theorem assignIn_append (name : Text) (value : Value) (inner outer : List Frame) :
    assignIn name value (inner ++ outer) =
      match assignIn name value inner with
      | some frames => some (frames ++ outer)
      | none => (assignIn name value outer).map (inner ++ ·) := by
  induction inner with
  | nil => simp [assignIn]
  | cons frame inner inductionHypothesis =>
      simp only [List.cons_append, assignIn]
      split
      · rfl
      · rw [inductionHypothesis]
        cases assignIn name value inner with
        | none => simp [Function.comp_def]
        | some frames => rfl

/-- Assigning keeps the number of frames. -/
theorem length_assignIn
    {name : Text}
    {value : Value}
    {frames frames' : List Frame}
    (assigned : assignIn name value frames = some frames') :
    frames'.length = frames.length := by
  induction frames generalizing frames' with
  | nil => simp [assignIn] at assigned
  | cons frame outer inductionHypothesis =>
      unfold assignIn at assigned
      split at assigned
      · obtain rfl := Option.some.inj assigned
        rfl
      · obtain ⟨outer', found, rfl⟩ := Option.map_eq_some_iff.mp assigned
        simp [inductionHypothesis found]

/-- A name can be assigned exactly when it has a value. -/
theorem assignIn_eq_none_iff (name : Text) (value : Value) (frames : List Frame) :
    assignIn name value frames = none ↔
      lookup ⟨frames⟩ name = .error (.unknownVariable name) := by
  induction frames with
  | nil => simp [assignIn, lookup]
  | cons frame outer inductionHypothesis =>
      unfold assignIn
      rw [lookup_cons]
      by_cases member : name ∈ Frame.names frame
      · obtain ⟨given, found⟩ := Frame.exists_get?_of_mem member
        rw [if_pos ((Frame.declares_iff frame name).mpr member), found]
        simp
      · have undeclared : ¬Frame.declares frame name = true := fun declares =>
          member ((Frame.declares_iff frame name).mp declares)
        rw [if_neg undeclared, Frame.get?_eq_none_of_not_mem member]
        simpa using inductionHypothesis

/-- After an assignment the name has the new value, and other names have the
value they had. -/
theorem lookup_assignIn
    {name : Text}
    {value : Value}
    {frames frames' : List Frame}
    (assigned : assignIn name value frames = some frames')
    (other : Text) :
    lookup ⟨frames'⟩ other = if other = name then .ok value else lookup ⟨frames⟩ other := by
  induction frames generalizing frames' with
  | nil => simp [assignIn] at assigned
  | cons frame outer inductionHypothesis =>
      unfold assignIn at assigned
      split at assigned
      · rename_i declares
        obtain rfl := Option.some.inj assigned
        rw [lookup_cons, lookup_cons]
        by_cases same : other = name
        · subst same
          have member := (Frame.declares_iff frame other).mp declares
          rw [Frame.get?_set_self value member, if_pos rfl]
        · rw [Frame.get?_set_of_ne frame value same, if_neg same]
      · rename_i undeclared
        obtain ⟨outer', found, rfl⟩ := Option.map_eq_some_iff.mp assigned
        rw [lookup_cons, lookup_cons, inductionHypothesis found]
        by_cases same : other = name
        · subst same
          have absent : other ∉ Frame.names frame := fun member =>
            undeclared ((Frame.declares_iff frame other).mpr member)
          rw [Frame.get?_eq_none_of_not_mem absent, if_pos rfl]
        · rw [if_neg same, if_neg same]

/-- Two scopes that have their `shared` innermost frames in common, above frames
that give the same values to the names `names`. -/
def Twins (names : List Text) (shared : Nat) (left right : Scope) : Prop :=
  ∃ inner outer outer' : List Frame,
    inner.length = shared ∧ left.frames = inner ++ outer ∧ right.frames = inner ++ outer' ∧
      ∀ name ∈ names, lookup ⟨outer⟩ name = lookup ⟨outer'⟩ name

namespace Twins

variable {names : List Text} {shared : Nat} {left right : Scope}

/-- Scopes that agree on names have no frame in common to begin with. -/
theorem of_agree
    (agree : ∀ name ∈ names, left.lookup name = right.lookup name) :
    Twins names 0 left right :=
  ⟨[], left.frames, right.frames, rfl, rfl, rfl, agree⟩

/-- A scope has all of its frames in common with itself. -/
theorem self (names : List Text) (scope : Scope) :
    Twins names scope.depth scope scope :=
  ⟨scope.frames, [], [], rfl, by simp, by simp, fun _ _ => rfl⟩

theorem lookup
    (twins : Twins names shared left right)
    {name : Text}
    (member : name ∈ names) :
    left.lookup name = right.lookup name := by
  obtain ⟨inner, outer, outer', _, leftFrames, rightFrames, agree⟩ := twins
  obtain ⟨frames⟩ := left
  obtain ⟨frames'⟩ := right
  obtain rfl : frames = _ := leftFrames
  obtain rfl : frames' = _ := rightFrames
  rw [lookup_append, lookup_append, agree name member]

theorem push (twins : Twins names shared left right) :
    Twins names (shared + 1) left.push right.push := by
  obtain ⟨inner, outer, outer', length, leftFrames, rightFrames, agree⟩ := twins
  refine ⟨[] :: inner, outer, outer', by simp [length], ?_, ?_, agree⟩
  · simp [Scope.push, leftFrames]
  · simp [Scope.push, rightFrames]

theorem pop (twins : Twins names (shared + 1) left right) :
    Twins names shared left.pop right.pop := by
  obtain ⟨inner, outer, outer', length, leftFrames, rightFrames, agree⟩ := twins
  cases inner with
  | nil => simp at length
  | cons frame inner =>
      refine ⟨inner, outer, outer', by simpa using length, ?_, ?_, agree⟩
      · simp [Scope.pop, leftFrames]
      · simp [Scope.pop, rightFrames]

/-- In a block of their own, both scopes declare a name or both refuse to. -/
theorem bind
    (twins : Twins names (shared + 1) left right)
    (name : Text)
    (value : Value) :
    (∃ fault, left.bind name value = .error fault ∧ right.bind name value = .error fault) ∨
      ∃ left' right', left.bind name value = .ok left' ∧ right.bind name value = .ok right' ∧
        Twins names (shared + 1) left' right' := by
  obtain ⟨inner, outer, outer', length, leftFrames, rightFrames, agree⟩ := twins
  cases inner with
  | nil => simp at length
  | cons frame inner =>
      simp only [Scope.bind, leftFrames, rightFrames, List.cons_append]
      by_cases declares : Frame.declares frame name = true
      · left
        exact ⟨_, if_pos declares, if_pos declares⟩
      · right
        refine ⟨_, _, if_neg declares, if_neg declares, ?_⟩
        exact ⟨(frame ++ [(name, value)]) :: inner, outer, outer', by simpa using length,
          rfl, rfl, agree⟩

/-- Both scopes assign a name that they agree on, or both refuse to. -/
theorem assign
    (twins : Twins names shared left right)
    {name : Text}
    (member : name ∈ names)
    (value : Value) :
    (∃ error, left.assign name value = .error error ∧
        right.assign name value = .error error) ∨
      ∃ left' right', left.assign name value = .ok left' ∧
        right.assign name value = .ok right' ∧ Twins names shared left' right' := by
  obtain ⟨inner, outer, outer', length, leftFrames, rightFrames, agree⟩ := twins
  simp only [Scope.assign, leftFrames, rightFrames, assignIn_append]
  cases innerCase : assignIn name value inner with
  | some inner' =>
      right
      exact ⟨_, _, rfl, rfl, inner', outer, outer', (length_assignIn innerCase).trans length,
        rfl, rfl, agree⟩
  | none =>
      -- The name is not in the common frames: the outer frames decide alike.
      cases outerCase : assignIn name value outer with
      | none =>
          have outerCase' : assignIn name value outer' = none := by
            rw [assignIn_eq_none_iff] at outerCase ⊢
            rw [← agree name member]
            exact outerCase
          left
          exact ⟨.unknownVariable name, rfl, by rw [outerCase']; rfl⟩
      | some assigned =>
          cases outerCase' : assignIn name value outer' with
          | none =>
              rw [assignIn_eq_none_iff, ← agree name member, ← assignIn_eq_none_iff name value,
                outerCase] at outerCase'
              simp at outerCase'
          | some assigned' =>
              right
              refine ⟨_, _, rfl, rfl, inner, assigned, assigned', length, rfl, rfl, ?_⟩
              intro other otherMember
              rw [lookup_assignIn outerCase, lookup_assignIn outerCase',
                agree other otherMember]

end Twins
end Scope

/-! ## Machines and computations -/

/-- Two machines with as many active calls, whose scopes are alike. -/
structure Machine.Twins (names : List Text) (shared : Nat) (left right : Machine) : Prop where
  depth : left.depth = right.depth
  scope : Scope.Twins names shared left.scope right.scope

namespace Eval

variable {α β : Type}

/-- A computation that gives the same result on machines that are alike, and
leaves them alike. -/
def Respects (names : List Text) (shared : Nat) (action : Eval α) : Prop :=
  ∀ left right : Machine, left.Twins names shared right →
    (action left).1 = (action right).1 ∧
      (action left).2.Twins names shared (action right).2

namespace Respects

variable {names : List Text} {shared : Nat}

theorem pure (value : α) : Respects names shared (pure value : Eval α) :=
  fun _ _ twins => ⟨rfl, twins⟩

theorem throw (fault : Fault) : Respects names shared (throw fault : Eval α) :=
  fun _ _ twins => ⟨rfl, twins⟩

theorem ofExcept (result : Except Fault α) : Respects names shared (Eval.ofExcept result) :=
  fun _ _ twins => ⟨rfl, twins⟩

theorem lookup
    {name : Text}
    (member : name ∈ names) :
    Respects names shared (Eval.lookup name) := by
  intro left right twins
  refine ⟨?_, twins⟩
  simp only [Eval.lookup, twins.scope.lookup member]

theorem declare (name : Text) (value : Value) :
    Respects names (shared + 1) (Eval.bind name value) := by
  intro left right twins
  rcases twins.scope.bind name value with
    ⟨fault, leftFails, rightFails⟩ | ⟨left', right', leftBinds, rightBinds, scope⟩
  · simp only [Eval.bind, leftFails, rightFails]
    exact ⟨trivial, twins⟩
  · simp only [Eval.bind, leftBinds, rightBinds]
    exact ⟨trivial, twins.depth, scope⟩

theorem assign
    {name : Text}
    (member : name ∈ names)
    (value : Value) :
    Respects names shared (Eval.assign name value) := by
  intro left right twins
  rcases twins.scope.assign member value with
    ⟨error, leftFails, rightFails⟩ | ⟨left', right', leftSets, rightSets, scope⟩
  · simp only [Eval.assign, leftFails, rightFails]
    exact ⟨trivial, twins⟩
  · simp only [Eval.assign, leftSets, rightSets]
    exact ⟨trivial, twins.depth, scope⟩

theorem bind
    {first : Eval α}
    {next : α → Eval β}
    (earlier : Respects names shared first)
    (later : ∀ value, Respects names shared (next value)) :
    Respects names shared (first >>= next) := by
  intro left right twins
  obtain ⟨same, after⟩ := earlier left right twins
  rw [bind_apply, bind_apply]
  cases leftRun : first left with
  | mk leftResult leftAfter =>
      cases rightRun : first right with
      | mk rightResult rightAfter =>
          rw [leftRun, rightRun] at same after
          obtain rfl : leftResult = rightResult := same
          cases leftResult with
          | ok value => exact later value leftAfter rightAfter after
          | error fault => exact ⟨rfl, after⟩

theorem onValue
    {first : Eval (Flow α)}
    {next : α → Eval (Flow β)}
    (earlier : Respects names shared first)
    (later : ∀ value, Respects names shared (next value)) :
    Respects names shared (first.onValue next) := by
  apply earlier.bind
  intro flow
  cases flow with
  | value value => exact later value
  | returning result => exact .pure _

/-- A block has one more frame in common in the two runs. -/
theorem inBlock
    {body : Eval Outcome}
    (inner : Respects names (shared + 1) body) :
    Respects names shared (Eval.inBlock body) := by
  intro left right twins
  obtain ⟨same, after⟩ := inner { left with scope := left.scope.push }
    { right with scope := right.scope.push } ⟨twins.depth, twins.scope.push⟩
  unfold Eval.inBlock
  cases leftRun : body { left with scope := left.scope.push } with
  | mk leftResult leftAfter =>
      cases rightRun : body { right with scope := right.scope.push } with
      | mk rightResult rightAfter =>
          rw [leftRun, rightRun] at same after
          obtain rfl : leftResult = rightResult := same
          cases leftResult with
          | ok outcome => exact ⟨rfl, after.depth, after.scope.pop⟩
          | error fault => exact ⟨rfl, after.depth, after.scope.pop⟩

end Respects
end Eval

/-! ## Evaluation -/

/-- A way of calling functions that sees nothing of the caller's scope and
leaves it as it is. -/
structure Caller.Blind (call : Caller) : Prop where
  returns : call.Returns
  result : ∀ (function : Function) (args : List Value) (self : Text) (left right : Machine),
    left.depth = right.depth →
      (call function args self left).1 = (call function args self right).1

theorem Caller.Blind.respects
    {call : Caller}
    (blind : call.Blind)
    {names : List Text}
    {shared : Nat}
    (function : Function)
    (args : List Value)
    (self : Text) :
    Eval.Respects names shared (call function args self) := by
  intro left right twins
  obtain ⟨leftScope, leftDepth⟩ := blind.returns function args self left
  obtain ⟨rightScope, rightDepth⟩ := blind.returns function args self right
  refine ⟨blind.result function args self left right twins.depth, ?_, ?_⟩
  · rw [leftDepth, rightDepth, twins.depth]
  · rw [leftScope, rightScope]
    exact twins.scope

section Syntax

variable {call : Caller} {names : List Text}

mutual

/-- Evaluating an expression gives the same result on machines that agree on
its names. -/
theorem Expr.respects_eval
    (blind : call.Blind)
    (expr : Expr)
    (within : Use.names expr.uses ⊆ names)
    (shared : Nat) :
    Eval.Respects names shared (expr.eval call) := by
  cases expr with
  | name _ name =>
      rw [Expr.eval]
      rw [Expr.uses, Use.names_cons, List.cons_subset] at within
      exact (Eval.Respects.lookup within.1).bind fun _ => .pure _
  | int _ value =>
      rw [Expr.eval]
      exact .pure _
  | bool _ value =>
      rw [Expr.eval]
      exact .pure _
  | function _ params body =>
      rw [Expr.eval]
      exact .pure _
  | unary _ op operand =>
      rw [Expr.eval]
      rw [Expr.uses] at within
      refine (Expr.respects_eval blind operand within shared).onValue fun _ => ?_
      exact (Eval.Respects.ofExcept _).bind fun _ => .pure _
  | binary left op right =>
      rw [Expr.eval]
      rw [Expr.uses, Use.names_append, List.append_subset] at within
      refine (Expr.respects_eval blind left within.1 shared).onValue fun _ => ?_
      refine (Expr.respects_eval blind right within.2 shared).onValue fun _ => ?_
      exact (Eval.Respects.ofExcept _).bind fun _ => .pure _
  | branch _ condition thenArm elseArm =>
      rw [Expr.eval]
      simp only [Expr.uses, Use.names_append, List.append_subset] at within
      refine (Expr.respects_eval blind condition within.1.1 shared).onValue fun _ => ?_
      refine (Eval.Respects.ofExcept _).bind fun holds => ?_
      cases holds with
      | true => exact (Block.respects_exec blind .quiet thenArm within.1.2 shared).inBlock
      | false => exact Block.respects_execElse blind elseArm within.2 shared
  | call callee args =>
      rw [Expr.eval]
      rw [Expr.uses, Use.names_append, List.append_subset] at within
      refine (Expr.respects_evalAll blind args within.2 shared).onValue fun _ => ?_
      cases callee with
      | name _ name =>
          rw [Expr.uses, Use.names_cons, List.cons_subset] at within
          refine (Eval.Respects.lookup within.1.1).bind fun value => ?_
          cases value with
          | fn function => exact (blind.respects function _ name).bind fun _ => .pure _
          | unit | int | bool | foreign => exact .throw _
      | function _ params body =>
          exact (blind.respects ⟨params, body⟩ _ []).bind fun _ => .pure _
      | int | bool | unary | binary | call | branch | missing => exact .throw _
  | missing =>
      rw [Expr.eval]
      exact .throw _
termination_by structural expr

theorem Expr.respects_evalAll
    (blind : call.Blind)
    (exprs : List Expr)
    (within : Use.names (Expr.usesAll exprs) ⊆ names)
    (shared : Nat) :
    Eval.Respects names shared (Expr.evalAll call exprs) := by
  cases exprs with
  | nil =>
      rw [Expr.evalAll]
      exact .pure _
  | cons expr exprs =>
      rw [Expr.evalAll]
      rw [Expr.usesAll, Use.names_append, List.append_subset] at within
      refine (Expr.respects_eval blind expr within.1 shared).onValue fun _ => ?_
      exact (Expr.respects_evalAll blind exprs within.2 shared).onValue fun _ => .pure _
termination_by structural exprs

/-- A statement is executed where the innermost frame is the same in both
runs, as it may declare a name there. -/
theorem Stmt.respects_exec
    (blind : call.Blind)
    (stmt : Stmt)
    (within : Use.names stmt.uses ⊆ names)
    (shared : Nat) :
    Eval.Respects names (shared + 1) (stmt.exec call) := by
  cases stmt with
  | declare _ name value =>
      rw [Stmt.exec]
      rw [Stmt.uses, Use.names_cons, List.cons_subset] at within
      refine (Expr.respects_eval blind value within.2 _).bind fun flow => ?_
      cases flow with
      | value value => exact (Eval.Respects.declare name value).bind fun _ => .pure _
      | returning result => exact .pure _
  | assign _ name value =>
      rw [Stmt.exec]
      rw [Stmt.uses, Use.names_cons, List.cons_subset] at within
      refine (Expr.respects_eval blind value within.2 _).bind fun flow => ?_
      cases flow with
      | value value => exact (Eval.Respects.assign within.1 value).bind fun _ => .pure _
      | returning result => exact .pure _
  | expr value =>
      rw [Stmt.exec]
      rw [Stmt.uses] at within
      refine (Expr.respects_eval blind value within _).bind fun flow => ?_
      cases flow with
      | value value => exact .pure _
      | returning result => exact .pure _
  | result _ value =>
      rw [Stmt.exec]
      rw [Stmt.uses] at within
      refine (Expr.respects_eval blind value within _).bind fun flow => ?_
      cases flow with
      | value value => exact .pure _
      | returning result => exact .pure _
  | missing =>
      rw [Stmt.exec]
      exact .throw _
termination_by structural stmt

theorem Block.respects_exec
    (blind : call.Blind)
    (last : Outcome)
    (stmts : List Stmt)
    (within : Use.names (Block.uses stmts) ⊆ names)
    (shared : Nat) :
    Eval.Respects names (shared + 1) (Block.exec call last stmts) := by
  cases stmts with
  | nil =>
      rw [Block.exec]
      exact .pure _
  | cons stmt stmts =>
      rw [Block.exec]
      rw [Block.uses, Use.names_append, List.append_subset] at within
      refine (Stmt.respects_exec blind stmt within.1 shared).bind fun outcome => ?_
      cases outcome with
      | quiet => exact Block.respects_exec blind last stmts within.2 shared
      | value value => exact Block.respects_exec blind (.value value) stmts within.2 shared
      | returning result => exact .pure _
termination_by structural stmts

theorem Block.respects_execElse
    (blind : call.Blind)
    (arm : Option (List Stmt))
    (within : Use.names (Block.usesElse arm) ⊆ names)
    (shared : Nat) :
    Eval.Respects names shared (Block.execElse call arm) := by
  cases arm with
  | none =>
      rw [Block.execElse]
      exact .pure _
  | some block =>
      rw [Block.execElse]
      rw [Block.usesElse] at within
      exact (Block.respects_exec blind .quiet block within shared).inBlock
termination_by structural arm

end

end Syntax

/-! ## Calls -/

namespace Scope

theorem depth_bind
    {scope after : Scope}
    {name : Text}
    {value : Value}
    (bound : scope.bind name value = .ok after) :
    after.depth = scope.depth := by
  have grows : Grows [] [name] scope after := .bind bound
  have names := congrArg List.length grows.names_eq
  simp only [Scope.names, List.length_map, List.length_modifyHead] at names
  exact names

theorem depth_bindAll
    {scope after : Scope}
    {bindings : List Binding}
    (bound : scope.bindAll bindings = .ok after) :
    after.depth = scope.depth := by
  induction bindings generalizing scope with
  | nil =>
      obtain rfl := Except.ok.inj bound
      rfl
  | cons binding bindings inductionHypothesis =>
      obtain ⟨name, value⟩ := binding
      rw [bindAll] at bound
      cases first : scope.bind name value with
      | error fault => simp [first, Bind.bind, Except.bind] at bound
      | ok between =>
          simp only [first, Bind.bind, Except.bind] at bound
          rw [inductionHypothesis bound, depth_bind first]

end Scope

namespace Function

/-- The result of a call depends on the caller only through the number of
active calls: its body starts in a scope of its own. -/
theorem activate_result
    (function : Function)
    (args : List Value)
    (self : Text)
    {body : Eval Outcome}
    {names : List Text}
    (respects : Eval.Respects names 1 body)
    {left right : Machine}
    (sameDepth : left.depth = right.depth) :
    (function.activate args self body left).1 =
      (function.activate args self body right).1 := by
  unfold activate
  cases bound : function.scope args self with
  | error fault => rfl
  | ok scope =>
      have oneFrame : scope.depth = 1 := Scope.depth_bindAll bound
      have twins := Scope.Twins.self names scope
      rw [oneFrame] at twins
      obtain ⟨same, _⟩ := respects
        ⟨scope, left.depth + 1, .calling self args.length (left.depth + 1) :: left.trace⟩
        ⟨scope, right.depth + 1, .calling self args.length (right.depth + 1) :: right.trace⟩
        ⟨by simp [sameDepth], twins⟩
      dsimp only
      split
      · rename_i outcome after leftRun
        rw [leftRun] at same
        split
        · rename_i outcome' after' rightRun
          rw [rightRun] at same
          obtain rfl := Except.ok.inj same
          rfl
        · rename_i fault after' rightRun
          rw [rightRun] at same
          simp at same
      · rename_i fault after leftRun
        rw [leftRun] at same
        split
        · rename_i outcome' after' rightRun
          rw [rightRun] at same
          simp at same
        · rename_i fault' after' rightRun
          rw [rightRun] at same
          obtain rfl := Except.error.inj same
          rfl

/-- Calls see nothing of the caller's scope, however deep they recurse. -/
theorem call_blind (refusal : Fault) (room : Nat) : Caller.Blind (call refusal room) := by
  refine ⟨call_returns refusal room, ?_⟩
  induction room with
  | zero =>
      intro function args self left right _
      unfold call
      split <;> rfl
  | succ room inductionHypothesis =>
      intro function args self left right sameDepth
      have blind : Caller.Blind (call refusal room) :=
        ⟨call_returns refusal room, inductionHypothesis⟩
      unfold call
      split
      · exact activate_result function args self
          (Block.respects_exec blind .quiet function.body (List.Subset.refl _) 0) sameDepth
      · rfl

end Function

/-- Calls under a limit see nothing of the caller's scope. -/
theorem DepthLimit.caller_blind (limit : DepthLimit) (depth : Nat) :
    (limit.caller depth).Blind :=
  Function.call_blind limit.refusal (limit.room depth)

/-- The frames of a scope where every name outside of `targets` has the value,
or the absence of one, that it had before. -/
def Scope.Spares (targets : List Text) (before after : Scope) : Prop :=
  List.Forall₂
    (fun frame frame' : Frame => ∀ name ∉ targets, Frame.get? frame' name = Frame.get? frame name)
    before.frames after.frames

theorem Scope.Grows.spares
    {targets : List Text}
    {before after : Scope}
    (grows : Scope.Grows targets [] before after) :
    before.Spares targets after :=
  ((iff_forall₂ before after).mp grows).imp fun _ _ frame _ spared =>
    Frame.Grows.get?_eq frame spared

/-- From scopes that agree on the names of an expression outside of its
functions, with as many active calls, evaluation gives the same value, `return`
or fault; the scopes agree on these names afterwards; and in each of them the
names that the expression does not assign keep their values in every frame.
Functions are called alike from any two scopes and change neither. -/
theorem functions_capture_nothing
    (limit : DepthLimit)
    (expr : Expr)
    (left right : Machine)
    (sameDepth : left.depth = right.depth)
    (agree : ∀ name ∈ Use.names expr.uses,
      left.scope.lookup name = right.scope.lookup name) :
    let call := limit.caller left.depth
    (expr.eval call left).1 = (expr.eval call right).1 ∧
      (∀ name ∈ Use.names expr.uses,
        (expr.eval call left).2.scope.lookup name =
          (expr.eval call right).2.scope.lookup name) ∧
      left.scope.Spares (Use.targets expr.uses) (expr.eval call left).2.scope ∧
      right.scope.Spares (Use.targets expr.uses) (expr.eval call right).2.scope ∧
      ∀ (function : Function) (args : List Value) (self : Text) (other : Machine),
        left.depth = other.depth →
          (call function args self left).1 = (call function args self other).1 ∧
            (call function args self left).2.scope = left.scope ∧
            (call function args self other).2.scope = other.scope := by
  intro call
  have blind : call.Blind := limit.caller_blind left.depth
  have keeps := Expr.keeps_eval blind.returns expr (List.Subset.refl _)
  obtain ⟨same, after⟩ := Expr.respects_eval blind expr (List.Subset.refl _) 0 left right
    ⟨sameDepth, Scope.Twins.of_agree agree⟩
  refine ⟨same, fun name member => after.scope.lookup member, (keeps left).scope.spares,
    (keeps right).scope.spares, ?_⟩
  intro function args self other otherDepth
  exact ⟨blind.result function args self left other otherDepth,
    (blind.returns function args self left).1, (blind.returns function args self other).1⟩

/-- A choice whose arm shadows one name and assigns another, in scopes of
different height that agree on its names. -/
theorem functions_capture_nothing_in_arm :
    let expr : Expr := .branch .start (.name .start "c")
      [.declare .start "z" (.name .start "y"), .assign .start "y" (.int .start 7),
        .result .start (.name .start "z")] none
    let left : Machine := ⟨⟨[[("y", .int 5), ("c", .bool true)]]⟩, 0, []⟩
    let right : Machine := ⟨⟨[[("q", .unit)], [("c", .bool true)], [("y", .int 5)]]⟩, 0, []⟩
    (∀ name ∈ Use.names expr.uses, left.scope.lookup name = right.scope.lookup name) ∧
      (expr.eval (DepthLimit.unlimited.caller 0) left).1 =
        (expr.eval (DepthLimit.unlimited.caller 0) right).1 := by
  intro expr left right
  have agree : ∀ name ∈ Use.names expr.uses,
      left.scope.lookup name = right.scope.lookup name := by
    intro name member
    have listed : name ∈ (["c", "z", "y", "y", "z"] : List Text) := member
    simp only [List.mem_cons, List.not_mem_nil, or_false] at listed
    rcases listed with rfl | rfl | rfl | rfl | rfl <;> rfl
  exact ⟨agree, (functions_capture_nothing .unlimited expr left right rfl agree).1⟩

end Siren
