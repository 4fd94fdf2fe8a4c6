import Mathlib.Data.List.Forall2
import Siren.Session

/-!
# What evaluation does to a scope

Evaluating an expression leaves every frame with the names it had, in the same
order, and gives new values only to names that the expression assigns outside
of the functions in it.  Executing statements does the same, but may declare
names at the end of the innermost frame.  The number of active calls is the
same afterwards.  All of this holds whether evaluation gives a value, meets a
`return` or fails.

The statements about single nodes are put together in one induction over the
syntax, for any way of calling functions that comes back to the caller's scope;
that calls do come back is then an induction on the room for further calls.
-/

namespace Siren

/-! ## Uses of names -/

/-- How a name is used. -/
inductive Use where
  | read
  | declare
  | assign
  deriving DecidableEq, Repr

mutual

/-- The names used in an expression, outside of the functions in it. -/
def Expr.uses : Expr → List (Use × Text)
  | .name _ name => [(.read, name)]
  | .int _ _ => []
  | .bool _ _ => []
  | .function _ _ _ => []
  | .unary _ _ operand => operand.uses
  | .binary left _ right => left.uses ++ right.uses
  | .branch _ condition thenArm elseArm =>
    condition.uses ++ Block.uses thenArm ++ Block.usesElse elseArm
  | .call callee args => callee.uses ++ Expr.usesAll args
  | .missing => []
termination_by structural expr => expr

/-- The names used in the arguments of a call. -/
def Expr.usesAll : List Expr → List (Use × Text)
  | [] => []
  | expr :: exprs => expr.uses ++ Expr.usesAll exprs
termination_by structural exprs => exprs

/-- The names used in a statement. -/
def Stmt.uses : Stmt → List (Use × Text)
  | .declare _ name value => (.declare, name) :: value.uses
  | .assign _ name value => (.assign, name) :: value.uses
  | .expr value => value.uses
  | .result _ value => value.uses
  | .missing => []
termination_by structural stmt => stmt

/-- The names used in statements. -/
def Block.uses : List Stmt → List (Use × Text)
  | [] => []
  | stmt :: stmts => stmt.uses ++ Block.uses stmts
termination_by structural stmts => stmts

/-- The names used in the second arm of a choice. -/
def Block.usesElse : Option (List Stmt) → List (Use × Text)
  | none => []
  | some block => Block.uses block
termination_by structural arm => arm

end

namespace Use

/-- The names of a list of uses. -/
def names (uses : List (Use × Text)) : List Text :=
  uses.map (·.2)

/-- The names that a list of uses assigns. -/
def targets (uses : List (Use × Text)) : List Text :=
  (uses.filter (·.1 = .assign)).map (·.2)

@[simp] theorem names_cons (use : Use) (name : Text) (uses : List (Use × Text)) :
    names ((use, name) :: uses) = name :: names uses := rfl

@[simp] theorem names_append (first second : List (Use × Text)) :
    names (first ++ second) = names first ++ names second := by
  simp [names]

@[simp] theorem targets_declare (name : Text) (uses : List (Use × Text)) :
    targets ((.declare, name) :: uses) = targets uses := rfl

@[simp] theorem targets_assign (name : Text) (uses : List (Use × Text)) :
    targets ((.assign, name) :: uses) = name :: targets uses := rfl

@[simp] theorem targets_append (first second : List (Use × Text)) :
    targets (first ++ second) = targets first ++ targets second := by
  simp [targets]

end Use

/-! ## Frames -/

namespace Frame

/-- A frame declares exactly its names. -/
theorem declares_iff (frame : Frame) (name : Text) :
    Frame.declares frame name = true ↔ name ∈ Frame.names frame := by
  simp [Frame.declares, Frame.names]

/-- Giving a name a new value keeps the names of the frame. -/
@[simp] theorem names_set (frame : Frame) (name : Text) (value : Value) :
    Frame.names (Frame.set frame name value) = Frame.names frame := by
  unfold Frame.names Frame.set
  rw [List.map_map]
  apply List.map_congr_left
  intro binding _
  by_cases same : binding.1 = name
  · simp [same]
  · simp [same]

/-- Giving a name a new value keeps the values of the other names. -/
theorem get?_set_of_ne
    (frame : Frame)
    (value : Value)
    {name other : Text}
    (different : other ≠ name) :
    Frame.get? (Frame.set frame name value) other = Frame.get? frame other := by
  unfold Frame.get?
  induction frame with
  | nil => rfl
  | cons binding rest inductionHypothesis =>
      simp only [Frame.set, List.map_cons] at inductionHypothesis ⊢
      by_cases same : binding.1 = name
      · have left : ¬name = other := fun equal => different equal.symm
        have right : ¬binding.1 = other := fun equal => different (equal.symm.trans same)
        rw [if_pos same, List.find?_cons_of_neg (by simpa using left),
          List.find?_cons_of_neg (by simpa using right)]
        exact inductionHypothesis
      · rw [if_neg same]
        by_cases found : binding.1 = other
        · rw [List.find?_cons_of_pos (by simpa using found),
            List.find?_cons_of_pos (by simpa using found)]
        · rw [List.find?_cons_of_neg (by simpa using found),
            List.find?_cons_of_neg (by simpa using found)]
          exact inductionHypothesis

/-- The frame gives a declared name its new value. -/
theorem get?_set_self
    {frame : Frame}
    {name : Text}
    (value : Value)
    (member : name ∈ Frame.names frame) :
    Frame.get? (Frame.set frame name value) name = some value := by
  unfold Frame.get?
  induction frame with
  | nil => simp [Frame.names] at member
  | cons binding rest inductionHypothesis =>
      simp only [Frame.set, List.map_cons] at inductionHypothesis ⊢
      by_cases same : binding.1 = name
      · rw [if_pos same, List.find?_cons_of_pos (by simp)]
        rfl
      · rw [if_neg same, List.find?_cons_of_neg (by simpa using same)]
        apply inductionHypothesis
        simpa [Frame.names, Ne.symm same] using member

/-- A name that a frame declares has a value in it. -/
theorem exists_get?_of_mem
    {frame : Frame}
    {name : Text}
    (member : name ∈ Frame.names frame) :
    ∃ value, Frame.get? frame name = some value := by
  obtain ⟨binding, present, same⟩ := List.mem_map.mp member
  cases found : frame.find? (·.1 = name) with
  | none =>
      have absent := List.find?_eq_none.mp found binding present
      simp [same] at absent
  | some first => exact ⟨first.2, by simp [Frame.get?, found]⟩

/-- A name that a frame does not declare has no value in it. -/
theorem get?_eq_none_of_not_mem
    {frame : Frame}
    {name : Text}
    (absent : name ∉ Frame.names frame) :
    Frame.get? frame name = none := by
  rw [Frame.get?, Option.map_eq_none_iff, List.find?_eq_none]
  intro binding present
  have different : binding.1 ≠ name := fun same =>
    absent (List.mem_map.mpr ⟨binding, present, same⟩)
  simpa using different

/-- A new binding at the end hides no name that was declared before. -/
theorem get?_append_of_mem
    {frame : Frame}
    {name : Text}
    (later : Frame)
    (member : name ∈ Frame.names frame) :
    Frame.get? (frame ++ later) name = Frame.get? frame name := by
  obtain ⟨value, found⟩ := exists_get?_of_mem member
  unfold Frame.get? at found ⊢
  obtain ⟨binding, present, equal⟩ := Option.map_eq_some_iff.mp found
  rw [List.find?_append, present, Option.some_or]

/-- A frame after some steps of evaluation: it has declared the names
`declared` at its end, and only names in `targets` have new values. -/
structure Grows (targets declared : List Text) (before after : Frame) : Prop where
  names : Frame.names after = Frame.names before ++ declared
  values : ∀ name ∈ Frame.names before, name ∉ targets →
    Frame.get? after name = Frame.get? before name

namespace Grows

variable {targets : List Text}

theorem refl (targets : List Text) (frame : Frame) : Grows targets [] frame frame :=
  ⟨by simp, fun _ _ _ => rfl⟩

theorem trans
    {first second : List Text}
    {before between after : Frame}
    (earlier : Grows targets first before between)
    (later : Grows targets second between after) :
    Grows targets (first ++ second) before after where
  names := by
    rw [later.names, earlier.names, List.append_assoc]
  values := by
    intro name member spared
    have still : name ∈ Frame.names between := by
      rw [earlier.names]
      exact List.mem_append_left first member
    rw [later.values name still spared, earlier.values name member spared]

/-- A frame that declares nothing new keeps the value, or the absence of one,
of every name outside of the targets. -/
theorem get?_eq
    {before after : Frame}
    (grows : Grows targets [] before after)
    {name : Text}
    (spared : name ∉ targets) :
    Frame.get? after name = Frame.get? before name := by
  by_cases member : name ∈ Frame.names before
  · exact grows.values name member spared
  · have absent : name ∉ Frame.names after := by
      rw [grows.names, List.append_nil]
      exact member
    rw [get?_eq_none_of_not_mem member, get?_eq_none_of_not_mem absent]

/-- Giving a target a new value declares nothing. -/
theorem set
    (frame : Frame)
    (value : Value)
    {name : Text}
    (target : name ∈ targets) :
    Grows targets [] frame (Frame.set frame name value) where
  names := by simp
  values := by
    intro other _ spared
    have different : other ≠ name := by
      rintro rfl
      exact spared target
    exact get?_set_of_ne frame value different

/-- A new binding declares its name. -/
theorem declare (targets : List Text) (frame : Frame) (name : Text) (value : Value) :
    Grows targets [name] frame (frame ++ [(name, value)]) where
  names := by simp [Frame.names]
  values := fun _ member _ => get?_append_of_mem _ member

theorem forall₂_refl (targets : List Text) (frames : List Frame) :
    List.Forall₂ (Grows targets []) frames frames :=
  List.forall₂_same.mpr fun frame _ => refl targets frame

theorem forall₂_trans
    {before between after : List Frame}
    (earlier : List.Forall₂ (Grows targets []) before between)
    (later : List.Forall₂ (Grows targets []) between after) :
    List.Forall₂ (Grows targets []) before after := by
  induction earlier generalizing after with
  | nil =>
      cases later
      exact .nil
  | cons first _ inductionHypothesis =>
      cases later with
      | cons second rest => exact .cons (first.trans second) (inductionHypothesis rest)

/-- Frames that declare nothing new keep their names. -/
theorem map_names_eq
    {before after : List Frame}
    (grow : List.Forall₂ (Grows targets []) before after) :
    after.map Frame.names = before.map Frame.names := by
  induction grow with
  | nil => rfl
  | cons first _ inductionHypothesis =>
      rw [List.map_cons, List.map_cons, inductionHypothesis, first.names, List.append_nil]

end Grows
end Frame

/-! ## Scopes -/

namespace Scope

/-- The names declared in each frame, the innermost frame first. -/
def names (scope : Scope) : List (List Text) :=
  scope.frames.map Frame.names

/-- A name can be declared exactly where the innermost frame does not declare it
yet. -/
theorem bind_succeeds_iff (scope : Scope) (name : Text) (value : Value) :
    (∃ after, scope.bind name value = .ok after) ↔
      ∃ frame ∈ scope.names.head?, name ∉ frame := by
  obtain ⟨frames⟩ := scope
  cases frames with
  | nil => simp [Scope.bind, names]
  | cons frame outer =>
      have innermost : names ⟨frame :: outer⟩ = Frame.names frame :: outer.map Frame.names := rfl
      rw [Scope.bind, innermost, List.head?_cons]
      by_cases declares : Frame.declares frame name = true
      · have member := (Frame.declares_iff frame name).mp declares
        simp [declares, member]
      · have absent := mt (Frame.declares_iff frame name).mpr declares
        simp [declares, absent]

/-- A scope after some steps of evaluation: its innermost frame has declared the
names `declared`, the others none, and only names in `targets` have new
values. -/
inductive Grows (targets declared : List Text) : Scope → Scope → Prop where
  | bare : Grows targets declared ⟨[]⟩ ⟨[]⟩
  | frames {frame frame' : Frame} {outer outer' : List Frame}
      (inner : Frame.Grows targets declared frame frame')
      (rest : List.Forall₂ (Frame.Grows targets []) outer outer') :
      Grows targets declared ⟨frame :: outer⟩ ⟨frame' :: outer'⟩

namespace Grows

variable {targets : List Text}

/-- A scope grows without declarations exactly when each of its frames does. -/
theorem iff_forall₂ (before after : Scope) :
    Grows targets [] before after ↔
      List.Forall₂ (Frame.Grows targets []) before.frames after.frames := by
  constructor
  · rintro (_ | ⟨inner, rest⟩)
    · exact .nil
    · exact .cons inner rest
  · obtain ⟨frames⟩ := before
    obtain ⟨frames'⟩ := after
    rintro (_ | ⟨inner, rest⟩)
    · exact .bare
    · exact .frames inner rest

theorem refl (targets : List Text) (scope : Scope) : Grows targets [] scope scope := by
  rw [iff_forall₂]
  exact Frame.Grows.forall₂_refl targets scope.frames

theorem trans
    {first second : List Text}
    {before between after : Scope}
    (earlier : Grows targets first before between)
    (later : Grows targets second between after) :
    Grows targets (first ++ second) before after := by
  cases earlier with
  | bare =>
      cases later with
      | bare => exact .bare
  | frames inner rest =>
      cases later with
      | frames inner' rest' =>
          exact .frames (inner.trans inner') (Frame.Grows.forall₂_trans rest rest')

/-- What a scope that has grown declares. -/
theorem names_eq
    {declared : List Text}
    {before after : Scope}
    (grows : Grows targets declared before after) :
    after.names = before.names.modifyHead (· ++ declared) := by
  cases grows with
  | bare => rfl
  | frames inner rest =>
      simp only [names, List.map_cons, List.modifyHead_cons, inner.names,
        Frame.Grows.map_names_eq rest]

/-- Closing a block undoes its declarations. -/
theorem pop
    {declared : List Text}
    {scope after : Scope}
    (grows : Grows targets declared scope.push after) :
    Grows targets [] scope after.pop := by
  obtain ⟨frames⟩ := scope
  cases grows with
  | frames _ rest => exact (iff_forall₂ _ _).mpr rest

/-- A declaration that succeeds declares its name. -/
theorem bind
    {scope after : Scope}
    {name : Text}
    {value : Value}
    (bound : scope.bind name value = .ok after) :
    Grows targets [name] scope after := by
  obtain ⟨frames⟩ := scope
  cases frames with
  | nil => simp [Scope.bind] at bound
  | cons frame outer =>
      simp only [Scope.bind] at bound
      split at bound
      · simp at bound
      · obtain rfl := Except.ok.inj bound
        exact .frames (Frame.Grows.declare targets frame name value)
          (Frame.Grows.forall₂_refl targets outer)

/-- An assignment to a target declares nothing. -/
theorem assign
    {scope after : Scope}
    {name : Text}
    {value : Value}
    (target : name ∈ targets)
    (assigned : scope.assign name value = .ok after) :
    Grows targets [] scope after := by
  have inFrames (frames : List Frame) (frames' : List Frame)
      (found : assignIn name value frames = some frames') :
      List.Forall₂ (Frame.Grows targets []) frames frames' := by
    induction frames generalizing frames' with
    | nil => simp [assignIn] at found
    | cons frame outer inductionHypothesis =>
        unfold assignIn at found
        split at found
        · obtain rfl := Option.some.inj found
          exact .cons (Frame.Grows.set frame value target)
            (Frame.Grows.forall₂_refl targets outer)
        · obtain ⟨outer', found', rfl⟩ := Option.map_eq_some_iff.mp found
          exact .cons (Frame.Grows.refl targets frame) (inductionHypothesis _ found')
  rw [iff_forall₂]
  unfold Scope.assign at assigned
  split at assigned
  · rename_i frames found
    obtain rfl := Except.ok.inj assigned
    exact inFrames scope.frames frames found
  · simp at assigned

end Grows
end Scope

/-! ## Machines and computations -/

/-- A machine after some steps of evaluation in its scope. -/
structure Machine.Grows (targets declared : List Text) (before after : Machine) : Prop where
  depth : after.depth = before.depth
  scope : Scope.Grows targets declared before.scope after.scope

namespace Machine.Grows

variable {targets : List Text}

theorem refl (targets : List Text) (machine : Machine) : Grows targets [] machine machine :=
  ⟨rfl, .refl targets machine.scope⟩

theorem trans
    {first second : List Text}
    {before between after : Machine}
    (earlier : Grows targets first before between)
    (later : Grows targets second between after) :
    Grows targets (first ++ second) before after :=
  ⟨later.depth.trans earlier.depth, earlier.scope.trans later.scope⟩

end Machine.Grows

/-- A sequence runs its second part where the first has ended, if it has not
failed. -/
theorem exceptT_bind_apply
    {ε σ α β : Type}
    (first : ExceptT ε (StateM σ) α)
    (next : α → ExceptT ε (StateM σ) β)
    (state : σ) :
    (first >>= next) state =
      match first state with
      | (.ok value, after) => next value after
      | (.error failure, after) => (.error failure, after) := by
  cases equal : first state with
  | mk result after =>
      cases result <;>
        simp only [Bind.bind, ExceptT.bind, ExceptT.mk, StateT.bind, equal]
      · rfl
      · rfl

namespace Eval

variable {α β : Type}

@[simp] theorem pure_apply (value : α) (machine : Machine) :
    (pure value : Eval α) machine = (.ok value, machine) := rfl

theorem bind_apply (first : Eval α) (next : α → Eval β) (machine : Machine) :
    (first >>= next) machine =
      match first machine with
      | (.ok value, after) => next value after
      | (.error fault, after) => (.error fault, after) := by
  rw [exceptT_bind_apply]
  rcases first machine with ⟨fault | value, after⟩ <;> rfl

theorem bind_of_ok
    {first : Eval α}
    {machine after : Machine}
    {value : α}
    (run : first machine = (.ok value, after))
    (next : α → Eval β) :
    (first >>= next) machine = next value after := by
  rw [bind_apply, run]

theorem bind_of_error
    {first : Eval α}
    {machine after : Machine}
    {fault : Fault}
    (run : first machine = (.error fault, after))
    (next : α → Eval β) :
    (first >>= next) machine = (.error fault, after) := by
  rw [bind_apply, run]

theorem onValue_of_value
    {first : Eval (Flow α)}
    {machine after : Machine}
    {value : α}
    (run : first machine = (.ok (.value value), after))
    (next : α → Eval (Flow β)) :
    first.onValue next machine = next value after :=
  bind_of_ok run _

theorem onValue_of_returning
    {first : Eval (Flow α)}
    {machine after : Machine}
    {result : Value}
    (run : first machine = (.ok (.returning result), after))
    (next : α → Eval (Flow β)) :
    first.onValue next machine = (.ok (.returning result), after) :=
  bind_of_ok run _

theorem onValue_of_error
    {first : Eval (Flow α)}
    {machine after : Machine}
    {fault : Fault}
    (run : first machine = (.error fault, after))
    (next : α → Eval (Flow β)) :
    first.onValue next machine = (.error fault, after) :=
  bind_of_error run _

/-- A computation that declares nothing and gives new values to targets only. -/
def Keeps (targets : List Text) (action : Eval α) : Prop :=
  ∀ machine : Machine, machine.Grows targets [] (action machine).2

namespace Keeps

variable {targets : List Text}

/-- Every frame has the names it had. -/
theorem names_eq
    {action : Eval α}
    (keeps : Keeps targets action)
    (machine : Machine) :
    (action machine).2.scope.names = machine.scope.names :=
  Frame.Grows.map_names_eq ((Scope.Grows.iff_forall₂ _ _).mp (keeps machine).scope)

theorem pure (value : α) : Keeps targets (pure value : Eval α) :=
  fun machine => .refl targets machine

theorem throw (fault : Fault) : Keeps targets (throw fault : Eval α) :=
  fun machine => .refl targets machine

theorem ofExcept (result : Except Fault α) : Keeps targets (Eval.ofExcept result) :=
  fun machine => .refl targets machine

theorem lookup (name : Text) : Keeps targets (Eval.lookup name) :=
  fun machine => .refl targets machine

theorem bind
    {first : Eval α}
    {next : α → Eval β}
    (earlier : Keeps targets first)
    (later : ∀ value, Keeps targets (next value)) :
    Keeps targets (first >>= next) := by
  intro machine
  rw [bind_apply]
  have grows := earlier machine
  split
  · rename_i value after equal
    rw [equal] at grows
    exact grows.trans (later value after)
  · rename_i fault after equal
    rwa [equal] at grows

theorem onValue
    {first : Eval (Flow α)}
    {next : α → Eval (Flow β)}
    (earlier : Keeps targets first)
    (later : ∀ value, Keeps targets (next value)) :
    Keeps targets (first.onValue next) := by
  apply earlier.bind
  intro flow
  cases flow with
  | value value => exact later value
  | returning result => exact .pure _

/-- A block keeps the scope around it, whatever it declares itself. -/
theorem inBlock
    {body : Eval Outcome}
    (grows : ∀ machine : Machine, ∃ declared, machine.Grows targets declared (body machine).2) :
    Keeps targets (Eval.inBlock body) := by
  intro machine
  obtain ⟨declared, inner⟩ := grows { machine with scope := machine.scope.push }
  unfold Eval.inBlock
  split
  · rename_i outcome after equal
    rw [equal] at inner
    exact ⟨inner.depth, inner.scope.pop⟩
  · rename_i fault after equal
    rw [equal] at inner
    exact ⟨inner.depth, inner.scope.pop⟩

end Keeps
end Eval

/-! ## Evaluation -/

/-- A way of calling functions that comes back to the caller's scope with as
many active calls as before. -/
def Caller.Returns (call : Caller) : Prop :=
  ∀ (function : Function) (args : List Value) (self : Text) (machine : Machine),
    (call function args self machine).2.scope = machine.scope ∧
      (call function args self machine).2.depth = machine.depth

theorem Caller.Returns.keeps
    {call : Caller}
    (returns : call.Returns)
    (targets : List Text)
    (function : Function)
    (args : List Value)
    (self : Text) :
    Eval.Keeps targets (call function args self) := by
  intro machine
  obtain ⟨scope, depth⟩ := returns function args self machine
  refine ⟨depth, ?_⟩
  rw [scope]
  exact .refl targets machine.scope

/-- The names that a statement has declared when it ends with a result: a
declaration its name unless it fails or meets a `return`, and others none. -/
def Stmt.declared : Stmt → Except Fault Outcome → List Text
  | .declare _ name _, .ok outcome => if outcome.isReturning then [] else [name]
  | _, _ => []

section Syntax

variable {call : Caller} {targets : List Text}

mutual

/-- Evaluating an expression declares nothing and gives new values to its
targets only. -/
theorem Expr.keeps_eval
    (returns : call.Returns)
    (expr : Expr)
    (within : Use.targets expr.uses ⊆ targets) :
    Eval.Keeps targets (expr.eval call) := by
  cases expr with
  | name _ name =>
      rw [Expr.eval]
      exact (Eval.Keeps.lookup name).bind fun _ => .pure _
  | int _ value =>
      rw [Expr.eval]
      exact .pure _
  | bool _ value =>
      rw [Expr.eval]
      exact .pure _
  | function _ params body =>
      rw [Expr.eval]
      exact .pure _
  | unary _ op operand =>
      rw [Expr.eval]
      rw [Expr.uses] at within
      refine (Expr.keeps_eval returns operand within).onValue fun value => ?_
      exact (Eval.Keeps.ofExcept _).bind fun _ => .pure _
  | binary left op right =>
      rw [Expr.eval]
      rw [Expr.uses, Use.targets_append, List.append_subset] at within
      refine (Expr.keeps_eval returns left within.1).onValue fun _ => ?_
      refine (Expr.keeps_eval returns right within.2).onValue fun _ => ?_
      exact (Eval.Keeps.ofExcept _).bind fun _ => .pure _
  | branch _ condition thenArm elseArm =>
      rw [Expr.eval]
      simp only [Expr.uses, Use.targets_append, List.append_subset] at within
      refine (Expr.keeps_eval returns condition within.1.1).onValue fun test => ?_
      refine (Eval.Keeps.ofExcept _).bind fun holds => ?_
      cases holds with
      | true => exact .inBlock (Block.grows_exec returns .quiet thenArm within.1.2)
      | false => exact Block.keeps_execElse returns elseArm within.2
  | call callee args =>
      rw [Expr.eval]
      rw [Expr.uses, Use.targets_append, List.append_subset] at within
      refine (Expr.keeps_evalAll returns args within.2).onValue fun values => ?_
      split
      · refine (Eval.Keeps.lookup _).bind fun value => ?_
        split
        · exact (returns.keeps targets _ _ _).bind fun _ => .pure _
        · exact .throw _
      · exact (returns.keeps targets _ _ _).bind fun _ => .pure _
      · exact .throw _
  | missing =>
      rw [Expr.eval]
      exact .throw _
termination_by structural expr

/-- Evaluating arguments declares nothing and gives new values to their targets
only. -/
theorem Expr.keeps_evalAll
    (returns : call.Returns)
    (exprs : List Expr)
    (within : Use.targets (Expr.usesAll exprs) ⊆ targets) :
    Eval.Keeps targets (Expr.evalAll call exprs) := by
  cases exprs with
  | nil =>
      rw [Expr.evalAll]
      exact .pure _
  | cons expr exprs =>
      rw [Expr.evalAll]
      rw [Expr.usesAll, Use.targets_append, List.append_subset] at within
      refine (Expr.keeps_eval returns expr within.1).onValue fun _ => ?_
      exact (Expr.keeps_evalAll returns exprs within.2).onValue fun _ => .pure _
termination_by structural exprs

/-- Executing a statement declares what it should and gives new values to its
targets only. -/
theorem Stmt.grows_exec
    (returns : call.Returns)
    (stmt : Stmt)
    (within : Use.targets stmt.uses ⊆ targets)
    (machine : Machine) :
    machine.Grows targets (stmt.declared (stmt.exec call machine).1)
      (stmt.exec call machine).2 := by
  cases stmt with
  | declare _ name value =>
      rw [Stmt.uses, Use.targets_declare] at within
      have grows := Expr.keeps_eval returns value within machine
      rw [Stmt.exec, Eval.bind_apply]
      split
      · rename_i flow after equal
        rw [equal] at grows
        cases flow with
        | value value =>
            cases bound : after.scope.bind name value with
            | ok scope =>
                simp only [Eval.bind_apply, Eval.bind, bound, Eval.pure_apply, Stmt.declared]
                exact grows.trans ⟨rfl, Scope.Grows.bind bound⟩
            | error fault =>
                simp only [Eval.bind_apply, Eval.bind, bound, Stmt.declared]
                exact grows
        | returning result => exact grows
      · rename_i fault after equal
        rwa [equal] at grows
  | assign _ name value =>
      rw [Stmt.uses, Use.targets_assign, List.cons_subset] at within
      have grows := Expr.keeps_eval returns value within.2 machine
      rw [Stmt.exec, Eval.bind_apply]
      split
      · rename_i flow after equal
        rw [equal] at grows
        cases flow with
        | value value =>
            cases assigned : after.scope.assign name value with
            | ok scope =>
                simp only [Eval.bind_apply, Eval.assign, assigned, Eval.pure_apply,
                  Stmt.declared]
                exact grows.trans ⟨rfl, Scope.Grows.assign within.1 assigned⟩
            | error error =>
                simp only [Eval.bind_apply, Eval.assign, assigned, Stmt.declared]
                exact grows
        | returning result => exact grows
      · rename_i fault after equal
        rwa [equal] at grows
  | expr value =>
      rw [Stmt.uses] at within
      rw [Stmt.exec]
      refine (Expr.keeps_eval returns value within).bind ?_ machine
      rintro (_ | _) <;> exact .pure _
  | result _ value =>
      rw [Stmt.uses] at within
      rw [Stmt.exec]
      refine (Expr.keeps_eval returns value within).bind ?_ machine
      rintro (_ | _) <;> exact .pure _
  | missing =>
      rw [Stmt.exec]
      exact .refl targets machine
termination_by structural stmt

/-- Executing statements declares names in the innermost frame and gives new
values to their targets only. -/
theorem Block.grows_exec
    (returns : call.Returns)
    (last : Outcome)
    (stmts : List Stmt)
    (within : Use.targets (Block.uses stmts) ⊆ targets)
    (machine : Machine) :
    ∃ declared, machine.Grows targets declared (Block.exec call last stmts machine).2 := by
  cases stmts with
  | nil =>
      rw [Block.exec]
      exact ⟨[], .refl targets machine⟩
  | cons stmt stmts =>
      rw [Block.uses, Use.targets_append, List.append_subset] at within
      have grows := Stmt.grows_exec returns stmt within.1 machine
      rw [Block.exec, Eval.bind_apply]
      split
      · rename_i outcome after equal
        rw [equal] at grows
        cases outcome with
        | quiet =>
            obtain ⟨declared, rest⟩ := Block.grows_exec returns last stmts within.2 after
            exact ⟨_, grows.trans rest⟩
        | value value =>
            obtain ⟨declared, rest⟩ :=
              Block.grows_exec returns (.value value) stmts within.2 after
            exact ⟨_, grows.trans rest⟩
        | returning result => exact ⟨_, grows⟩
      · rename_i fault after equal
        rw [equal] at grows
        exact ⟨_, grows⟩
termination_by structural stmts

/-- The second arm of a choice declares nothing outside of its block. -/
theorem Block.keeps_execElse
    (returns : call.Returns)
    (arm : Option (List Stmt))
    (within : Use.targets (Block.usesElse arm) ⊆ targets) :
    Eval.Keeps targets (Block.execElse call arm) := by
  cases arm with
  | none =>
      rw [Block.execElse]
      exact .pure _
  | some block =>
      rw [Block.usesElse] at within
      rw [Block.execElse]
      exact .inBlock (Block.grows_exec returns .quiet block within)
termination_by structural arm

end

/-- A declaration ends with neither a failure nor a `return` exactly if its expression
has a value and the innermost frame does not declare its name yet. -/
theorem Stmt.declare_succeeds_iff
    (returns : call.Returns)
    (pos : Position)
    (name : Text)
    (value : Expr)
    (machine : Machine) :
    (∃ outcome, ((Stmt.declare pos name value).exec call machine).1 = .ok outcome ∧
        outcome.isReturning = false) ↔
      (∃ given, (value.eval call machine).1 = .ok (.value given)) ∧
        ∃ frame ∈ machine.scope.names.head?, name ∉ frame := by
  have names := (Expr.keeps_eval returns value (List.Subset.refl _)).names_eq machine
  rcases run : value.eval call machine with ⟨fault | (given | result), after⟩
  · rw [Stmt.exec, Eval.bind_of_error run]
    simp
  · rw [run] at names
    rw [Stmt.exec, Eval.bind_of_ok run, ← names, ← after.scope.bind_succeeds_iff name given]
    cases bound : after.scope.bind name given with
    | ok scope => simp [Eval.bind_apply, Eval.bind, bound, Outcome.isReturning]
    | error fault => simp [Eval.bind_apply, Eval.bind, bound]
  · rw [Stmt.exec, Eval.bind_of_ok run]
    simp [Outcome.isReturning]

end Syntax

/-! ## Calls -/

namespace Function

/-- A call whose body keeps the number of active calls comes back to the
caller, also when its own bindings or its body fail. -/
theorem activate_returns
    (function : Function)
    (args : List Value)
    (self : Text)
    (body : Eval Outcome)
    (keepsDepth : ∀ machine, (body machine).2.depth = machine.depth)
    (machine : Machine) :
    (function.activate args self body machine).2.scope = machine.scope ∧
      (function.activate args self body machine).2.depth = machine.depth := by
  unfold activate
  cases function.scope args self with
  | error fault => exact ⟨rfl, rfl⟩
  | ok scope =>
      have depth := keepsDepth
        ⟨scope, machine.depth + 1,
          .calling self args.length (machine.depth + 1) :: machine.trace⟩
      dsimp only
      split
      · rename_i outcome after equal
        rw [equal] at depth
        exact ⟨rfl, Nat.sub_eq_of_eq_add depth⟩
      · rename_i fault after equal
        rw [equal] at depth
        exact ⟨rfl, Nat.sub_eq_of_eq_add depth⟩

/-- Calls come back to the caller, however much room there is for further
calls. -/
theorem call_returns (refusal : Fault) (room : Nat) :
    Caller.Returns (call refusal room) := by
  induction room with
  | zero =>
      intro function args self machine
      unfold call
      split <;> exact ⟨rfl, rfl⟩
  | succ room inductionHypothesis =>
      intro function args self machine
      unfold call
      split
      · apply activate_returns
        intro inner
        obtain ⟨_, grows⟩ := Block.grows_exec inductionHypothesis .quiet function.body
          (List.Subset.refl _) inner
        exact grows.depth
      · exact ⟨rfl, rfl⟩

end Function

/-- Calls under a limit come back to the caller. -/
theorem DepthLimit.caller_returns (limit : DepthLimit) (depth : Nat) :
    (limit.caller depth).Returns :=
  Function.call_returns limit.refusal (limit.room depth)

end Siren
