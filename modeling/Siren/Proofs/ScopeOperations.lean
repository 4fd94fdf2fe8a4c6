import Mathlib.Data.List.Nodup
import Mathlib.Logic.Function.Basic
import Siren.Proofs.Coincidence

/-!
# Scopes under any operations

Blocks are opened and closed, and names declared, assigned and looked up, in any order.
Every frame then still declares each of its names once.  So the bindings that are listed,
from the outermost frame inwards with a test for what hides them, are those that are found
by looking from the innermost frame outwards.

A frame holds the order of its declarations and the values of its names in one list.  It
may as well keep them apart, a list of names beside a table of values that change on their
own: the two never come to disagree.
-/

namespace Siren

/-! ## Operations -/

namespace Scope

/-- What can be asked of a scope. -/
inductive Operation where
  | push
  | pop
  | bind (name : Text) (value : Value)
  | assign (name : Text) (value : Value)
  | lookup (name : Text)

/-- The scope after an operation.  One that fails leaves it as it is. -/
def after (scope : Scope) : Operation → Scope
  | .push => scope.push
  | .pop => scope.pop
  | .bind name value => (scope.bind name value).toOption.getD scope
  | .assign name value => (scope.assign name value).toOption.getD scope
  | .lookup _ => scope

/-- The scope after operations, one after the other. -/
def run (scope : Scope) (operations : List Operation) : Scope :=
  operations.foldl after scope

@[simp] theorem run_nil (scope : Scope) : scope.run [] = scope := rfl

@[simp] theorem run_cons (scope : Scope) (operation : Operation) (later : List Operation) :
    scope.run (operation :: later) = (scope.after operation).run later := rfl

theorem run_append (scope : Scope) (first later : List Operation) :
    scope.run (first ++ later) = (scope.run first).run later :=
  List.foldl_append

@[simp] theorem frames_pop (scope : Scope) : scope.pop.frames = scope.frames.tail := rfl

/-- A declaration adds to the innermost frame, unless it is there already. -/
theorem after_bind_cons (frame : Frame) (outer : List Frame) (name : Text) (value : Value) :
    after ⟨frame :: outer⟩ (.bind name value) =
      if Frame.declares frame name then ⟨frame :: outer⟩
      else ⟨(frame ++ [(name, value)]) :: outer⟩ := by
  simp only [after, bind]
  split <;> rfl

/-- An assignment changes what `assignIn` says, if anything. -/
theorem after_assign (scope : Scope) (name : Text) (value : Value) :
    scope.after (.assign name value) = ⟨(assignIn name value scope.frames).getD scope.frames⟩ := by
  simp only [after, assign]
  cases assignIn name value scope.frames <;> rfl

end Scope

/-! ## Frames that declare each name once -/

namespace Frame

/-- A frame declares each of its names once. -/
def Distinct (frame : Frame) : Prop :=
  (Frame.names frame).Nodup

theorem Distinct.nil : Distinct [] := List.nodup_nil

theorem Distinct.declare
    {frame : Frame}
    (distinct : Distinct frame)
    {name : Text}
    (new : ¬Frame.declares frame name = true)
    (value : Value) :
    Distinct (frame ++ [(name, value)]) := by
  have absent : name ∉ Frame.names frame := fun member => new ((declares_iff frame name).mpr member)
  have names : Frame.names (frame ++ [(name, value)]) = Frame.names frame ++ [name] := by
    simp [Frame.names]
  rw [Distinct, names, ← List.concat_eq_append]
  exact distinct.concat absent

/-- A name that is declared once has the value of its binding. -/
theorem Distinct.mem_iff
    {frame : Frame}
    (distinct : Distinct frame)
    (name : Text)
    (value : Value) :
    (name, value) ∈ frame ↔ Frame.get? frame name = some value := by
  unfold Frame.get?
  induction frame with
  | nil => simp
  | cons binding frame inductionHypothesis =>
      obtain ⟨absent, distinct⟩ := List.nodup_cons.mp distinct
      have later := inductionHypothesis distinct
      by_cases same : binding.1 = name
      · have gone : (name, value) ∉ frame := fun member =>
          absent (List.mem_map.mpr ⟨_, member, same.symm⟩)
        rw [List.find?_cons_of_pos (by simpa using same), List.mem_cons, or_iff_left gone,
          Option.map_some, Option.some.injEq, Prod.ext_iff]
        exact ⟨fun equal => equal.2.symm, fun equal => ⟨same.symm, equal.symm⟩⟩
      · have other : (name, value) ≠ binding := fun equal => same (equal ▸ rfl)
        rw [List.find?_cons_of_neg (by simpa using same), List.mem_cons, or_iff_right other, later]

end Frame

namespace Scope

/-- Every frame declares each of its names once. -/
def DeclaresOnce (scope : Scope) : Prop :=
  ∀ frame ∈ scope.frames, Frame.Distinct frame

theorem declaresOnce_fresh : fresh.DeclaresOnce :=
  List.forall_mem_singleton.mpr .nil

theorem distinct_assignIn
    {name : Text}
    {value : Value}
    {frames frames' : List Frame}
    (distinct : ∀ frame ∈ frames, Frame.Distinct frame)
    (assigned : assignIn name value frames = some frames') :
    ∀ frame ∈ frames', Frame.Distinct frame := by
  induction frames generalizing frames' with
  | nil => cases assigned
  | cons frame outer inductionHypothesis =>
      rw [List.forall_mem_cons] at distinct
      rw [assignIn] at assigned
      split at assigned
      · cases assigned
        refine List.forall_mem_cons.mpr ⟨?_, distinct.2⟩
        rw [Frame.Distinct, Frame.names_set]
        exact distinct.1
      · obtain ⟨outer', assigned', rfl⟩ := Option.map_eq_some_iff.mp assigned
        exact List.forall_mem_cons.mpr ⟨distinct.1, inductionHypothesis distinct.2 assigned'⟩

theorem DeclaresOnce.after
    {scope : Scope}
    (once : scope.DeclaresOnce)
    (operation : Operation) :
    (scope.after operation).DeclaresOnce := by
  cases operation with
  | push => exact List.forall_mem_cons.mpr ⟨.nil, once⟩
  | pop => exact fun frame member => once frame (List.mem_of_mem_tail member)
  | bind name value =>
      obtain ⟨frames⟩ := scope
      cases frames with
      | nil => exact once
      | cons frame outer =>
          rw [after_bind_cons]
          split
          · exact once
          · rename_i new
            rw [DeclaresOnce, List.forall_mem_cons] at once
            exact List.forall_mem_cons.mpr ⟨once.1.declare new value, once.2⟩
  | assign name value =>
      rw [after_assign]
      cases assigned : assignIn name value scope.frames with
      | none => exact once
      | some frames => exact distinct_assignIn once assigned
  | lookup name => exact once

theorem DeclaresOnce.run
    {scope : Scope}
    (once : scope.DeclaresOnce)
    (operations : List Operation) :
    (scope.run operations).DeclaresOnce := by
  induction operations generalizing scope with
  | nil => exact once
  | cons operation later inductionHypothesis => exact inductionHypothesis (once.after operation)

/-! ## Visible bindings -/

/-- The bindings that `inner` does not hide are those that are found behind it. -/
theorem mem_visibleIn_iff
    {frames : List Frame}
    (once : DeclaresOnce ⟨frames⟩)
    (inner : List Frame)
    (name : Text)
    (value : Value) :
    (name, value) ∈ visibleIn inner frames ↔
      (∀ frame ∈ inner, name ∉ Frame.names frame) ∧ lookup ⟨frames⟩ name = .ok value := by
  induction frames generalizing inner with
  | nil => simp [visibleIn, lookup]
  | cons frame outer inductionHypothesis =>
      rw [DeclaresOnce, List.forall_mem_cons] at once
      have hidden : (!inner.any (Frame.declares · name)) = true ↔
          ∀ frame ∈ inner, name ∉ Frame.names frame := by
        simp [Frame.declares_iff]
      rw [visibleIn, List.mem_append, inductionHypothesis once.2, List.mem_filter, hidden,
        once.1.mem_iff, List.forall_mem_cons, lookup_cons]
      by_cases member : name ∈ Frame.names frame
      · obtain ⟨given, found⟩ := Frame.exists_get?_of_mem member
        simp [member, found, and_comm]
      · simp [member, Frame.get?_eq_none_of_not_mem member]

theorem names_filter (frame : Frame) (select : Text → Bool) :
    (frame.filter fun binding => select binding.1).map (·.1) =
      (Frame.names frame).filter select := by
  rw [Frame.names, List.filter_map]
  rfl

/-- Each name is listed once. -/
theorem nodup_visibleIn
    {frames : List Frame}
    (once : DeclaresOnce ⟨frames⟩)
    (inner : List Frame) :
    ((visibleIn inner frames).map (·.1)).Nodup := by
  induction frames generalizing inner with
  | nil => exact List.nodup_nil
  | cons frame outer inductionHypothesis =>
      rw [DeclaresOnce, List.forall_mem_cons] at once
      rw [visibleIn, List.map_append,
        names_filter frame fun name => !inner.any (Frame.declares · name)]
      refine List.Nodup.append (inductionHypothesis once.2 _) (once.1.filter _) ?_
      -- What the outer frames list is not declared in this one, which hides it.
      intro name listed declared
      obtain ⟨⟨_, value⟩, visible, rfl⟩ := List.mem_map.mp listed
      exact ((mem_visibleIn_iff once.2 _ _ value).mp visible).1 frame List.mem_cons_self
        (List.mem_of_mem_filter declared)

/-- The innermost frame that declares a name, by the number of frames inside it. -/
def home? (scope : Scope) (name : Text) : Option Nat :=
  scope.frames.findIdx? (Frame.declares · name)

/-- The names of the frames whose innermost declaration is there, the outermost frame first
and in the order of their declaration within a frame. -/
def homeNames (scope : Scope) : List Text :=
  scope.frames.zipIdx.reverse.flatMap fun (frame, place) =>
    (Frame.names frame).filter fun name => scope.home? name = some place

/-- A name is at home in a frame that declares it unless an inner frame does too. -/
theorem findIdx?_append_cons_eq_some
    {frame : Frame}
    {name : Text}
    (declared : name ∈ Frame.names frame)
    (inner outer : List Frame) :
    (inner.reverse ++ frame :: outer).findIdx? (Frame.declares · name) = some inner.length ↔
      (!inner.any (Frame.declares · name)) = true := by
  have declares := (Frame.declares_iff frame name).mpr declared
  rw [List.findIdx?_append, List.findIdx?_cons, if_pos declares, Bool.not_eq_true']
  cases found : inner.reverse.findIdx? (Frame.declares · name) with
  | none =>
      have absent : inner.any (Frame.declares · name) = false := by
        rw [← List.any_reverse, List.any_eq_false]
        simpa using List.findIdx?_eq_none_iff.mp found
      simp [absent]
  | some place =>
      obtain ⟨short, declares', -⟩ := List.findIdx?_eq_some_iff_getElem.mp found
      have present : inner.any (Frame.declares · name) = true := by
        rw [← List.any_reverse, List.any_eq_true]
        exact ⟨_, List.getElem_mem short, declares'⟩
      rw [List.length_reverse] at short
      simp [present, Nat.ne_of_lt short]

/-- The frames behind `inner` list the names that are at home in them. -/
theorem map_fst_visibleIn (inner frames : List Frame) :
    (visibleIn inner frames).map (·.1) =
      (frames.zipIdx inner.length).reverse.flatMap fun (frame, place) =>
        (Frame.names frame).filter fun name =>
          home? ⟨inner.reverse ++ frames⟩ name = some place := by
  induction frames generalizing inner with
  | nil => rfl
  | cons frame outer inductionHypothesis =>
      have outside := inductionHypothesis (frame :: inner)
      rw [List.reverse_cons, List.append_assoc, List.singleton_append, List.length_cons] at outside
      rw [visibleIn, List.map_append, outside, List.zipIdx_cons, List.reverse_cons,
        List.flatMap_append, List.flatMap_singleton,
        names_filter frame fun name => !inner.any (Frame.declares · name)]
      congr 1
      apply List.filter_congr
      intro name declared
      rw [Bool.eq_iff_iff, ← findIdx?_append_cons_eq_some declared inner outer, decide_eq_true_iff]
      rfl

end Scope

/-! ## Frames in two parts -/

/-- A frame in two parts: the names in the order of their declaration, and the values by
name. -/
structure Ledger where
  order : List Text
  values : Text → Option Value

namespace Ledger

/-- Whether a name has a value. -/
def declares (ledger : Ledger) (name : Text) : Bool :=
  (ledger.values name).isSome

/-- The ledger with a new name at the end of its order. -/
def declare (ledger : Ledger) (name : Text) (value : Value) : Ledger :=
  ⟨ledger.order ++ [name], Function.update ledger.values name (some value)⟩

/-- The ledger with a new value, and the same order. -/
def set (ledger : Ledger) (name : Text) (value : Value) : Ledger :=
  ⟨ledger.order, Function.update ledger.values name (some value)⟩

/-- The order has no duplicates and holds exactly the names that have a value. -/
structure Sound (ledger : Ledger) : Prop where
  distinct : ledger.order.Nodup
  valued : ∀ name, name ∈ ledger.order ↔ ledger.declares name = true

end Ledger

/-- A stack of frames in two parts, the innermost first. -/
abbrev Ledgers := List Ledger

namespace Ledgers

/-- Declares a name in the innermost frame. -/
def bind (name : Text) (value : Value) : Ledgers → Except Fault Ledgers
  | [] => .error .noBlock
  | ledger :: outer =>
    if ledger.declares name then
      .error (.runtime (.duplicateBinding name))
    else
      .ok (ledger.declare name value :: outer)

/-- Gives a name a new value in the innermost frame that declares it. -/
def assign (name : Text) (value : Value) : Ledgers → Except RuntimeError Ledgers
  | [] => .error (.unknownVariable name)
  | ledger :: outer =>
    if ledger.declares name then
      .ok (ledger.set name value :: outer)
    else
      (assign name value outer).map (ledger :: ·)

/-- The value of a name in the innermost frame that declares it. -/
def lookup (name : Text) : Ledgers → Except RuntimeError Value
  | [] => .error (.unknownVariable name)
  | ledger :: outer =>
    match ledger.values name with
    | some value => .ok value
    | none => lookup name outer

/-- The bindings that the frames `inner` do not hide, the outermost frame first. -/
def visibleIn (inner : Ledgers) : Ledgers → List Binding
  | [] => []
  | ledger :: outer =>
    visibleIn (ledger :: inner) outer ++
      (ledger.order.filter fun name => !inner.any (Ledger.declares · name)).map fun name =>
        (name, (ledger.values name).getD .unit)

/-- The visible bindings, the outermost frame first and in the order of their declaration
within a frame. -/
def bindings (ledgers : Ledgers) : List Binding :=
  visibleIn [] ledgers

/-- The frames after an operation. -/
def after (ledgers : Ledgers) : Scope.Operation → Ledgers
  | .push => ⟨[], fun _ => none⟩ :: ledgers
  | .pop => ledgers.tail
  | .bind name value => (ledgers.bind name value).toOption.getD ledgers
  | .assign name value => (ledgers.assign name value).toOption.getD ledgers
  | .lookup _ => ledgers

/-- The frames after operations on a single empty one. -/
def run (operations : List Scope.Operation) : Ledgers :=
  operations.foldl after [⟨[], fun _ => none⟩]

end Ledgers

namespace Frame

/-- The two parts of a frame. -/
def ledger (frame : Frame) : Ledger :=
  ⟨Frame.names frame, Frame.get? frame⟩

theorem declares_ledger (frame : Frame) (name : Text) :
    (ledger frame).declares name = Frame.declares frame name := by
  change (Frame.get? frame name).isSome = Frame.declares frame name
  by_cases member : name ∈ Frame.names frame
  · obtain ⟨value, found⟩ := exists_get?_of_mem member
    rw [found, (declares_iff frame name).mpr member]
    rfl
  · rw [get?_eq_none_of_not_mem member, Eq.comm, Option.isSome_none, Bool.eq_false_iff]
    exact mt (declares_iff frame name).mp member

theorem ledger_declare
    {frame : Frame}
    {name : Text}
    (new : ¬Frame.declares frame name = true)
    (value : Value) :
    ledger (frame ++ [(name, value)]) = (ledger frame).declare name value := by
  have absent : name ∉ Frame.names frame := fun member => new ((declares_iff frame name).mpr member)
  have values : Frame.get? (frame ++ [(name, value)]) =
      Function.update (Frame.get? frame) name (some value) := by
    funext other
    by_cases member : other ∈ Frame.names frame
    · have different : other ≠ name := fun same => absent (same ▸ member)
      rw [get?_append_of_mem _ member, Function.update_of_ne different]
    · have missing := get?_eq_none_of_not_mem member
      rw [Frame.get?, Option.map_eq_none_iff] at missing
      rw [Frame.get?, List.find?_append, missing, Option.none_or]
      by_cases same : other = name
      · subst same
        simp
      · rw [Function.update_of_ne same, get?_eq_none_of_not_mem member,
          List.find?_cons_of_neg (by simpa using Ne.symm same)]
        rfl
  rw [ledger, values]
  simp [Ledger.declare, ledger, Frame.names]

theorem ledger_set
    {frame : Frame}
    {name : Text}
    (declared : Frame.declares frame name = true)
    (value : Value) :
    ledger (Frame.set frame name value) = (ledger frame).set name value := by
  have values : Frame.get? (Frame.set frame name value) =
      Function.update (Frame.get? frame) name (some value) := by
    funext other
    by_cases same : other = name
    · subst same
      rw [get?_set_self value ((declares_iff frame other).mp declared), Function.update_self]
    · rw [get?_set_of_ne frame value same, Function.update_of_ne same]
  rw [ledger, names_set, values]
  rfl

/-- The two parts agree when each name is declared once. -/
theorem Distinct.sound {frame : Frame} (distinct : Distinct frame) : (ledger frame).Sound where
  distinct := distinct
  valued := fun name => by
    rw [declares_ledger, declares_iff]
    rfl

end Frame

namespace Scope

/-- The frames of a scope in two parts. -/
def ledgers (scope : Scope) : Ledgers :=
  scope.frames.map Frame.ledger

theorem ledgers_bind (scope : Scope) (name : Text) (value : Value) :
    scope.ledgers.bind name value = (scope.bind name value).map ledgers := by
  obtain ⟨frames⟩ := scope
  cases frames with
  | nil => rfl
  | cons frame outer =>
      simp only [ledgers, List.map_cons, Ledgers.bind, Scope.bind, Frame.declares_ledger]
      split
      · rfl
      · rename_i new
        rw [← Frame.ledger_declare new]
        rfl

theorem ledgers_assign (scope : Scope) (name : Text) (value : Value) :
    scope.ledgers.assign name value = (scope.assign name value).map ledgers := by
  obtain ⟨frames⟩ := scope
  unfold Scope.assign
  induction frames with
  | nil => rfl
  | cons frame outer inductionHypothesis =>
      simp only [ledgers, List.map_cons, Ledgers.assign, assignIn, Frame.declares_ledger]
        at inductionHypothesis ⊢
      split
      · rename_i declared
        rw [← Frame.ledger_set declared]
        rfl
      · rw [inductionHypothesis]
        cases assignIn name value outer <;> rfl

theorem ledgers_lookup (scope : Scope) (name : Text) :
    scope.ledgers.lookup name = scope.lookup name := by
  obtain ⟨frames⟩ := scope
  induction frames with
  | nil => rfl
  | cons frame outer inductionHypothesis =>
      rw [lookup_cons, ← inductionHypothesis]
      rfl

/-- An operation does the same to the two parts as to the frames. -/
theorem ledgers_after (scope : Scope) (operation : Operation) :
    scope.ledgers.after operation = (scope.after operation).ledgers := by
  cases operation with
  | push | lookup name => rfl
  | pop => exact List.map_tail.symm
  | bind name value =>
      rw [Ledgers.after, ledgers_bind, after]
      cases scope.bind name value <;> rfl
  | assign name value =>
      rw [Ledgers.after, ledgers_assign, after]
      cases scope.assign name value <;> rfl

theorem ledgers_run (operations : List Operation) :
    Ledgers.run operations = (fresh.run operations).ledgers := by
  have further (scope : Scope) :
      operations.foldl Ledgers.after scope.ledgers = (scope.run operations).ledgers := by
    induction operations generalizing scope with
    | nil => rfl
    | cons operation later inductionHypothesis =>
        rw [List.foldl_cons, ledgers_after, inductionHypothesis, run_cons]
  exact further fresh

/-- The two parts list the bindings of the frames. -/
theorem visibleIn_ledgers
    {frames : List Frame}
    (once : DeclaresOnce ⟨frames⟩)
    (inner : List Frame) :
    Ledgers.visibleIn (inner.map Frame.ledger) (frames.map Frame.ledger) =
      visibleIn inner frames := by
  induction frames generalizing inner with
  | nil => rfl
  | cons frame outer inductionHypothesis =>
      rw [DeclaresOnce, List.forall_mem_cons] at once
      have hidden (name : Text) : (inner.map Frame.ledger).any (Ledger.declares · name) =
          inner.any (Frame.declares · name) := by
        simp [List.any_map, Function.comp_def, Frame.declares_ledger]
      have listed : ((Frame.names frame).filter fun name =>
          !inner.any (Frame.declares · name)).map
            (fun name => (name, (Frame.get? frame name).getD .unit)) =
          frame.filter fun binding => !inner.any (Frame.declares · binding.1) := by
        rw [← names_filter frame, List.map_map]
        conv_rhs => rw [← List.map_id (List.filter _ frame)]
        apply List.map_congr_left
        rintro ⟨name, value⟩ member
        have found := (once.1.mem_iff name value).mp (List.mem_of_mem_filter member)
        simp [found]
      rw [List.map_cons, Ledgers.visibleIn, visibleIn, ← List.map_cons,
        inductionHypothesis once.2]
      simp only [hidden]
      rw [← listed]
      rfl

/-! ## Any operations -/

/-- Take any operations on a new scope, whether they succeed or fail.  Each frame declares
its names once, and they are the names that have a value.  So it is when frames keep order
and values apart: both representations go through the same scopes, find the same values and
list the same bindings.  A declaration or an assignment that fails changes nothing.  The
bindings that are listed are those that a lookup finds, each name once, by the frame of its
innermost declaration. -/
theorem bindings_are_those_found (operations : List Operation) :
    let scope := fresh.run operations
    let ledgers := Ledgers.run operations
    (∀ frame ∈ scope.frames, (Frame.names frame).Nodup ∧
      ∀ name, name ∈ Frame.names frame ↔ ∃ value, Frame.get? frame name = some value) ∧
    (∀ ledger ∈ ledgers, ledger.Sound) ∧
    ledgers = scope.ledgers ∧
    (∀ name, ledgers.lookup name = scope.lookup name) ∧
    ledgers.bindings = scope.bindings ∧
    (∀ name value fault, scope.bind name value = .error fault →
      scope.after (.bind name value) = scope) ∧
    (∀ name value error, scope.assign name value = .error error →
      scope.after (.assign name value) = scope) ∧
    (∀ name value, (name, value) ∈ scope.bindings ↔ scope.lookup name = .ok value) ∧
    (scope.bindings.map (·.1)).Nodup ∧
    scope.bindings.map (·.1) = scope.homeNames := by
  intro scope ledgers
  have once : scope.DeclaresOnce := declaresOnce_fresh.run operations
  have parts : ledgers = scope.ledgers := ledgers_run operations
  have sound : ∀ ledger ∈ ledgers, ledger.Sound := by
    rw [parts]
    exact List.forall_mem_map.mpr fun frame member => (once frame member).sound
  refine ⟨fun frame member => ⟨once frame member, fun name => ⟨Frame.exists_get?_of_mem, ?_⟩⟩,
    sound, parts, fun name => ?_, ?_, ?_, ?_, fun name value => ?_, nodup_visibleIn once [], ?_⟩
  · rintro ⟨value, found⟩
    by_contra absent
    cases found.symm.trans (Frame.get?_eq_none_of_not_mem absent)
  · rw [parts, ledgers_lookup]
  · rw [parts]
    exact visibleIn_ledgers once []
  · intro name value fault failed
    rw [after, failed]
    rfl
  · intro name value error failed
    rw [after, failed]
    rfl
  · have visible := mem_visibleIn_iff once [] name value
    rwa [and_iff_right (List.forall_mem_nil _)] at visible
  · exact map_fst_visibleIn [] scope.frames

/-- A name declared again in an inner block is listed there, and one declared again in the
same block is not. -/
theorem bindings_are_those_found_again :
    let scope := fresh.run [.bind "a" (.int 1), .bind "b" (.int 2), .push, .bind "a" (.int 3)]
    scope.bind "a" (.int 4) = .error (.runtime (.duplicateBinding "a")) ∧
      scope.after (.bind "a" (.int 4)) = scope ∧
      scope.assign "c" (.int 5) = .error (.unknownVariable "c") ∧
      scope.after (.assign "c" (.int 5)) = scope ∧
      scope.bindings.map (·.1) = ["b", "a"] ∧ scope.lookup "a" = .ok (.int 3) := by
  have found := bindings_are_those_found
    [.bind "a" (.int 1), .bind "b" (.int 2), .push, .bind "a" (.int 3)]
  obtain ⟨-, -, -, -, -, declared, assigned, listed, -, names⟩ := found
  refine ⟨rfl, declared _ _ _ rfl, rfl, assigned _ _ _ rfl, names.trans rfl, ?_⟩
  exact (listed "a" (.int 3)).mp (.tail _ (.head _))

end Scope

end Siren
