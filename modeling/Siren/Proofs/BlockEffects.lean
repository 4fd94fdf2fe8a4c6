import Siren.Proofs.ScopeOperations

/-!
# What a block leaves behind

A block is opened and closed again, and between the two blocks are opened and closed inside
it, and names declared, assigned and looked up.  Afterwards every frame around it declares
what it did, and the value of a name in it is the last one that was assigned while no frame
inside it declared the name.

A frame is named by its level, the number of frames around it: levels stay the same when
blocks are opened and closed inside.
-/

namespace Siren
namespace Scope

/-! ## Frames by their level -/

/-- The frame with a number of frames around it. -/
def frameAt (scope : Scope) (level : Nat) : Option Frame :=
  scope.frames.reverse[level]?

/-- The frames inside the one at a level. -/
def above (scope : Scope) (level : Nat) : List Frame :=
  scope.frames.reverse.drop (level + 1)

/-- The value of a name in the frame at a level. -/
def valueAt (scope : Scope) (level : Nat) (name : Text) : Option Value :=
  (scope.frameAt level).bind (Frame.get? · name)

/-- The frame at a level declares a name. -/
def DeclaresAt (scope : Scope) (level : Nat) (name : Text) : Prop :=
  ∃ frame, scope.frameAt level = some frame ∧ name ∈ Frame.names frame

/-- No frame inside the one at a level declares a name. -/
def Exposes (scope : Scope) (level : Nat) (name : Text) : Prop :=
  ∀ frame ∈ scope.above level, name ∉ Frame.names frame

instance (scope : Scope) (level : Nat) (name : Text) : Decidable (scope.Exposes level name) :=
  inferInstanceAs (Decidable (∀ frame ∈ scope.above level, name ∉ Frame.names frame))

/-- The frame at a level stands between those inside and those around it. -/
theorem exists_frames_eq
    {scope : Scope}
    {level : Nat}
    (inside : level < scope.depth) :
    ∃ inner frame outer, scope = ⟨inner ++ frame :: outer⟩ ∧ outer.length = level := by
  obtain ⟨frames⟩ := scope
  have bound : level < frames.reverse.length := by simpa [depth] using inside
  have cut := List.take_append_drop level frames.reverse
  rw [List.drop_eq_getElem_cons bound] at cut
  refine ⟨(frames.reverse.drop (level + 1)).reverse, frames.reverse[level],
    (frames.reverse.take level).reverse, ?_, ?_⟩
  · have uncut := congrArg List.reverse cut
    simp only [List.reverse_append, List.reverse_cons, List.reverse_reverse, List.append_assoc,
      List.singleton_append] at uncut
    rw [uncut]
  · simp only [List.length_reverse, List.length_take] at bound ⊢
    omega

section Split

variable (inner : List Frame) (frame : Frame) (outer : List Frame)

@[simp] theorem depth_split :
    depth ⟨inner ++ frame :: outer⟩ = inner.length + 1 + outer.length := by
  simp only [depth, List.length_append, List.length_cons]
  omega

@[simp] theorem frameAt_split :
    frameAt ⟨inner ++ frame :: outer⟩ outer.length = some frame := by
  simp [frameAt]

@[simp] theorem above_split : above ⟨inner ++ frame :: outer⟩ outer.length = inner.reverse := by
  have whole : (inner ++ frame :: outer).reverse = outer.reverse ++ frame :: inner.reverse := by
    simp
  rw [above, whole, ← List.length_reverse, List.drop_length_add_append]
  rfl

end Split

/-- Only frames outside of the declarations of a name are changed by an assignment to it. -/
theorem assignIn_eq_none_iff_forall (name : Text) (value : Value) (frames : List Frame) :
    assignIn name value frames = none ↔ ∀ frame ∈ frames, name ∉ Frame.names frame := by
  induction frames with
  | nil => simp [assignIn]
  | cons frame outer inductionHypothesis =>
      rw [assignIn, List.forall_mem_cons, ← Frame.declares_iff]
      split
      · rename_i declares
        simp [declares]
      · rename_i undeclared
        simp [undeclared, inductionHypothesis]

/-! ## One operation -/

/-- The value that an operation gives a name in the frame at a level or outside of it: it is
an assignment that succeeds while no frame inside declares the name. -/
def given? (scope : Scope) (level : Nat) (name : Text) : Operation → Option Value
  | .assign target value =>
    if target = name ∧ scope.Exposes level name ∧ (scope.assign name value).isOk then some value
    else none
  | _ => none

/-- The values that operations give a name in the frame at a level or outside of it. -/
def given (scope : Scope) (level : Nat) (name : Text) : List Operation → List Value
  | [] => []
  | operation :: later =>
    (scope.given? level name operation).toList ++ (scope.after operation).given level name later

/-- The frame at a level after some operations: it declares what it did, and its names have
the values that they were given last. -/
structure Kept (level : Nat) (scope : Scope) (operations : List Operation) : Prop where
  names : ((scope.run operations).frameAt level).map Frame.names =
    (scope.frameAt level).map Frame.names
  value : ∀ name, scope.DeclaresAt level name →
    (scope.run operations).valueAt level name =
      ((scope.given level name operations).getLast?).or (scope.valueAt level name)

namespace Kept

variable {level : Nat} {scope : Scope} {first later : List Operation}

theorem nil (level : Nat) (scope : Scope) : Kept level scope [] :=
  ⟨rfl, fun _ _ => rfl⟩

/-- An operation that leaves the frame as it is and gives its names nothing. -/
theorem of_same
    {operation : Operation}
    (same : (scope.after operation).frameAt level = scope.frameAt level)
    (nothing : ∀ name, scope.DeclaresAt level name → scope.given? level name operation = none) :
    Kept level scope [operation] where
  names := congrArg (Option.map Frame.names) same
  value := by
    intro name declared
    simp only [given, nothing name declared, run_cons, run_nil, valueAt, same]
    rfl

/-- Opening a block keeps the frames around it. -/
theorem push (inside : level < scope.depth) : Kept level scope [.push] := by
  obtain ⟨inner, frame, outer, rfl, rfl⟩ := exists_frames_eq inside
  refine of_same ?_ fun _ _ => rfl
  exact (frameAt_split ([] :: inner) frame outer).trans (frameAt_split inner frame outer).symm

/-- An assignment reaches the frame when no frame inside declares the name. -/
theorem assign
    (inside : level < scope.depth)
    (target : Text)
    (value : Value) :
    Kept level scope [.assign target value] := by
  obtain ⟨inner, frame, outer, rfl, rfl⟩ := exists_frames_eq inside
  have frames := after_assign ⟨inner ++ frame :: outer⟩ target value
  have assigned := assignIn_append target value inner (frame :: outer)
  cases hides : assignIn target value inner with
  | some inner' =>
      have hidden : ¬Exposes ⟨inner ++ frame :: outer⟩ outer.length target := by
        intro exposed
        simp only [Exposes, above_split, List.mem_reverse] at exposed
        rw [(assignIn_eq_none_iff_forall target value inner).mpr exposed] at hides
        cases hides
      simp only [hides] at assigned
      simp only [assigned, Option.getD_some] at frames
      refine of_same ?_ fun name _ => ?_
      · rw [frames, frameAt_split, frameAt_split]
      · rw [given?, if_neg]
        rintro ⟨rfl, exposed, -⟩
        exact hidden exposed
  | none =>
      have exposed : Exposes ⟨inner ++ frame :: outer⟩ outer.length target := by
        simp only [Exposes, above_split, List.mem_reverse]
        exact (assignIn_eq_none_iff_forall target value inner).mp hides
      simp only [hides, assignIn] at assigned
      by_cases declares : Frame.declares frame target = true
      · rw [if_pos declares, Option.map_some] at assigned
        simp only [assigned, Option.getD_some] at frames
        have member := (Frame.declares_iff frame target).mp declares
        refine ⟨by simp [frames], fun name _ => ?_⟩
        simp only [run_cons, run_nil, frames, valueAt, frameAt_split, Option.bind_some, given,
          given?]
        by_cases same : target = name
        · subst same
          have succeeds : (Scope.assign ⟨inner ++ frame :: outer⟩ target value).isOk := by
            rw [Scope.assign, assigned]
            rfl
          rw [if_pos ⟨rfl, exposed, succeeds⟩, Frame.get?_set_self value member]
          rfl
        · rw [if_neg fun given => same given.1, Frame.get?_set_of_ne frame value (Ne.symm same)]
          rfl
      · -- The assignment goes on to the frames around, if any of them declares the name.
        rw [if_neg declares] at assigned
        refine of_same ?_ fun name declared => ?_
        · rw [frames, frameAt_split]
          cases reached : assignIn target value outer with
          | none => simp [assigned, reached]
          | some outer' =>
              rw [assigned, reached, ← length_assignIn reached]
              exact frameAt_split inner frame outer'
        · rw [given?, if_neg]
          rintro ⟨rfl, -⟩
          obtain ⟨frame', found, member⟩ := declared
          rw [frameAt_split] at found
          cases found
          exact declares ((Frame.declares_iff frame target).mpr member)

/-- An operation inside a block keeps the frames around the block. -/
theorem step
    (inside : level + 1 < scope.depth)
    (operation : Operation) :
    Kept level scope [operation] := by
  obtain ⟨inner, frame, outer, rfl, rfl⟩ := exists_frames_eq (Nat.lt_of_succ_lt inside)
  rw [depth_split] at inside
  obtain ⟨first, inner, rfl⟩ : ∃ first inner', inner = first :: inner' := by
    apply List.exists_cons_of_ne_nil
    rintro rfl
    simp only [List.length_nil] at inside
    omega
  have same := frameAt_split (first :: inner) frame outer
  cases operation with
  | push => exact push (by rw [depth_split]; omega)
  | pop => exact of_same ((frameAt_split inner frame outer).trans same.symm) fun _ _ => rfl
  | bind name value =>
      refine of_same ?_ fun _ _ => rfl
      rw [List.cons_append, after_bind_cons]
      split
      · rfl
      · exact (frameAt_split (_ :: inner) frame outer).trans same.symm
  | assign name value => exact assign (by rw [depth_split]; omega) name value
  | lookup name => exact of_same rfl fun _ _ => rfl

theorem given_append (scope : Scope) (level : Nat) (name : Text) (first later : List Operation) :
    scope.given level name (first ++ later) =
      scope.given level name first ++ (scope.run first).given level name later := by
  induction first generalizing scope with
  | nil => rfl
  | cons operation first inductionHypothesis =>
      rw [List.cons_append, given, given, inductionHypothesis, List.append_assoc, run_cons]

theorem declaresAt_iff (kept : Kept level scope first) (name : Text) :
    (scope.run first).DeclaresAt level name ↔ scope.DeclaresAt level name := by
  have both (scope : Scope) : scope.DeclaresAt level name ↔
      ∃ names, (scope.frameAt level).map Frame.names = some names ∧ name ∈ names := by
    simp [DeclaresAt]
  rw [both, both, kept.names]

/-- Names that are given nothing keep their values, or have none. -/
theorem valueAt_eq
    (kept : Kept level scope first)
    {name : Text}
    (nothing : scope.given level name first = []) :
    (scope.run first).valueAt level name = scope.valueAt level name := by
  by_cases declared : scope.DeclaresAt level name
  · rw [kept.value name declared, nothing]
    rfl
  · have missing (scope : Scope) (undeclared : ¬scope.DeclaresAt level name) :
        scope.valueAt level name = none := by
      rw [valueAt, Option.bind_eq_none_iff]
      intro frame found
      exact Frame.get?_eq_none_of_not_mem fun member => undeclared ⟨frame, found, member⟩
    rw [missing scope declared, missing _ (mt (kept.declaresAt_iff name).mp declared)]

/-- What is kept by operations and by those after them is kept by all of them. -/
theorem append
    (earlier : Kept level scope first)
    (further : Kept level (scope.run first) later) :
    Kept level scope (first ++ later) where
  names := by rw [run_append, further.names, earlier.names]
  value := by
    intro name declared
    rw [run_append, further.value name ((earlier.declaresAt_iff name).mpr declared),
      earlier.value name declared, given_append, List.getLast?_append, Option.or_assoc]

end Kept

/-! ## Blocks -/

/-- The number of open blocks after an operation, which may close no block but these. -/
def openAfter? (opened : Nat) : Operation → Option Nat
  | .push => some (opened + 1)
  | .pop => if opened = 0 then none else some (opened - 1)
  | .bind .. | .assign .. | .lookup _ => some opened

/-- The number of open blocks after operations, none of which may close a block that was not
opened by them or is not among those `opened` before. -/
def openAfterAll? (opened : Nat) (operations : List Operation) : Option Nat :=
  operations.foldlM openAfter? opened

theorem depth_after_bind (scope : Scope) (name : Text) (value : Value) :
    (scope.after (.bind name value)).depth = scope.depth := by
  obtain ⟨frames⟩ := scope
  cases frames with
  | nil => rfl
  | cons frame outer =>
      rw [after_bind_cons]
      split <;> rfl

theorem depth_after_assign (scope : Scope) (name : Text) (value : Value) :
    (scope.after (.assign name value)).depth = scope.depth := by
  rw [after_assign]
  cases assigned : assignIn name value scope.frames with
  | none => rfl
  | some frames => exact length_assignIn assigned

/-- An operation changes the number of frames as it changes the number of open blocks. -/
theorem depth_after
    {scope : Scope}
    {base opened between : Nat}
    {operation : Operation}
    (deep : scope.depth = base + opened)
    (inside : openAfter? opened operation = some between) :
    (scope.after operation).depth = base + between := by
  cases operation with
  | push =>
      cases inside
      exact congrArg (· + 1) deep
  | pop =>
      rw [openAfter?] at inside
      split at inside
      · cases inside
      · cases inside
        rw [depth] at deep
        rw [after, depth, frames_pop, List.length_tail, deep]
        omega
  | bind name value =>
      cases inside
      exact (depth_after_bind scope name value).trans deep
  | assign name value =>
      cases inside
      exact (depth_after_assign scope name value).trans deep
  | lookup name =>
      cases inside
      exact deep

/-- Operations inside a block keep the frames around it, and the block stays open. -/
theorem kept_run
    {scope : Scope}
    {base opened closed : Nat}
    {operations : List Operation}
    (deep : scope.depth = base + 1 + opened)
    (inside : openAfterAll? opened operations = some closed) :
    (scope.run operations).depth = base + 1 + closed ∧
      ∀ level < base, Kept level scope operations := by
  induction operations generalizing scope opened with
  | nil =>
      cases inside
      exact ⟨deep, fun level _ => .nil level scope⟩
  | cons operation later inductionHypothesis =>
      rw [openAfterAll?, List.foldlM_cons, Option.bind_eq_bind, Option.bind_eq_some_iff] at inside
      obtain ⟨between, first, rest⟩ := inside
      obtain ⟨depth, kept⟩ := inductionHypothesis (depth_after deep first) rest
      refine ⟨depth, fun level outside => ?_⟩
      exact (Kept.step (by omega) operation).append (kept level outside)

/-! ## Hidden names -/

theorem lt_depth_of_declaresAt
    {scope : Scope}
    {level : Nat}
    {name : Text}
    (declared : scope.DeclaresAt level name) :
    level < scope.depth := by
  obtain ⟨frame, found, -⟩ := declared
  simpa [depth] using (List.getElem?_eq_some_iff.mp found).1

/-- A frame that declares a name hides it in the frames around. -/
theorem DeclaresAt.not_exposes
    {scope : Scope}
    {level outer : Nat}
    {name : Text}
    (declared : scope.DeclaresAt level name)
    (outside : outer < level) :
    ¬scope.Exposes outer name := by
  obtain ⟨frame, found, member⟩ := declared
  intro exposed
  refine exposed frame (List.mem_of_getElem? (i := level - (outer + 1)) ?_) member
  rw [above, List.getElem?_drop, Nat.add_sub_of_le outside]
  exact found

/-- A block that declares a name goes on to do so until it is closed. -/
theorem DeclaresAt.after
    {scope : Scope}
    {base opened between : Nat}
    {name : Text}
    {operation : Operation}
    (declared : scope.DeclaresAt base name)
    (deep : scope.depth = base + 1 + opened)
    (inside : openAfter? opened operation = some between) :
    (scope.after operation).DeclaresAt base name := by
  cases opened with
  | succ opened => exact ((Kept.step (by omega) operation).declaresAt_iff name).mpr declared
  | zero =>
      have here : base < scope.depth := lt_depth_of_declaresAt declared
      cases operation with
      | push => exact ((Kept.push here).declaresAt_iff name).mpr declared
      | pop => cases inside
      | assign target value =>
          exact ((Kept.assign here target value).declaresAt_iff name).mpr declared
      | lookup target => exact declared
      | bind target value =>
          obtain ⟨inner, frame, outer, rfl, rfl⟩ := exists_frames_eq here
          obtain rfl : inner = [] := by
            rw [depth_split] at deep
            exact List.length_eq_zero_iff.mp (by omega)
          obtain ⟨frame', found, member⟩ := declared
          rw [frameAt_split] at found
          cases found
          rw [List.nil_append, after_bind_cons]
          split
          · exact ⟨frame, frameAt_split [] frame outer, member⟩
          · refine ⟨_, frameAt_split [] _ outer, ?_⟩
            rw [Frame.names, List.map_append]
            exact List.mem_append_left _ member

/-- Nothing inside a block that declares a name gives it a value outside of the block. -/
theorem given_of_declaresAt
    {scope : Scope}
    {base opened closed : Nat}
    {name : Text}
    {operations : List Operation}
    (declared : scope.DeclaresAt base name)
    (deep : scope.depth = base + 1 + opened)
    (inside : openAfterAll? opened operations = some closed)
    {level : Nat}
    (outside : level < base) :
    scope.given level name operations = [] := by
  induction operations generalizing scope opened with
  | nil => rfl
  | cons operation later inductionHypothesis =>
      rw [openAfterAll?, List.foldlM_cons, Option.bind_eq_bind, Option.bind_eq_some_iff] at inside
      obtain ⟨between, first, rest⟩ := inside
      have nothing : scope.given? level name operation = none := by
        cases operation with
        | assign target value => exact if_neg fun given => declared.not_exposes outside given.2.1
        | push | pop | bind | lookup => rfl
      rw [given, nothing,
        inductionHypothesis (declared.after deep first) (depth_after deep first) rest]
      rfl

/-! ## Whole blocks -/

/-- A block around operations that leave no other block open keeps the frames around it. -/
theorem kept_block
    (scope : Scope)
    {inner : List Operation}
    (closed : openAfterAll? 0 inner = some 0) :
    (scope.run (.push :: inner ++ [.pop])).depth = scope.depth ∧
      ∀ level < scope.depth, Kept level scope (.push :: inner ++ [.pop]) := by
  have opened : scope.push.depth = scope.depth + 1 + 0 := rfl
  obtain ⟨deep, kept⟩ := kept_run opened closed
  rw [List.cons_append, run_cons, run_append]
  have open' : (scope.push.run inner).depth = scope.depth + 1 := deep
  have shut : openAfter? 1 .pop = some 0 := rfl
  refine ⟨depth_after open' shut, fun level outside => ?_⟩
  have last : Kept level (scope.push.run inner) [.pop] := .step (by rw [deep]; omega) .pop
  exact (Kept.push outside).append ((kept level outside).append last)

/-- From where a block has declared a name, nothing up to its end changes the name in the
frames around it. -/
theorem valueAt_of_hidden
    {scope : Scope}
    {inner : List Operation}
    (closed : openAfterAll? 0 inner = some 0)
    {first later : List Operation}
    (within : first ++ later <+: .push :: inner ++ [.pop])
    {name : Text}
    (declared : (scope.run first).DeclaresAt scope.depth name)
    {level : Nat}
    (outside : level < scope.depth) :
    (scope.run (first ++ later)).valueAt level name = (scope.run first).valueAt level name := by
  -- As long as the block is open, it hides the name.
  have hidden {later : List Operation} (within : first ++ later <+: .push :: inner) :
      scope.depth + 1 ≤ ((scope.run first).run later).depth ∧ Kept level (scope.run first) later ∧
        (scope.run first).given level name later = [] := by
    cases first with
    | nil => exact absurd (lt_depth_of_declaresAt declared) (Nat.lt_irrefl _)
    | cons operation first =>
        rw [List.cons_append, List.cons_prefix_cons] at within
        obtain ⟨rfl, rest, rfl⟩ := within
        simp only [openAfterAll?, List.foldlM_append, Option.bind_eq_bind,
          Option.bind_eq_some_iff] at closed
        obtain ⟨last, ⟨between, begins, goesOn⟩, -⟩ := closed
        have opened : scope.push.depth = scope.depth + 1 + 0 := rfl
        have deep := (kept_run opened begins).1
        obtain ⟨deep', kept⟩ := kept_run deep goesOn
        refine ⟨?_, kept level outside, given_of_declaresAt declared deep goesOn outside⟩
        exact deep' ▸ Nat.le_add_right _ _
  rw [run_append]
  rcases List.prefix_concat_iff.mp within with whole | within
  · rcases List.eq_nil_or_concat later with rfl | ⟨later, last, rfl⟩
    · rfl
    · rw [List.concat_eq_append, ← List.append_assoc] at whole
      obtain ⟨before, same⟩ := List.append_inj' whole rfl
      cases same
      have within : first ++ later <+: .push :: inner := ⟨[], by rw [before, List.append_nil]⟩
      obtain ⟨deep, kept, nothing⟩ := hidden within
      rw [List.concat_eq_append, run_append,
        (Kept.step (Nat.lt_of_lt_of_le (by omega) deep) .pop).valueAt_eq rfl,
        kept.valueAt_eq nothing]
  · obtain ⟨-, kept, nothing⟩ := hidden within
    exact kept.valueAt_eq nothing

/-- A block that is opened, and closed after operations which close the blocks they open and
no other, leaves every frame around it with the names it had, in their order.  A name that a
frame declares has the last value that was assigned to it in the block while no frame inside
this one declared the name, or else the value it had.  Once the block declares a name, nothing
up to its end changes this name in the frames around. -/
theorem blocks_restore_what_they_hide
    (scope : Scope)
    (inner : List Operation)
    (closed : openAfterAll? 0 inner = some 0) :
    let operations := .push :: inner ++ [.pop]
    (scope.run operations).names = scope.names ∧
    (∀ level name, scope.DeclaresAt level name →
      (scope.run operations).valueAt level name =
        ((scope.given level name operations).getLast?).or (scope.valueAt level name)) ∧
    (∀ first later, first ++ later <+: operations →
      ∀ name, (scope.run first).DeclaresAt scope.depth name →
        ∀ level < scope.depth,
          (scope.run (first ++ later)).valueAt level name =
            (scope.run first).valueAt level name) := by
  intro operations
  obtain ⟨deep, kept⟩ := scope.kept_block closed
  refine ⟨?_, fun level name declared => ?_, fun first later within name declared level outside =>
    valueAt_of_hidden closed within declared outside⟩
  · rw [← List.reverse_inj, names, names, ← List.map_reverse, ← List.map_reverse]
    apply List.ext_getElem?
    intro level
    rw [List.getElem?_map, List.getElem?_map]
    by_cases outside : level < scope.depth
    · exact (kept level outside).names
    · have short (scope' : Scope) (same : scope'.depth = scope.depth) :
          scope'.frames.reverse[level]? = none := by
        rw [List.getElem?_eq_none_iff, List.length_reverse]
        exact Nat.le_trans (Nat.le_of_eq same) (Nat.not_lt.mp outside)
      rw [short scope rfl, short _ deep]
  · exact (kept level (lt_depth_of_declaresAt declared)).value name declared

/-- A block sets one name around it before declaring it too, and another one around an inner
block that hides it. -/
theorem blocks_restore_what_they_hide_nested :
    let scope : Scope := ⟨[[("a", .int 1), ("b", .int 2)]]⟩
    let first : List Operation := [.assign "a" (.int 5), .bind "a" (.int 7)]
    let inner := first ++
      [.assign "a" (.int 9), .assign "b" (.int 3), .push, .bind "b" (.int 0),
        .assign "b" (.int 8), .pop]
    let after := scope.run (.push :: inner ++ [.pop])
    openAfterAll? 0 inner = some 0 ∧
      after.names = [[Text.ofString "a", Text.ofString "b"]] ∧
      after.valueAt 0 "a" = some (.int 5) ∧ after.valueAt 0 "b" = some (.int 3) ∧
      (scope.run (.push :: first ++ [.assign "a" (.int 9)])).valueAt 0 "a" =
        (scope.run (.push :: first)).valueAt 0 "a" := by
  intro scope first inner after
  have closed : openAfterAll? 0 inner = some 0 := rfl
  obtain ⟨names, value, hidden⟩ := blocks_restore_what_they_hide scope inner closed
  have declares (name : Text) (member : name ∈ Frame.names [("a", .int 1), ("b", .int 2)]) :
      scope.DeclaresAt 0 name :=
    ⟨_, rfl, member⟩
  have declared : (scope.run (.push :: first)).DeclaresAt 1 "a" :=
    ⟨_, rfl, List.mem_singleton_self _⟩
  exact ⟨closed, names, (value 0 "a" (declares "a" (by decide))).trans rfl,
    (value 0 "b" (declares "b" (by decide))).trans rfl,
    hidden _ [.assign "a" (.int 9)] ⟨_, rfl⟩ "a" declared 0 (by decide)⟩

end Scope
end Siren
