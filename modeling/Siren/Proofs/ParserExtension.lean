import Siren.Proofs.LongerRuns

/-!
# Reading with more tokens ahead

A run of the parser depends on the tokens up to the one where it ends.  With
more tokens behind those ahead it goes the same way, as long as it ends before
one of the tokens it had.  A run that used them all up still goes the same way
if it succeeded and the tokens added start with one that closes constructs.
-/

namespace Siren

/-! ## Runs that go the same way -/

namespace Run

variable {α β : Type}

/-- The second run goes the way of the first with more tokens ahead. -/
structure Carries (start : Cursor) (more : List Token) (stop : Position)
    (run run' : Run α) : Prop where
  stays : start.rest = [] → run.cursor.rest = []
  same : run.cursor.rest ≠ [] ∨ Closing more ∧ run.isOk = true →
    run' = run.mapCursor (Cursor.extend · more stop)

namespace Carries

variable {start : Cursor} {more : List Token} {stop : Position}

theorem ok
    {value : α}
    {next : Cursor}
    (stays : start.rest = [] → next.rest = []) :
    Carries start more stop (.ok (value, next)) (.ok (value, next.extend more stop)) :=
  ⟨stays, fun _ => rfl⟩

/-- A run that ends at the end of the tokens and fails says nothing. -/
theorem of_failed
    {run run' : Run α}
    (failed : run.isOk = false)
    (ended : run.cursor.rest = []) :
    Carries start more stop run run' := by
  refine ⟨fun _ => ended, ?_⟩
  rintro (more | ⟨_, done⟩)
  · exact absurd ended more
  · rw [failed] at done
    cases done

/-- What has to pass a token says nothing where none is ahead. -/
theorem of_nil
    {parsed : Parsed 1 α start}
    {run' : Run α}
    (none : start.rest = []) :
    Carries start more stop parsed.run run' := by
  have left : start.left = 0 := List.length_eq_zero_iff.mpr none
  cases parsed with
  | done value next progress => omega
  | failed error last bound =>
      rw [left, Nat.le_zero] at bound
      exact of_failed rfl (List.length_eq_zero_iff.mp bound)

theorem complain
    {cursor : Cursor}
    (nonempty : cursor.rest ≠ [])
    (complaint : Complaint) :
    Carries cursor more stop (Run.complain cursor complaint : Run α)
      (Run.complain (cursor.extend more stop) complaint) := by
  refine ⟨fun none => absurd none nonempty, fun _ => ?_⟩
  rw [Run.complain, Run.complain, Cursor.current_extend nonempty]
  rfl

theorem map
    {run run' : Run α}
    (carries : Carries start more stop run run')
    (change : α → β) :
    Carries start more stop (run.map change) (run'.map change) := by
  rcases run with ⟨error, last⟩ | ⟨value, next⟩
  · exact ⟨carries.stays, fun ended => by rw [carries.same ended]; rfl⟩
  · exact ⟨carries.stays, fun ended => by rw [carries.same ended]; rfl⟩

theorem mapCursor
    {run run' : Run α}
    {change : Cursor → Cursor}
    (carries : Carries start more stop run run')
    (rest : ∀ cursor, (change cursor).rest = cursor.rest)
    (extend : ∀ cursor : Cursor, change (cursor.extend more stop) =
      (change cursor).extend more stop) :
    Carries start more stop (run.mapCursor change) (run'.mapCursor change) := by
  rcases run with ⟨error, last⟩ | ⟨value, next⟩
  · refine ⟨fun none => (rest last).trans (carries.stays none), fun ended => ?_⟩
    rw [carries.same (by simpa [cursor, rest, Except.isOk, Except.toBool] using ended)]
    simp only [mapCursor_error, extend]
  · refine ⟨fun none => (rest next).trans (carries.stays none), fun ended => ?_⟩
    rw [carries.same (by simpa [cursor, rest, Except.isOk, Except.toBool] using ended)]
    simp only [mapCursor_ok, extend]

theorem leave
    {run run' : Run α}
    (carries : Carries start more stop run run') :
    Carries start more stop (run.mapCursor Cursor.leave) (run'.mapCursor Cursor.leave) :=
  carries.mapCursor (fun _ => rfl) fun _ => rfl

theorem withParens
    {run run' : Run α}
    (carries : Carries (start.withParens 0) more stop run run')
    (parens : Nat) :
    Carries start more stop (run.mapCursor (Cursor.withParens · parens))
      (run'.mapCursor (Cursor.withParens · parens)) := by
  have mapped : Carries (start.withParens 0) more stop
      (run.mapCursor (Cursor.withParens · parens))
      (run'.mapCursor (Cursor.withParens · parens)) :=
    carries.mapCursor (fun _ => rfl) fun _ => rfl
  exact ⟨mapped.stays, mapped.same⟩

/-- Where the second part goes the same way, so does the first. -/
theorem andThen
    {first first' : Run α}
    {second second' : α → Cursor → Run β}
    (carries : Carries start more stop first first')
    (further : ∀ value next, first = .ok (value, next) →
      Carries next more stop (second value next) (second' value (next.extend more stop))) :
    Carries start more stop (first.andThen second) (first'.andThen second') := by
  rcases first with ⟨error, last⟩ | ⟨value, next⟩
  · refine ⟨carries.stays, fun ended => ?_⟩
    rw [carries.same ended]
    rfl
  · have further := further value next rfl
    refine ⟨fun none => further.stays (carries.stays none), fun ended => ?_⟩
    have before : next.rest ≠ [] ∨ Closing more ∧ true = true := by
      by_cases none : next.rest = []
      · rcases ended with more | done
        · exact absurd (further.stays none) more
        · exact .inr ⟨done.1, rfl⟩
      · exact .inl none
    rw [carries.same before, mapCursor_ok, andThen_ok, andThen_ok]
    exact further.same ended

/-- A run goes the same way seen from an earlier place. -/
theorem since
    {next : Cursor}
    {run run' : Run α}
    (carries : Carries next more stop run run')
    (earlier : start.rest = [] → next.rest = []) :
    Carries start more stop run run' :=
  ⟨fun none => carries.stays (earlier none), carries.same⟩

end Carries
end Run

/-- The steps of the parser keep runs going the same way. -/
theorem Run.carries_extension (more : List Token) (stop : Position) :
    Run.Extension more stop fun _ start => Run.Carries start more stop where
  ok _ _ := .ok id
  complain nonempty complaint := .complain nonempty complaint
  ended none ends := by
    refine ⟨fun _ => none, ?_⟩
    rintro (nonempty | ⟨closing, _⟩)
    · exact absurd none nonempty
    · exact ends closing.ending
  stuck _ _ none _ := .of_nil none
  unclosed none stuck := by
    obtain ⟨error, rfl⟩ := stuck
    exact .of_failed rfl none
  map change carries := carries.map change
  cons carries := carries.since nofun
  andThen carries further := carries.andThen further
  leave carries := carries.leave.since id
  braces := by
    intro _ _ prev token rest stop' parens _ _ _ carries
    have body : Carries (Cursor.withParens ⟨some token, rest, stop', parens⟩ 0) more stop _ _ :=
      carries
    exact (body.withParens parens).since nofun

namespace Parser

variable (more : List Token) (stop : Position)

theorem params_carries (cursor : Cursor) :
    Run.Carries cursor more stop (params cursor).run
      (params (cursor.extend more stop)).run :=
  (Run.carries_extension more stop).params false cursor

theorem endStatement_carries
    (closing : Kind)
    {cursor : Cursor}
    (ends : cursor.rest ≠ [] ∨ closing = .rightBrace) :
    Run.Carries cursor more stop (endStatement closing cursor).run
      (endStatement closing (cursor.extend more stop)).run := by
  by_cases none : cursor.rest = []
  · obtain rfl := ends.resolve_left (not_not_intro none)
    have kind : cursor.kind = .endOfInput := by
      rw [Cursor.kind, Cursor.current, none]
      rfl
    by_cases follows : cursor.follows .rightBrace = true
    · have closes : Closing cursor.rest := by simp [Closing, none]
      rw [endStatement_of_closing .rightBrace follows closes]
      refine ⟨fun _ => none, ?_⟩
      rintro (nonempty | ⟨closes, _⟩)
      · exact absurd none nonempty
      · refine endStatement_of_closing .rightBrace follows ?_
        simpa [Cursor.extend, none] using closes
    · rw [run_endStatement, if_neg (by simp [kind]), if_neg (by simp [kind, follows]),
        if_pos kind]
      exact .of_failed rfl none
  · exact (Run.carries_extension more stop).endStatement false closing none

theorem expr_carries (level : Level) (cursor : Cursor) :
    Run.Carries cursor more stop (expr level cursor).run
      (expr level (cursor.extend more stop)).run :=
  (Run.carries_extension more stop).expr false level cursor

theorem operand_carries (cursor : Cursor) :
    Run.Carries cursor more stop (operand cursor).run
      (operand (cursor.extend more stop)).run :=
  (Run.carries_extension more stop).operand false cursor

theorem args_carries (cursor : Cursor) :
    Run.Carries cursor more stop (args cursor).run (args (cursor.extend more stop)).run :=
  (Run.carries_extension more stop).args false cursor

theorem block_carries (cursor : Cursor) :
    Run.Carries cursor more stop (block cursor).run (block (cursor.extend more stop)).run :=
  (Run.carries_extension more stop).block false cursor

theorem statement_carries (cursor : Cursor) :
    Run.Carries cursor more stop (statement cursor).run
      (statement (cursor.extend more stop)).run :=
  (Run.carries_extension more stop).statement false cursor

end Parser
end Siren
