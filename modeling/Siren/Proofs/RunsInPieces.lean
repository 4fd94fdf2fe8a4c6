import Siren.Proofs.EarlyReturn

/-!
# Running a program in pieces

A session can be given a program at once, in two parts, or statement by
statement.  The bindings are the same in the end, and so is the fault if there
is one; the value is the last that a statement gave.  This rests on two facts:
every statement leaves as many calls active as before, so the next one runs under
the same limit, and the outcome so far matters only while no statement gives a
value.
-/

namespace Siren

/-! ## Outcomes after one another -/

namespace Outcome

/-- The outcome of statements and then others: that of the others, unless they
give no value. -/
def andThen (earlier : Outcome) : Outcome → Outcome
  | .quiet => earlier
  | later => later

theorem andThen_assoc (first second third : Outcome) :
    (first.andThen second).andThen third = first.andThen (second.andThen third) := by
  cases third <;> rfl

/-- The value that is reported, if there is one. -/
def given? : Outcome → Option Value
  | .quiet => none
  | .value given => some given
  | .returning given => some given

theorem result_eq (outcome : Outcome) : outcome.result = outcome.given?.getD .unit := by
  cases outcome <;> rfl

theorem given?_andThen (earlier later : Outcome) :
    (earlier.andThen later).given? = later.given?.or earlier.given? := by
  cases later <;> rfl

end Outcome

/-- The outcome before some statements shows only where they give no value. -/
theorem Block.exec_eq_andThen
    (call : Caller)
    (last : Outcome)
    (stmts : List Stmt)
    (machine : Machine) :
    Block.exec call last stmts machine =
      ((Block.exec call .quiet stmts machine).1.map last.andThen,
        (Block.exec call .quiet stmts machine).2) := by
  induction stmts generalizing last machine with
  | nil => rfl
  | cons stmt stmts inductionHypothesis =>
      rw [Block.exec, Block.exec]
      rcases run : stmt.exec call machine with ⟨fault | (_ | value | result), after⟩
      · rw [Eval.bind_of_error run, Eval.bind_of_error run]
        rfl
      · rw [Eval.bind_of_ok run, Eval.bind_of_ok run]
        exact inductionHypothesis last after
      · rw [Eval.bind_of_ok run, Eval.bind_of_ok run]
        dsimp only
        rw [inductionHypothesis (.value value) after]
        -- A value hides the outcome before it.
        rcases Block.exec call .quiet stmts after with ⟨fault | later, final⟩
        · rfl
        · simp only [Except.map, ← Outcome.andThen_assoc]
          rfl
      · rw [Eval.bind_of_ok run, Eval.bind_of_ok run]
        rfl

/-! ## Results of statements in a row -/

/-- The outcome of statements by what each of them gave, after an outcome so far. -/
def Outcome.total (last : Outcome) (results : List (Except Fault Outcome)) :
    Except Fault Outcome :=
  results.foldlM (fun last result => result.map last.andThen) last

/-- The values that statements reported, in order. -/
def Outcome.reported (results : List (Except Fault Outcome)) : List Value :=
  results.filterMap fun result => result.toOption.bind Outcome.given?

namespace Outcome

variable {last total : Outcome} {results : List (Except Fault Outcome)}

theorem reported_cons_ok (outcome : Outcome) (results : List (Except Fault Outcome)) :
    reported (.ok outcome :: results) = outcome.given?.toList ++ reported results := by
  cases outcome <;> rfl

theorem error_mem_of_total
    {fault : Fault}
    (equal : last.total results = .error fault) :
    .error fault ∈ results := by
  induction results generalizing last with
  | nil => cases equal
  | cons result results inductionHypothesis =>
      cases result with
      | error cause =>
          obtain rfl : cause = fault := Except.error.inj equal
          exact List.mem_cons_self
      | ok outcome => exact List.mem_cons_of_mem _ (inductionHypothesis equal)

/-- The value that statements add up to is the last one reported. -/
theorem given?_of_total (equal : last.total results = .ok total) :
    total.given? = (reported results).getLast?.or last.given? := by
  induction results generalizing last with
  | nil =>
      obtain rfl := Except.ok.inj equal
      rfl
  | cons result results inductionHypothesis =>
      cases result with
      | error fault => cases equal
      | ok outcome =>
          have single : outcome.given?.toList.getLast? = outcome.given? := by
            cases outcome.given? <;> rfl
          rw [inductionHypothesis equal, given?_andThen, reported_cons_ok, List.getLast?_append,
            single, Option.or_assoc]

/-- The value of statements is the last one reported, and the unit if there is none. -/
theorem result_of_total (equal : Outcome.quiet.total results = .ok total) :
    total.result = (reported results).getLastD .unit := by
  rw [result_eq, given?_of_total equal, given?, Option.or_none, List.getLastD_eq_getLast?]

theorem result_andThen_of_total
    (equal : Outcome.quiet.total results = .ok total)
    (earlier : Outcome) :
    (earlier.andThen total).result =
      if (reported results).isEmpty then earlier.result else total.result := by
  have given := given?_of_total equal
  rw [given?, Option.or_none] at given
  cases listed : reported results with
  | nil =>
      rw [listed, List.getLast?_nil] at given
      cases total with
      | quiet => rfl
      | value value => cases given
      | returning result => cases given
  | cons first others =>
      rw [listed, List.getLast?_cons] at given
      cases total with
      | quiet => cases given
      | value value => rfl
      | returning result => rfl

/-- Statements among which there is no `return` add up to none. -/
theorem isReturning_of_total
    (equal : last.total results = .ok total)
    (start : last.isReturning = false)
    (goOn : ∀ outcome, .ok outcome ∈ results → outcome.isReturning = false) :
    total.isReturning = false := by
  induction results generalizing last with
  | nil =>
      obtain rfl := Except.ok.inj equal
      exact start
  | cons result results inductionHypothesis =>
      cases result with
      | error fault => cases equal
      | ok outcome =>
          have first := goOn outcome List.mem_cons_self
          refine inductionHypothesis equal ?_ fun later member =>
            goOn later (List.mem_cons_of_mem _ member)
          cases outcome with
          | quiet => exact start
          | value value => rfl
          | returning result => cases first

end Outcome

/-! ## Statements one by one -/

namespace Session

/-- Executes statements one by one up to and including the first that fails or ends
in a `return`, and lists what each gave. -/
def execUpToReturn (session : Session) : List Stmt → List (Except Fault Outcome) × Session
  | [] => ([], session)
  | stmt :: stmts =>
    match session.exec stmt with
    | (.error fault, after) => ([.error fault], after)
    | (.ok outcome, after) =>
      if outcome.isReturning then
        ([.ok outcome], after)
      else
        let (results, last) := after.execUpToReturn stmts
        (.ok outcome :: results, last)

/-- The statements up to a `return` are executed like any statements. -/
theorem execUpToReturn_eq_execEach (session : Session) (stmts : List Stmt) :
    session.execUpToReturn stmts =
      session.execEach (stmts.take (session.execUpToReturn stmts).1.length) := by
  induction stmts generalizing session with
  | nil => rfl
  | cons stmt stmts inductionHypothesis =>
      rw [execUpToReturn]
      rcases run : session.exec stmt with ⟨fault | outcome, after⟩
      · simp [execEach, run]
      · dsimp only
        split
        · simp [execEach, run]
        · have rest := inductionHypothesis after
          simp only [List.length_cons, List.take_succ_cons, execEach, run]
          rw [← rest]

/-- Statements that are executed at once add up to what they give one by one. -/
theorem perform_exec (session : Session) (last : Outcome) (stmts : List Stmt) :
    session.perform (Block.exec · last stmts) =
      (last.total (session.execUpToReturn stmts).1, (session.execUpToReturn stmts).2) := by
  induction stmts generalizing session last with
  | nil => rfl
  | cons stmt stmts inductionHypothesis =>
      obtain ⟨machine, limit⟩ := session
      -- The limit stands as it was: a statement leaves as many calls active as before.
      have grows := Stmt.grows_exec (limit.caller_returns machine.depth) stmt
        (List.Subset.refl _) machine
      rcases run : stmt.exec (limit.caller machine.depth) machine with ⟨result, after⟩
      have depth : after.depth = machine.depth := by
        rw [run] at grows
        exact grows.depth
      have exec : Session.exec ⟨machine, limit⟩ stmt = (result, ⟨after, limit⟩) := by
        simp only [Session.exec, perform, run]
      have rest := inductionHypothesis ⟨after, limit⟩
      simp only [perform, depth] at rest
      simp only [perform, Block.exec, Eval.bind_apply, run, execUpToReturn, exec]
      cases result with
      | error fault => rfl
      | ok outcome =>
          cases outcome with
          | quiet => exact rest last
          | value value => exact rest (.value value)
          | returning result => rfl

theorem run_eq (session : Session) (program : Program) :
    session.run program =
      ((Outcome.quiet.total (session.execUpToReturn program).1).map Outcome.result,
        (session.execUpToReturn program).2) := by
  simp only [run, perform_exec]

/-- A program that ends with a value has statements that add up to it. -/
theorem total_of_run
    {session after : Session}
    {program : Program}
    {value : Value}
    (runs : session.run program = (.ok value, after)) :
    ∃ outcome, Outcome.quiet.total (session.execUpToReturn program).1 = .ok outcome ∧
      outcome.result = value ∧ (session.execUpToReturn program).2 = after := by
  rw [run_eq, Prod.mk.injEq] at runs
  cases total : Outcome.quiet.total (session.execUpToReturn program).1 with
  | error fault =>
      rw [total] at runs
      cases runs.1
  | ok outcome =>
      rw [total] at runs
      exact ⟨outcome, rfl, Except.ok.inj runs.1, runs.2⟩

/-- Nothing is executed after a statement that fails, so its fault is the only one. -/
theorem total_execUpToReturn_of_mem
    {session : Session}
    {stmts : List Stmt}
    {fault : Fault}
    (member : .error fault ∈ (session.execUpToReturn stmts).1)
    (last : Outcome) :
    last.total (session.execUpToReturn stmts).1 = .error fault := by
  induction stmts generalizing session last with
  | nil => cases member
  | cons stmt stmts inductionHypothesis =>
      rw [execUpToReturn] at member ⊢
      rcases run : session.exec stmt with ⟨cause | outcome, after⟩
      · rw [run] at member
        obtain rfl : fault = cause := by simpa using member
        rfl
      · rw [run] at member
        dsimp only at member ⊢
        split at member
        · simp at member
        · rename_i goesOn
          rw [if_neg goesOn]
          exact inductionHypothesis (by simpa using member) (last.andThen outcome)

/-- A program in two parts, of which the first ends without a `return`, gives what the
second gives after the first; the outcome of the first shows where the second gives no
value. -/
theorem perform_append
    {session between : Session}
    {first : Program}
    {outcome : Outcome}
    (ends : session.perform (Block.exec · .quiet first) = (.ok outcome, between))
    (goesOn : outcome.isReturning = false)
    (second : Program) :
    session.perform (Block.exec · .quiet (first ++ second)) =
      ((between.perform (Block.exec · .quiet second)).1.map outcome.andThen,
        (between.perform (Block.exec · .quiet second)).2) := by
  obtain ⟨machine, limit⟩ := session
  obtain ⟨declared, grows⟩ := Block.grows_exec (limit.caller_returns machine.depth) .quiet first
    (List.Subset.refl _) machine
  rcases run : Block.exec (limit.caller machine.depth) .quiet first machine with ⟨result, after⟩
  simp only [perform, run, Prod.mk.injEq] at ends
  obtain ⟨rfl, rfl⟩ := ends
  have depth : after.depth = machine.depth := by
    rw [run] at grows
    exact grows.depth
  simp only [perform, Block.exec_append run goesOn, depth,
    Block.exec_eq_andThen _ outcome second after]
  rfl

end Session

/-- A program runs in pieces as it does at once.  If a first part ends without a
`return`, then the whole fails as the rest does after it, with the same bindings in any
case; its value is that of the rest if a statement executed there gave one, and else
that of the first part.  A program gives what its statements give one by one, up to and
including the first that fails or ends in a `return`: the same bindings, the fault of
that statement, or the last value given, and the unit when there is none. -/
theorem runs_in_pieces (session : Session) :
    (∀ (first second : Program) (value : Value) (between : Session),
      session.run first = (.ok value, between) →
      (∀ outcome, .ok outcome ∈ (session.execUpToReturn first).1 →
        outcome.isReturning = false) →
      session.run (first ++ second) =
        ((between.run second).1.map fun value' =>
          if (Outcome.reported (between.execUpToReturn second).1).isEmpty then value else value',
        (between.run second).2)) ∧
    ∀ program : Program,
      session.execUpToReturn program =
        session.execEach (program.take (session.execUpToReturn program).1.length) ∧
      (session.run program).2 = (session.execUpToReturn program).2 ∧
      (∀ fault, (session.run program).1 = .error fault ↔
        .error fault ∈ (session.execUpToReturn program).1) ∧
      ∀ value, (session.run program).1 = .ok value →
        value = (Outcome.reported (session.execUpToReturn program).1).getLastD .unit := by
  refine ⟨?_, fun program => ⟨session.execUpToReturn_eq_execEach program, ?_, ?_, ?_⟩⟩
  · intro first second value between runs goOn
    obtain ⟨outcome, total, rfl, rfl⟩ := Session.total_of_run runs
    have ends := session.perform_exec .quiet first
    rw [total] at ends
    have goesOn := Outcome.isReturning_of_total total rfl goOn
    rw [Session.run, Session.perform_append ends goesOn, Session.perform_exec, Session.run_eq]
    generalize (session.execUpToReturn first).2 = between
    cases rest : Outcome.quiet.total (between.execUpToReturn second).1 with
    | error fault => rfl
    | ok later =>
        simp only [Except.map, Outcome.result_andThen_of_total rest outcome]
  · rw [session.run_eq]
  · intro fault
    rw [session.run_eq]
    refine ⟨fun fails => ?_, fun member => ?_⟩
    · cases total : Outcome.quiet.total (session.execUpToReturn program).1 with
      | error cause =>
          obtain rfl : cause = fault := by simpa [total, Except.map] using fails
          exact Outcome.error_mem_of_total total
      | ok outcome => simp [total, Except.map] at fails
    · rw [Session.total_execUpToReturn_of_mem member]
      rfl
  · intro value runs
    obtain ⟨outcome, total, rfl, -⟩ := Session.total_of_run (Prod.ext runs rfl)
    exact Outcome.result_of_total total

/-- An assignment after a value changes the binding and keeps the value. -/
theorem runs_in_pieces_assignment :
    let session := Session.start (.atMost 1)
    let first : Program := [.declare .start "x" (.int .start 1), .expr (.name .start "x")]
    let second : Program := [.assign .start "x" (.int .start 5)]
    (session.run (first ++ second)).1 = .ok (.int 1) ∧
      (session.run (first ++ second)).2.lookup "x" = .ok (.int 5) := by
  intro session first second
  have executed : (session.execUpToReturn first).1 = [.ok .quiet, .ok (.value (.int 1))] := rfl
  have goOn : ∀ outcome, .ok outcome ∈ (session.execUpToReturn first).1 →
      outcome.isReturning = false := by
    rw [executed]
    intro outcome member
    rcases List.mem_cons.mp member with equal | later
    · cases equal
      rfl
    · cases List.mem_singleton.mp later
      rfl
  rw [(runs_in_pieces session).1 first second (.int 1) _ rfl goOn]
  exact ⟨rfl, rfl⟩

end Siren
