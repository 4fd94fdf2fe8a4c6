import Mathlib.Data.List.Forall2
import Mathlib.Data.Nat.Find
import Mathlib.Order.Bounds.Basic
import Siren.Proofs.TrimmedText

/-!
# What a chunk takes of the lines

A chunk is the shortest run of lines that is blank or not just incomplete.  The console asks
for its first line with one prompt and for each further one with another, and leaves the
lines behind the chunk.  So chunk after chunk takes up the lines in their order.
-/

namespace Siren
namespace Console

/-- A text is blank, or it is not just incomplete. -/
def Complete (text : Text) : Prop :=
  text.trim = [] ∨ SyntaxError.isIncomplete (Program.ofText text).errors = false

theorem isFinished_iff_complete (text : Text) : isFinished text = true ↔ Complete text := by
  rw [Complete, Text.trim_eq_nil_iff, isFinished, Bool.or_eq_true, Bool.not_eq_true']

/-- The first lines, in a number of at least one, make up a complete text. -/
structure Closes (lines : List Text) (count : Nat) : Prop where
  positive : 1 ≤ count
  within : count ≤ lines.length
  complete : Complete (Text.join [Text.lineFeed] (lines.take count))

/-- The input that a chunk stands for, and whether more may come. -/
def Chunk.input : Chunk → Text × Bool
  | .read source => (source, true)
  | .ended .aborted => ([], true)
  | .ended .closed | .ended (.broken _) => ([], false)

/-- The readings of chunks one after the other, and the lines that are left. -/
def readTimes (prompts : Prompts) (ending : Ending) (strict : Bool) :
    Nat → List Text → List Reading × List Text
  | 0, lines => ([], lines)
  | times + 1, lines =>
    let reading := read prompts ⟨lines, ending, strict⟩
    let (readings, left) := readTimes prompts ending strict times reading.left
    (reading :: readings, left)

/-- Prompts that are not refused. -/
def Accepted (prompts : Prompts) (strict : Bool) : Prop :=
  strict = true → isPrompt prompts.first = true ∧ isPrompt prompts.more = true

variable {prompts : Prompts} {ending : Ending} {strict : Bool}

theorem Accepted.promptFor_nil (accepted : Accepted prompts strict) :
    promptFor prompts strict [] = some prompts.first := by
  cases strict with
  | false => rfl
  | true => simp [promptFor, accepted rfl]

theorem Accepted.promptFor_of_ne_nil
    (accepted : Accepted prompts strict)
    {pending : Text}
    (nonempty : pending ≠ []) :
    promptFor prompts strict pending = some prompts.more := by
  cases strict with
  | false => simp [promptFor, nonempty]
  | true => simp [promptFor, nonempty, accepted rfl]

/-- Lines that leave the pending text incomplete are read on. -/
theorem readFrom_of_unfinished
    (accepted : Accepted prompts strict)
    (ending : Ending)
    {pending : Text}
    (nonempty : pending ≠ [])
    (lines later : List Text)
    (unfinished : ∀ count, 1 ≤ count → count ≤ lines.length →
      isFinished ((lines.take count).foldl extend pending) = false) :
    readFrom prompts ending strict pending (lines ++ later) =
      let reading := readFrom prompts ending strict (lines.foldl extend pending) later
      { reading with shown := List.replicate lines.length prompts.more ++ reading.shown } := by
  induction lines generalizing pending with
  | nil => rfl
  | cons line lines inductionHypothesis =>
      have first : isFinished (extend pending line) = false :=
        unfinished 1 (Nat.le_refl 1) (by simp)
      have further := inductionHypothesis (ne_nil_of_isFinished first) fun count _ within =>
        unfinished (count + 1) (Nat.le_add_left 1 count) (Nat.succ_le_succ within)
      rw [List.cons_append, readFrom, accepted.promptFor_of_ne_nil nonempty]
      simp only [first, Bool.false_eq_true, if_false, further]
      rfl

/-! ## One chunk -/

variable {line : Text} {rest lines : List Text}

theorem isFinished_iff_closes_one (rest : List Text) :
    isFinished line = true ↔ Closes (line :: rest) 1 := by
  rw [isFinished_iff_complete]
  exact ⟨fun complete => ⟨Nat.le_refl 1, by simp, complete⟩, Closes.complete⟩

theorem isFinished_iff_closes
    (nonempty : line ≠ [])
    {count : Nat}
    (within : count ≤ rest.length) :
    isFinished ((rest.take count).foldl extend line) = true ↔
      Closes (line :: rest) (count + 1) := by
  rw [foldl_extend_eq_join nonempty, isFinished_iff_complete]
  exact ⟨fun complete => ⟨Nat.le_add_left 1 count, Nat.succ_le_succ within, complete⟩,
    Closes.complete⟩

/-- A first line that does not close the chunk is not empty, and the lines behind it are
read on for as long as none of them closes it. -/
theorem read_of_unfinished
    (accepted : Accepted prompts strict)
    (ending : Ending)
    {count : Nat}
    (within : count ≤ rest.length)
    (unclosed : ∀ earlier ≤ count, ¬Closes (line :: rest) (earlier + 1)) :
    line ≠ [] ∧ read prompts ⟨line :: rest, ending, strict⟩ =
      let reading := readFrom prompts ending strict
        (Text.join [Text.lineFeed] (line :: rest.take count)) (rest.drop count)
      { reading with
        shown := prompts.first :: List.replicate count prompts.more ++ reading.shown } := by
  have unfinished : isFinished line = false := by
    rw [← Bool.not_eq_true, isFinished_iff_closes_one rest]
    exact unclosed 0 (Nat.zero_le count)
  have nonempty := ne_nil_of_isFinished unfinished
  have further := readFrom_of_unfinished accepted ending nonempty (rest.take count)
    (rest.drop count) fun earlier _ short => ?_
  · refine ⟨nonempty, ?_⟩
    rw [List.take_append_drop, foldl_extend_eq_join nonempty, List.length_take,
      Nat.min_eq_left within] at further
    have first : isFinished (extend [] line) = false := unfinished
    rw [read, readFrom, accepted.promptFor_nil]
    simp only [first, Bool.false_eq_true, if_false]
    rw [show extend [] line = line from rfl, further]
    rfl
  · rw [List.length_take, Nat.min_eq_left within] at short
    rw [← Bool.not_eq_true, List.take_take, Nat.min_eq_left short,
      isFinished_iff_closes nonempty (short.trans within)]
    exact unclosed earlier short

theorem join_ne_nil (nonempty : line ≠ []) (lines : List Text) :
    Text.join [Text.lineFeed] (line :: lines) ≠ [] := by
  cases lines with
  | nil => exact nonempty
  | cons next lines => simp [Text.join]

/-- The shortest run of lines that is complete is handed on. -/
theorem read_of_least
    (accepted : Accepted prompts strict)
    {count : Nat}
    (least : IsLeast {count | Closes lines count} count) :
    read prompts ⟨lines, ending, strict⟩ =
      ⟨.read (Text.join [Text.lineFeed] (lines.take count)),
        prompts.first :: List.replicate (count - 1) prompts.more, lines.drop count⟩ := by
  obtain ⟨closes, minimal⟩ := least
  cases lines with
  | nil => exact absurd (closes.positive.trans closes.within) (Nat.not_succ_le_zero 0)
  | cons line rest =>
      obtain _ | _ | count := count
      · exact absurd closes.positive (Nat.not_succ_le_zero 0)
      · have first : isFinished (extend [] line) = true :=
          (isFinished_iff_closes_one rest).mpr closes
        rw [read, readFrom, accepted.promptFor_nil]
        simp only [first, if_true]
        rfl
      · have within : count < rest.length :=
          Nat.lt_of_succ_le (Nat.le_of_succ_le_succ closes.within)
        have unclosed : ∀ earlier ≤ count, ¬Closes (line :: rest) (earlier + 1) := by
          intro earlier short closes'
          exact absurd (minimal closes') (by omega)
        obtain ⟨nonempty, further⟩ := read_of_unfinished accepted ending
          (Nat.le_of_lt within) unclosed
        have longer : extend (Text.join [Text.lineFeed] (line :: rest.take count)) rest[count] =
            Text.join [Text.lineFeed] ((line :: rest).take (count + 2)) := by
          rw [List.take_succ_cons, ← foldl_extend_eq_join nonempty, ← foldl_extend_eq_join nonempty,
            List.take_succ_eq_append_getElem within, List.foldl_append]
          rfl
        have finished := (isFinished_iff_complete _).mpr closes.complete
        rw [← longer] at finished
        rw [further, List.drop_eq_getElem_cons within, readFrom,
          accepted.promptFor_of_ne_nil (join_ne_nil nonempty _)]
        simp only [finished, if_true]
        rw [longer, List.cons_append, ← List.replicate_succ']
        rfl

/-- Without such a run the lines are read to their end. -/
theorem read_of_none
    (accepted : Accepted prompts strict)
    (unclosed : ∀ count, ¬Closes lines count) :
    read prompts ⟨lines, ending, strict⟩ =
      ⟨.ended ending, prompts.first :: List.replicate lines.length prompts.more, []⟩ := by
  cases lines with
  | nil =>
      rw [read, readFrom, accepted.promptFor_nil]
      rfl
  | cons line rest =>
      obtain ⟨nonempty, further⟩ := read_of_unfinished accepted ending
        (Nat.le_refl rest.length) fun earlier _ => unclosed (earlier + 1)
      rw [further, List.drop_length, readFrom,
        accepted.promptFor_of_ne_nil (join_ne_nil nonempty _)]
      simp only [List.length_cons, List.replicate_succ', List.cons_append]

/-! ## Chunk after chunk -/

/-- The lines that a reading takes, and what it makes of them. -/
inductive Reading.Takes (prompts : Prompts) (ending : Ending) (reading : Reading) :
    List Text → Prop where
  | chunk {taken : List Text}
    (nonempty : taken ≠ [])
    (chunk : reading.chunk = .read (Text.join [Text.lineFeed] taken))
    (shown : reading.shown = prompts.first :: List.replicate (taken.length - 1) prompts.more) :
    Takes prompts ending reading taken
  | rest {taken : List Text}
    (chunk : reading.chunk = .ended ending)
    (shown : reading.shown = prompts.first :: List.replicate taken.length prompts.more)
    (left : reading.left = []) :
    Takes prompts ending reading taken

/-- A reading takes up the lines from the front. -/
theorem exists_takes_read
    (accepted : Accepted prompts strict)
    (ending : Ending)
    (lines : List Text) :
    ∃ taken, taken ++ (read prompts ⟨lines, ending, strict⟩).left = lines ∧
      (read prompts ⟨lines, ending, strict⟩).Takes prompts ending taken := by
  classical
  by_cases closed : ∃ count, Closes lines count
  · have least : IsLeast {count | Closes lines count} (Nat.find closed) :=
      ⟨Nat.find_spec closed, fun _ closes => Nat.find_min' closed closes⟩
    have length : (lines.take (Nat.find closed)).length = Nat.find closed :=
      List.length_take_of_le least.1.within
    have nonempty : lines.take (Nat.find closed) ≠ [] :=
      List.ne_nil_of_length_pos (by rw [length]; exact least.1.positive)
    rw [read_of_least accepted least]
    exact ⟨lines.take (Nat.find closed), List.take_append_drop _ lines,
      .chunk nonempty rfl (by rw [length])⟩
  · rw [read_of_none accepted (not_exists.mp closed)]
    exact ⟨lines, List.append_nil lines, .rest rfl rfl rfl⟩

/-- Readings take up the lines in their order, none of them twice. -/
theorem exists_takes_readTimes
    (accepted : Accepted prompts strict)
    (times : Nat)
    (lines : List Text) :
    ∃ groups, groups.flatten ++ (readTimes prompts ending strict times lines).2 = lines ∧
      List.Forall₂ (Reading.Takes prompts ending)
        (readTimes prompts ending strict times lines).1 groups := by
  induction times generalizing lines with
  | zero => exact ⟨[], rfl, .nil⟩
  | succ times inductionHypothesis =>
      obtain ⟨taken, front, takes⟩ := exists_takes_read accepted ending lines
      obtain ⟨groups, later, allTake⟩ :=
        inductionHypothesis (read prompts ⟨lines, ending, strict⟩).left
      refine ⟨taken :: groups, ?_, .cons takes allTake⟩
      rw [List.flatten_cons, List.append_assoc]
      exact (congrArg (taken ++ ·) later).trans front

/-- As many readings as there are lines leave none of them. -/
theorem left_readTimes_of_length_le
    (accepted : Accepted prompts strict)
    {times : Nat}
    {lines : List Text}
    (enough : lines.length ≤ times) :
    (readTimes prompts ending strict times lines).2 = [] := by
  induction times generalizing lines with
  | zero => exact List.length_eq_zero_iff.mp (Nat.le_zero.mp enough)
  | succ times inductionHypothesis =>
      refine inductionHypothesis ?_
      obtain ⟨taken, front, takes⟩ := exists_takes_read accepted ending lines
      have total := congrArg List.length front
      rw [List.length_append] at total
      cases takes with
      | chunk nonempty =>
          have positive := List.length_pos_iff.mpr nonempty
          omega
      | rest _ _ left =>
          rw [left]
          exact Nat.zero_le times

/-- The console hands on the shortest run of lines that is blank or not just incomplete, and
leaves those behind it.  It asks for the first line with the first prompt and for each
further one with the other.  Without such a run it reads the lines to their end, which is
an empty input, the last one unless the input was aborted.  So readings one after the other
take up the lines in their order until none are left. -/
theorem read_takes_shortest_complete_run
    (accepted : Accepted prompts strict)
    (ending : Ending)
    (lines : List Text) :
    (∀ count, IsLeast {count | Closes lines count} count →
      let reading := read prompts ⟨lines, ending, strict⟩
      reading.chunk.input = (Text.join [Text.lineFeed] (lines.take count), true) ∧
        reading.shown = prompts.first :: List.replicate (count - 1) prompts.more ∧
        reading.left = lines.drop count) ∧
    ((∀ count, ¬Closes lines count) →
      let reading := read prompts ⟨lines, ending, strict⟩
      reading.chunk.input = ([], decide (ending = .aborted)) ∧
        reading.shown = prompts.first :: List.replicate lines.length prompts.more ∧
        reading.left = []) ∧
    ∀ times,
      (∃ groups, groups.flatten ++ (readTimes prompts ending strict times lines).2 = lines ∧
        List.Forall₂ (Reading.Takes prompts ending)
          (readTimes prompts ending strict times lines).1 groups) ∧
      (lines.length ≤ times → (readTimes prompts ending strict times lines).2 = []) := by
  refine ⟨?_, ?_, fun times => ⟨?_, ?_⟩⟩
  · intro count least
    rw [read_of_least accepted least]
    exact ⟨rfl, rfl, rfl⟩
  · intro unclosed
    rw [read_of_none accepted unclosed]
    refine ⟨?_, rfl, rfl⟩
    cases ending <;> rfl
  · exact exists_takes_readTimes accepted times lines
  · exact left_readTimes_of_length_le accepted

/-- An open parenthesis is handed on with the line that closes it, and the line behind them is
left. -/
theorem read_takes_shortest_complete_run_parentheses :
    Accepted ⟨"> ", ". "⟩ true ∧
    IsLeast {count | Closes ["(", ")", "1"] count} 2 ∧
    (read ⟨"> ", ". "⟩ ⟨["(", ")", "1"], .aborted, true⟩).chunk.input =
      ("(" ++ Text.lineFeed :: ")", true) ∧
    (read ⟨"> ", ". "⟩ ⟨["(", ")", "1"], .aborted, true⟩).shown = ["> ", ". "] ∧
    (read ⟨"> ", ". "⟩ ⟨["(", ")", "1"], .aborted, true⟩).left = ["1"] := by
  have accepted : Accepted ⟨"> ", ". "⟩ true := fun _ => by decide +kernel
  have opened : SyntaxError.isIncomplete (Program.ofText "(").errors = true := by decide +kernel
  have closed : SyntaxError.isIncomplete
      (Program.ofText (Text.join [Text.lineFeed] ["(", ")"])).errors = false := by decide +kernel
  have least : IsLeast {count | Closes ["(", ")", "1"] count} 2 := by
    refine ⟨⟨by decide, by decide, .inr closed⟩, fun count closes => ?_⟩
    obtain _ | _ | count := count
    · exact absurd closes.positive (by decide)
    · have finished := (isFinished_iff_closes_one [")", "1"]).mpr closes
      rw [isFinished_iff, opened] at finished
      cases finished
    · exact Nat.le_add_left 2 count
  obtain ⟨chunk, shown, left⟩ :=
    (read_takes_shortest_complete_run accepted .aborted ["(", ")", "1"]).1 2 least
  exact ⟨accepted, least, chunk, shown, left⟩

end Console
end Siren
