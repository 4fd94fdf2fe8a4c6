import Siren.Console.Input

/-!
# History

The history holds the chunks evaluated in earlier sessions and in this one, one
a line, up to a number of them.
-/

namespace Siren

/-- The entries of a history, the oldest first. -/
abbrev History := List Text

namespace History

/-- The number of entries that are kept. -/
def limit : Nat := 1000

/-- The newest entries, as many as are kept. -/
def newest (history : History) : History :=
  history.drop (history.length - limit)

/-- The entry for a chunk, which stands on one line. -/
def entry (chunk : Text) : Text :=
  chunk.onOneLine

/-- Adds an entry unless it equals the last one. -/
def add (history : History) (entry : Text) : History :=
  if history.getLast? = some entry then history else newest (history ++ [entry])

/-- The entries in the contents of a history file, up to the first line that is
cut or is not well-formed UTF-8. -/
def ofText (contents : Text) : History :=
  newest (((Input.lines contents).takeWhile fun line =>
    !line.isCut && line.text.isUtf8).map (·.text))

/-- The contents of a history file. -/
def text (history : History) : Text :=
  history.flatMap Text.line

end History
end Siren
