/-!
Lines. A line ends at a line feed, and one carriage return directly before that line feed belongs
to the line end; a carriage return anywhere else is part of the line. A text that does not end in a
line feed has a last line without an end, which keeps a trailing carriage return. The empty text
has no lines.
-/

namespace Switchboard.Text

/-- A line that was ended by a line feed, without the carriage return of its line end. -/
def dropReturn (line : List Char) : List Char :=
  if line.getLast? = some '\r' then line.dropLast else line

/-- The pieces between line feeds, without the empty piece after a final line feed. -/
def linesOfPieces : List (List Char) → List (List Char)
  | [] => []
  | [last] => if last.isEmpty then [] else [last]
  | line :: rest => dropReturn line :: linesOfPieces rest

def lines (text : List Char) : List (List Char) :=
  linesOfPieces (text.splitOn '\n')

@[simp] theorem lines_nil : lines [] = [] := rfl

@[simp] theorem dropReturn_nil : dropReturn [] = [] := rfl

/-- A carriage return at the end of an ended line is not part of it. -/
@[simp] theorem dropReturn_append_return (line : List Char) :
    dropReturn (line ++ ['\r']) = line := by
  simp [dropReturn]

/-- Only a carriage return is ever dropped. -/
theorem dropReturn_of_getLast? {line : List Char} (h : line.getLast? ≠ some '\r') :
    dropReturn line = line := by
  simp [dropReturn, h]

end Switchboard.Text
