/-!
# Lines

A text as its lines. A line ends at a line feed, which a carriage return may precede; what follows
the last line feed is a line of its own unless it is empty.
-/

namespace UserDirectory

/-- The line without the carriage return at its end. -/
def dropReturn (line : List Char) : List Char :=
  match line.getLast? with
  | some '\r' => line.dropLast
  | _ => line

/-- The lines of a text whose current line, read so far, is `acc` backwards. -/
def linesFrom (acc : List Char) : List Char → List (List Char)
  | [] => if acc.isEmpty then [] else [acc.reverse]
  | '\n' :: rest => dropReturn acc.reverse :: linesFrom [] rest
  | c :: rest => linesFrom (c :: acc) rest

/-- **The lines of a text**, without their ends. -/
def linesOf (text : List Char) : List (List Char) := linesFrom [] text

/-- Each line with a line feed behind it. -/
def unlines (lines : List (List Char)) : List Char := lines.flatMap (· ++ ['\n'])

end UserDirectory
