import PulseMill.Text.Blank
set_option autoImplicit false

namespace PulseMill.Text

/-- A line feed ends a line, together with one carriage return before it. A
carriage return at the end of an unfinished last line stays. -/
def withoutReturn (line : List Char) : List Char :=
  if line.getLast? = some '\r' then line.dropLast else line

def lines (text : List Char) : List (List Char) :=
  let pieces := text.splitOn '\n'
  let finished := pieces.dropLast.map withoutReturn
  match pieces.getLast? with
  | none | some [] => finished
  | some rest => finished ++ [rest]

def beforeComment (line : List Char) : List Char := line.takeWhile (· ≠ ';')

/-- The tokens of a line: its text up to the comment, cut at the commas, without
the blanks around each piece. A blank line has none. -/
def tokens (line : List Char) : List (List Char) :=
  let body := trim (beforeComment line)
  if body.isEmpty then [] else (body.splitOn ',').map trim

end PulseMill.Text
