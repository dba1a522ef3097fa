import PulseMill.Yaml.Cell
set_option autoImplicit false

namespace PulseMill.Yaml

abbrev Scanned := List Char × List Cell

def Scanned.onto (text : List Char) (s : Scanned) : Scanned := (text ++ s.1, s.2)

def folded (gap : List Char) : List Char :=
  match gap.filter isBreak with
  | [] => gap
  | ['\n'] => [' ']
  | '\n' :: more => more
  | breaks => breaks

/-- The rest of a single-quoted scalar after a gap in it, whose last character comes
first. A quote is written twice. -/
def singleQuoted (gap : List Char) : List Cell → Option Scanned
  | [] => none
  | c :: rest =>
    if isBoundary (c :: rest) then none
    else if c.isGap then singleQuoted (c.char :: gap) rest
    else if c.char ≠ '\'' then (singleQuoted [] rest).map (.onto (folded gap.reverse ++ [c.char]))
    else match rest with
      | [] => some (folded gap.reverse, [])
      | d :: more =>
        if d.char = '\'' then (singleQuoted [] more).map (.onto (folded gap.reverse ++ ['\'']))
        else some (folded gap.reverse, d :: more)

def hexDigit? (c : Char) : Option Nat :=
  if c.isDigit then some (c.toNat - '0'.toNat)
  else if 'a' ≤ c ∧ c ≤ 'f' then some (c.toNat - 'a'.toNat + 10)
  else if 'A' ≤ c ∧ c ≤ 'F' then some (c.toNat - 'A'.toNat + 10)
  else none

def numbered? (digits : Nat) (cells : List Cell) : Option (Char × List Cell) := do
  if (cells.take digits).length < digits then failure
  let n ← (cells.take digits).foldlM (fun n c => (hexDigit? c.char).map (16 * n + ·)) 0
  if n.isValidChar then some (Char.ofNat n, cells.drop digits) else none

def letterEscape? : Char → Option Char
  | '0' => some '\x00'
  | 'a' => some '\x07'
  | 'b' => some '\x08'
  | 't' | '\t' => some '\t'
  | 'n' => some '\n'
  | 'v' => some '\x0b'
  | 'f' => some '\x0c'
  | 'r' => some '\r'
  | 'e' => some '\x1b'
  | ' ' => some ' '
  | '"' => some '"'
  | '/' => some '/'
  | '\\' => some '\\'
  | 'N' => some '\u0085'
  | '_' => some '\u00a0'
  | 'L' => some '\u2028'
  | 'P' => some '\u2029'
  | _ => none

def escape? : List Cell → Option (Char × List Cell)
  | [] => none
  | c :: rest =>
    match c.char with
    | 'x' => numbered? 2 rest
    | 'u' => numbered? 4 rest
    | 'U' => numbered? 8 rest
    | letter => (letterEscape? letter).map (·, rest)

def gapText (cells : List Cell) : List Char := chars (cells.takeWhile Cell.isGap)

def afterGap (cells : List Cell) : List Cell := cells.dropWhile Cell.isGap

/-- A line break after a backslash is dropped with the blanks that follow, and then
every further break stands for itself. -/
def doubleQuoted : (fuel : Nat) → List Cell → Option Scanned
  | 0, _ => none
  | _, [] => none
  | fuel + 1, c :: rest =>
    if isBoundary (c :: rest) then none
    else if c.char = '"' then some ([], rest)
    else if c.isGap then
      (doubleQuoted fuel (afterGap rest)).map (.onto (folded (c.char :: gapText rest)))
    else if c.char ≠ '\\' then (doubleQuoted fuel rest).map (.onto [c.char])
    else if rest.head?.any Cell.isBreak then
      let gap := rest.drop 1
      (doubleQuoted fuel (afterGap gap)).map (.onto ((gapText gap).filter isBreak))
    else do
      let (d, rest) ← escape? rest
      (doubleQuoted fuel rest).map (.onto [d])

def isFlowMark (c : Char) : Bool := c = ',' || c = '[' || c = ']' || c = '{' || c = '}'

def isIndicator (c : Char) : Bool :=
  isFlowMark c || "-?:#&*!|>'\"%@\x60".toList.contains c

def startsPlain (flow : Bool) : List Cell → Bool
  | [] => false
  | c :: rest =>
    if c.char = '-' then !gapNext rest
    else if c.char = '?' || c.char = ':' then !flow && !gapNext rest
    else !c.isGap && !isIndicator c.char

def endsPlain (flow : Bool) (c : Cell) (rest : List Cell) : Bool :=
  (c.char = ':' && gapNext rest) || (flow && isFlowMark c.char)

/-- Within a flow collection a colon right before one of its marks is refused. -/
def isTightColon (c : Cell) (rest : List Cell) : Bool :=
  c.char = ':' && rest.head?.any fun d => isFlowMark d.char || d.char = '?'

def isOutside (least : Nat) (gap : List Char) (c : Cell) : Bool :=
  c.column < least && gap.any isBreak

/-- The rest of a plain scalar after a gap in it, whose last character comes first. It
is continued on lines that start at column `least` or further right, and no tab may
stand left of there. The answer's flag tells whether a line break follows it. -/
def plainScalar (flow : Bool) (least : Nat) (gap : List Char) :
    List Cell → Option (Scanned × Bool)
  | [] => some (([], []), gap.any isBreak)
  | c :: rest =>
    if c.isGap then
      if c.char = '\t' && isOutside least gap c then none
      else plainScalar flow least (c.char :: gap) rest
    else if (!gap.isEmpty && c.char = '#') || isBoundary (c :: rest) ||
        (!flow && isOutside least gap c) || endsPlain flow c rest then
      some (([], c :: rest), gap.any isBreak)
    else if flow && isTightColon c rest then none
    else (plainScalar flow least [] rest).map fun (scanned, broken) =>
      (scanned.onto (folded gap.reverse ++ [c.char]), broken)

end PulseMill.Yaml
