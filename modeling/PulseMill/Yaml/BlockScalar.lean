import PulseMill.Yaml.Scalar
set_option autoImplicit false

namespace PulseMill.Yaml

/-- What becomes of the line breaks at the end of a block scalar: none is kept, or the
first, or all. -/
inductive Chomping where
  | strip
  | clip
  | keep
  deriving DecidableEq, Repr

namespace Chomping

def read (cells : List Cell) : Chomping × List Cell :=
  if startsWith '-' cells then (strip, cells.drop 1)
  else if startsWith '+' cells then (keep, cells.drop 1)
  else (clip, cells)

def ending (chomping : Chomping) (first further : List Char) : List Char :=
  match chomping with
  | strip => []
  | clip => first
  | keep => first ++ further

end Chomping

def readIndentation? : List Cell → Option (Option Nat × List Cell)
  | [] => some (none, [])
  | c :: rest =>
    if c.char = '0' then none
    else if c.char.isDigit then some (some (c.char.toNat - '0'.toNat), rest)
    else some (none, c :: rest)

/-- Line breaks ahead, past the indentation of each line. Where the column that the
lines start in is not known yet, all spaces belong to it, and the answer's number is the
rightmost column seen. -/
def emptyLines (column : Option Nat) : (rightmost : Nat) → List Cell →
    Option (Scanned × Nat)
  | rightmost, [] => some (([], []), rightmost)
  | rightmost, c :: rest =>
    let indents := column.all (c.column < ·)
    if indents && c.char = ' ' then emptyLines column rightmost rest
    else if indents && c.char = '\t' then none
    else
      let rightmost := max rightmost c.column
      if c.isBreak then
        (emptyLines column rightmost rest).map fun (lines, n) => (lines.onto [c.char], n)
      else some (([], c :: rest), rightmost)

/-- A block scalar's lines from column `column` on. The last line break and the empty
lines since are `first` and `further`; a folded break between two lines that start with
no blank is a space, or nothing if empty lines stand between them. -/
def blockLines (folds : Bool) (chomping : Chomping) (column : Nat) : (fuel : Nat) →
    (afterBlank : Bool) → (first further : List Char) → List Cell → Option Scanned
  | 0, _, _, _, _ => none
  | _, _, first, further, [] => some (chomping.ending first further, [])
  | fuel + 1, afterBlank, first, further, c :: rest =>
    if c.column ≠ column then some (chomping.ending first further, c :: rest)
    else do
      let joint :=
        if folds && first = ['\n'] && !afterBlank && !c.isBlank then
          if further.isEmpty then [' '] else []
        else first
      let line := (c :: rest).takeWhile (!Cell.isBreak ·)
      let below := (c :: rest).dropWhile (!Cell.isBreak ·)
      let ((further', next), _) ← emptyLines (some column) 0 (below.drop 1)
      let first' := chars (below.take 1)
      let scanned ← blockLines folds chomping column fuel c.isBlank first' further' next
      return scanned.onto (joint ++ further ++ chars line)

def blockScalar? (folds : Bool) (least fuel : Nat) (cells : List Cell) : Option Scanned := do
  let (chomping, rest) := Chomping.read cells
  let (more, rest) ← readIndentation? rest
  let (chomping, rest) := if chomping = .clip then Chomping.read rest else (chomping, rest)
  let rest ← nextLine? rest
  let ((further, next), rightmost) ← emptyLines (more.map (least - 1 + ·)) 0 rest
  let column := (more.map (least - 1 + ·)).getD (max (max rightmost least) 1)
  blockLines folds chomping column fuel false [] further next

end PulseMill.Yaml
