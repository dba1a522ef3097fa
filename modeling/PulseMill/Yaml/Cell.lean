set_option autoImplicit false

namespace PulseMill.Yaml

/-- A place counts bytes from the start of the text, and characters from the start of
its line. -/
structure Place where
  index : Nat := 0
  line : Nat := 0
  column : Nat := 0
  deriving DecidableEq, Repr

structure Cell where
  char : Char
  place : Place
  deriving DecidableEq, Repr

def isBlank (c : Char) : Bool := c = ' ' || c = '\t'

def isBreak (c : Char) : Bool := c = '\n' || c = '\u2028' || c = '\u2029'

def isAllowed (c : Char) : Bool :=
  let n := c.toNat
  n = 0x9 || n = 0xA || n = 0xD || (0x20 ≤ n && n ≤ 0x7E) || n = 0x85 ||
    (0xA0 ≤ n && n ≤ 0xFFFD) || 0x10000 ≤ n

def Place.after (here : Place) (c : Char) (bytes : Nat) : Place :=
  if isBreak c then { index := here.index + bytes, line := here.line + 1, column := 0 }
  else { here with index := here.index + bytes, column := here.column + 1 }

namespace Cell

def column (c : Cell) : Nat := c.place.column

def isBlank (c : Cell) : Bool := Yaml.isBlank c.char

def isBreak (c : Cell) : Bool := Yaml.isBreak c.char

def isGap (c : Cell) : Bool := c.isBlank || c.isBreak

def ofChars? (here : Place) : List Char → Option (List Cell)
  | [] => some []
  | '\r' :: '\n' :: rest => do
    let cells ← ofChars? (here.after '\n' 2) rest
    return ⟨'\n', here⟩ :: cells
  | c :: rest => do
    if !isAllowed c then failure
    let char := if c = '\r' || c = '\u0085' then '\n' else c
    let cells ← ofChars? (here.after char c.utf8Size) rest
    return ⟨char, here⟩ :: cells

def ofText? (text : String) : Option (List Cell) := ofChars? {} text.toList

end Cell

def chars (cells : List Cell) : List Char := cells.map Cell.char

def startsWith (c : Char) (cells : List Cell) : Bool := cells.head?.any fun d => d.char = c

def gapNext (cells : List Cell) : Bool := cells.head?.all Cell.isGap

def isMarker (mark : Char) : List Cell → Bool
  | a :: b :: c :: rest =>
    a.column = 0 && a.char = mark && b.char = mark && c.char = mark && gapNext rest
  | _ => false

def isBoundary (cells : List Cell) : Bool := isMarker '-' cells || isMarker '.' cells

def nextLine? (cells : List Cell) : Option (List Cell) :=
  let rest := cells.dropWhile Cell.isBlank
  let rest := if startsWith '#' rest then rest.dropWhile (!Cell.isBreak ·) else rest
  match rest with
  | [] => some []
  | c :: rest => if c.isBreak then some rest else none

end PulseMill.Yaml
