import PulseMill.Yaml.BlockScalar
import PulseMill.Yaml.Property
set_option autoImplicit false

/-!
The layout of a YAML text as a row of tokens. A colon makes a key of what stands before
it on its line, so the tokens that open a mapping and a key are put into the row when
the colon is met. Block collections are open as long as lines are indented far enough.
-/

namespace PulseMill.Yaml

/-- A place where a key may have started, with the number of tokens before it. A
required one stands where only a key can. -/
structure PossibleKey where
  count : Nat
  place : Place
  required : Bool
  deriving DecidableEq, Repr

namespace PossibleKey

/-- A key ends on its line, and its colon stands at most 1024 bytes on. -/
def isStale (k : PossibleKey) (here : Place) : Bool :=
  k.place.line < here.line || k.place.index + 1024 < here.index

def check? (here : Place) (key : Option PossibleKey) : Option (Option PossibleKey) :=
  match key with
  | none => some none
  | some k => if !k.isStale here then some key else if k.required then none else some none

end PossibleKey

/-- A text read in part. The newest token is the first; `columns` are those of the block
collections that are open, the innermost first, and `outer` holds a possible key for
each that the open flow collections stand in. -/
structure Layout where
  rest : List Cell
  tokens : List Token := []
  count : Nat := 0
  columns : List Nat := []
  key : Option PossibleKey := none
  outer : List (Option PossibleKey) := []
  keyAllowed : Bool := true
  deriving Repr

namespace Layout

def inFlow (s : Layout) : Bool := !s.outer.isEmpty

def least (s : Layout) : Nat :=
  match s.columns with
  | [] => 0
  | column :: _ => column + 1

def emit (t : Token) (s : Layout) : Layout :=
  { s with tokens := t :: s.tokens, count := s.count + 1 }

def insert (count : Nat) (t : Token) (s : Layout) : Layout :=
  let later := s.count - count
  { s with
    tokens := s.tokens.take later ++ t :: s.tokens.drop later
    count := s.count + 1 }

def close (column : Option Nat) (s : Layout) : Layout :=
  let isClosed (c : Nat) : Bool := column.all (· < c)
  if s.inFlow then s
  else (s.columns.takeWhile isClosed).foldl (fun s _ => s.emit .blockEnd)
    { s with columns := s.columns.dropWhile isClosed }

def openBlock (column count : Nat) (t : Token) (s : Layout) : Layout :=
  if s.inFlow || column < s.least then s
  else { s.insert count t with columns := column :: s.columns }

def dropKey? (s : Layout) : Option Layout :=
  if s.key.any PossibleKey.required then none else some { s with key := none }

def saveKey? (here : Place) (s : Layout) : Option Layout := do
  if !s.keyAllowed then return s
  let s ← s.dropKey?
  let required := !s.inFlow && s.columns.head? = some here.column
  return { s with key := some { count := s.count, place := here, required } }

/-- Past blanks, comments and line breaks. In a block collection a key may start on a
new line, and no tab may stand before it. -/
def skipBlanks (flow : Bool) : (keyAllowed comment : Bool) → List Cell → Bool × List Cell
  | keyAllowed, _, [] => (keyAllowed, [])
  | keyAllowed, comment, c :: rest =>
    if c.isBreak then skipBlanks flow (keyAllowed || !flow) false rest
    else if comment then skipBlanks flow keyAllowed true rest
    else if c.char = ' ' || (c.char = '\t' && (flow || !keyAllowed)) then
      skipBlanks flow keyAllowed false rest
    else if c.char = '#' then skipBlanks flow keyAllowed true rest
    else (keyAllowed, c :: rest)

def outermost? (t : Token) (rest : List Cell) (s : Layout) : Option Layout := do
  let s ← (s.close none).dropKey?
  return { s with keyAllowed := false, rest }.emit t

def openFlow? (t : Token) (here : Place) (rest : List Cell) (s : Layout) : Option Layout := do
  let s ← s.saveKey? here
  return { s with key := none, outer := s.key :: s.outer, keyAllowed := true, rest }.emit t

def closeFlow? (t : Token) (rest : List Cell) (s : Layout) : Option Layout := do
  let s ← s.dropKey?
  return { s with
    key := s.outer.head?.join, outer := s.outer.tail, keyAllowed := false, rest }.emit t

def comma? (rest : List Cell) (s : Layout) : Option Layout := do
  let s ← s.dropKey?
  return { s with keyAllowed := true, rest }.emit .comma

def openAt? (column : Nat) (t : Token) (s : Layout) : Option Layout :=
  if s.inFlow || s.keyAllowed then some (s.openBlock column s.count t) else none

def item? (here : Place) (rest : List Cell) (s : Layout) : Option Layout := do
  let s ← s.openAt? here.column .blockSequence
  let s ← s.dropKey?
  return { s with keyAllowed := true, rest }.emit .item

def key? (here : Place) (rest : List Cell) (s : Layout) : Option Layout := do
  let s ← s.openAt? here.column .blockMapping
  let s ← s.dropKey?
  return { s with keyAllowed := !s.inFlow, rest }.emit .key

def value? (here : Place) (rest : List Cell) (s : Layout) : Option Layout := do
  let s ← match s.key with
    | some k =>
      let s := (s.insert k.count .key).openBlock k.place.column k.count .blockMapping
      some { s with key := none, keyAllowed := false }
    | none => do
      let s ← s.openAt? here.column .blockMapping
      some { s with keyAllowed := !s.inFlow }
  return { s with rest }.emit .value

def part? (t : Token) (here : Place) (rest : List Cell) (s : Layout) : Option Layout := do
  let s ← s.saveKey? here
  return { s with keyAllowed := false, rest }.emit t

def scalarToken (text : List Char) (style : Style) : Token :=
  .scalar (String.ofList text) style

def plain? (here : Place) (cells : List Cell) (s : Layout) : Option Layout := do
  let ((text, rest), broken) ← plainScalar s.inFlow s.least [] cells
  let s ← s.part? (scalarToken text .plain) here rest
  return { s with keyAllowed := broken }

def blockScalarToken? (fuel : Nat) (cells : List Cell) (s : Layout) : Option Layout := do
  let folds := startsWith '>' cells
  let s ← s.dropKey?
  let (text, rest) ← blockScalar? folds s.least fuel (cells.drop 1)
  return { s with keyAllowed := true, rest }.emit
    (scalarToken text (if folds then .folded else .literal))

def token? (fuel : Nat) (c : Cell) (rest : List Cell) (s : Layout) : Option Layout :=
  let here := c.place
  let cells := c :: rest
  let alone := gapNext rest
  if c.char = '%' && c.column = 0 then do
    let (t, rest) ← directive? rest
    s.outermost? t rest
  else if isMarker '-' cells then s.outermost? .documentStart (rest.drop 2)
  else if isMarker '.' cells then s.outermost? .documentEnd (rest.drop 2)
  else if c.char = '[' then s.openFlow? .flowSequence here rest
  else if c.char = '{' then s.openFlow? .flowMapping here rest
  else if c.char = ']' then s.closeFlow? .flowSequenceEnd rest
  else if c.char = '}' then s.closeFlow? .flowMappingEnd rest
  else if c.char = ',' then s.comma? rest
  else if c.char = '-' && alone then s.item? here rest
  else if c.char = '?' && (s.inFlow || alone) then s.key? here rest
  else if c.char = ':' && (s.inFlow || alone) then s.value? here rest
  else if c.char = '*' then do
    let (name, rest) ← anchorName? rest
    s.part? (.reference name) here rest
  else if c.char = '&' then do
    let (name, rest) ← anchorName? rest
    s.part? (.anchor name) here rest
  else if c.char = '!' then do
    let (t, rest) ← tag? s.inFlow cells
    s.part? t here rest
  else if (c.char = '|' || c.char = '>') && !s.inFlow then s.blockScalarToken? fuel cells
  else if c.char = '\'' then do
    let (text, rest) ← singleQuoted [] rest
    s.part? (scalarToken text .singleQuoted) here rest
  else if c.char = '"' then do
    let (text, rest) ← doubleQuoted fuel rest
    s.part? (scalarToken text .doubleQuoted) here rest
  else if startsPlain s.inFlow cells then s.plain? here cells
  else none

/-- Reads to the end, where all block collections are closed. The fuel that is left is
never less than the number of characters, so the scalars can use it too. -/
def finish? : (fuel : Nat) → Layout → Option Layout
  | 0, _ => none
  | fuel + 1, s =>
    match skipBlanks s.inFlow s.keyAllowed false s.rest with
    | (_, []) => (s.close none).dropKey?
    | (keyAllowed, c :: rest) => do
      let key ← PossibleKey.check? c.place s.key
      let outer ← s.outer.mapM (PossibleKey.check? c.place)
      let s ← ({ s with key, outer, keyAllowed }.close (some c.column)).token? fuel c rest
      finish? fuel s

end Layout

namespace Token

def ofText? (text : String) : Option (List Token) := do
  let cells ← Cell.ofText? text
  let rest := if startsWith '\uFEFF' cells then cells.drop 1 else cells
  let s ← Layout.finish? (cells.length + 1) { rest }
  return s.tokens.reverse

end Token

end PulseMill.Yaml
