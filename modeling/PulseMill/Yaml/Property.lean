import PulseMill.Yaml.Scalar
import PulseMill.Yaml.Token
set_option autoImplicit false

namespace PulseMill.Yaml

def isNameChar (c : Char) : Bool := c.isAlphanum || c = '_' || c = '-'

def readName (cells : List Cell) : Scanned :=
  (chars (cells.takeWhile fun c => isNameChar c.char), cells.dropWhile fun c => isNameChar c.char)

def anchorName? (cells : List Cell) : Option (String × List Cell) :=
  let (name, rest) := readName cells
  let ends := rest.head?.all fun c => c.isGap || "?:,]\x7d%@\x60".toList.contains c.char
  if name.isEmpty || !ends then none else some (String.ofList name, rest)

def octet? : List Cell → Option (Nat × List Cell)
  | mark :: high :: low :: rest => do
    if mark.char ≠ '%' then failure
    return (16 * (← hexDigit? high.char) + (← hexDigit? low.char), rest)
  | _ => none

def moreOctets? : Nat → List Cell → Option Scanned
  | 0, cells => some ([], cells)
  | n + 1, cells => do
    let (octet, rest) ← octet? cells
    if octet / 64 ≠ 2 then failure
    (moreOctets? n rest).map (.onto [Char.ofNat octet])

def octets? (cells : List Cell) : Option Scanned := do
  let (octet, rest) ← octet? cells
  let more ←
    if octet < 0x80 then some 0
    else if octet / 32 = 6 then some 1
    else if octet / 16 = 14 then some 2
    else if octet / 8 = 30 then some 3
    else none
  (moreOctets? more rest).map (.onto [Char.ofNat octet])

/-- Commas and square brackets stand in a tag only where it is given in full. -/
def isUriChar (full : Bool) (c : Char) : Bool :=
  isNameChar c || ";/?:@&=+$.!~*'()".toList.contains c || (full && ",[]".toList.contains c)

def decodeUri : (fuel : Nat) → List Cell → Option (List Char)
  | 0, cells => if cells.isEmpty then some [] else none
  | _, [] => some []
  | fuel + 1, c :: rest => do
    if c.char = '%' then
      let (text, rest) ← octets? (c :: rest)
      return text ++ (← decodeUri fuel rest)
    else return c.char :: (← decodeUri fuel rest)

def uri? (full : Bool) (cells : List Cell) : Option Scanned := do
  let inUri (c : Cell) : Bool := c.char = '%' || isUriChar full c.char
  let run := cells.takeWhile inUri
  return (← decodeUri run.length run, cells.dropWhile inUri)

/-- A handle from its exclamation mark on: with a name, it ends in another mark. The
answer's flag tells whether it does. -/
def readHandle (cells : List Cell) : Scanned × Bool :=
  let (name, rest) := readName (cells.drop 1)
  if startsWith '!' rest then (('!' :: name ++ ['!'], rest.drop 1), true)
  else (('!' :: name, rest), false)

/-- A tag as its handle and its ending. A tag in full has no handle, nor has the mark
alone. -/
def tag? (flow : Bool) (cells : List Cell) : Option (Token × List Cell) := do
  let (token, rest) ←
    if startsWith '<' (cells.drop 1) then do
      let (ending, rest) ← uri? true (cells.drop 2)
      if ending.isEmpty || !startsWith '>' rest then failure
      some (Token.tag "" (String.ofList ending), rest.drop 1)
    else do
      let ((handle, rest), closed) := readHandle cells
      let (ending, rest) ← uri? false rest
      if closed then
        if ending.isEmpty then failure
        some (Token.tag (String.ofList handle) (String.ofList ending), rest)
      else
        let ending := handle.drop 1 ++ ending
        if ending.isEmpty then some (Token.tag "" "!", rest)
        else some (Token.tag "!" (String.ofList ending), rest)
  if gapNext rest || (flow && startsWith ',' rest) then some (token, rest) else none

def isVersionNumber (digits : List Cell) : Bool := 0 < digits.length && digits.length < 10

def version? (cells : List Cell) : Option (Token × List Cell) := do
  let isDigit (c : Cell) : Bool := c.char.isDigit
  let major := cells.takeWhile isDigit
  let rest := cells.dropWhile isDigit
  if !isVersionNumber major || !startsWith '.' rest then failure
  let minor := (rest.drop 1).takeWhile isDigit
  if !isVersionNumber minor then failure
  let number (digits : List Cell) : Nat :=
    digits.foldl (fun n c => 10 * n + (c.char.toNat - '0'.toNat)) 0
  if number major = 1 ∧ (number minor = 1 ∨ number minor = 2) then
    some (.version, (rest.drop 1).dropWhile isDigit)
  else none

def tagHandle? (cells : List Cell) : Option (Token × List Cell) := do
  if !startsWith '!' cells then failure
  let ((handle, rest), closed) := readHandle cells
  if !closed && handle ≠ ['!'] then failure
  if !rest.head?.any Cell.isBlank then failure
  let (lead, rest) ← uri? true (rest.dropWhile Cell.isBlank)
  if lead.isEmpty || !gapNext rest then failure
  return (.tagHandle (String.ofList handle) (String.ofList lead), rest)

def directive? (cells : List Cell) : Option (Token × List Cell) := do
  let (name, rest) := readName cells
  if !gapNext rest then failure
  let rest := rest.dropWhile Cell.isBlank
  let (token, rest) ←
    if name = "YAML".toList then version? rest
    else if name = "TAG".toList then tagHandle? rest
    else none
  return (token, ← nextLine? rest)

end PulseMill.Yaml
