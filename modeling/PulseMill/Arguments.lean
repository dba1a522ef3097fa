import PulseMill.Decimal.Reading
import PulseMill.Log
set_option autoImplicit false

namespace PulseMill

inductive Command where
  | assemble (source : String) (output : Option String)
  | disasm (image : String)
  | run (program : String)
  | testRegisters
  | testPulse (hz : Float) (count widthNs : UInt32)
  | testOutputs (delayMs : UInt64)

structure Arguments where
  command : Command
  config : Option String := none
  simulate : Bool := false
  verbosity : Verbosity := ⟨some .info⟩

namespace Arguments

structure OptionName where
  long : String
  short : Option Char := none
  takesValue : Bool := true
  deriving DecidableEq

def globalOptions : List OptionName :=
  [{ long := "config", short := some 'c' },
    { long := "simulate", takesValue := false },
    { long := "log-level", short := some 'l' }]

def ownOptions : String → List OptionName
  | "assemble" => [{ long := "output", short := some 'o' }]
  | "test-pulse" => [{ long := "count" }, { long := "width" }]
  | "test-leds" => [{ long := "delay" }]
  | _ => []

def commandNames : List String :=
  ["assemble", "disasm", "run", "test-cnc", "test-pulse", "test-leds"]

structure Sorted where
  options : List (String × String) := []
  positional : List String := []

def Sorted.value? (s : Sorted) (long : String) : Option String :=
  (s.options.find? fun o => o.1 = long).map Prod.snd

def Sorted.add? (s : Sorted) (long value : String) : Option Sorted :=
  if (s.value? long).isSome then none else some { s with options := (long, value) :: s.options }

inductive Shape where
  | plain
  | dashes
  | long (name : String) (value : Option String)
  | short (letter : Char) (attached : String)

def shape (word : String) : Shape :=
  match word.toList with
  | ['-', '-'] => .dashes
  | '-' :: '-' :: cs =>
    match cs.dropWhile (· ≠ '=') with
    | '=' :: value => .long (String.ofList (cs.takeWhile (· ≠ '='))) (some (String.ofList value))
    | _ => .long (String.ofList cs) none
  | '-' :: c :: cs => .short c (String.ofList cs)
  | _ => .plain

def Shape.isPlain : Shape → Bool
  | plain => true
  | _ => false

def attachedValue (s : String) : String :=
  match s.toList with
  | '=' :: cs => String.ofList cs
  | cs => String.ofList cs

/-- Sorts words up to the first command among `commands`, and leaves it with what
follows. An option's value never looks like an option itself. -/
def sort? (options : List OptionName) (commands : List String) :
    Sorted → List String → Option (Sorted × List String)
  | s, [] => some (s, [])
  | s, word :: more =>
    if word ∈ commands then some (s, word :: more)
    else
      match shape word with
      | .plain => sort? options commands { s with positional := s.positional ++ [word] } more
      | .dashes => some ({ s with positional := s.positional ++ more }, [])
      | .long name value? => do
        let o ← options.find? fun o => o.long = name
        match o.takesValue, value?, more with
        | false, none, more => sort? options commands (← s.add? o.long "") more
        | true, some value, more => sort? options commands (← s.add? o.long value) more
        | true, none, value :: more =>
          if (shape value).isPlain then sort? options commands (← s.add? o.long value) more
          else none
        | _, _, _ => none
      | .short letter attached => do
        let o ← options.find? fun o => o.short = some letter
        match attached, more with
        | "", value :: more =>
          if (shape value).isPlain then sort? options commands (← s.add? o.long value) more
          else none
        | "", [] => none
        | attached, more => sort? options commands (← s.add? o.long (attachedValue attached)) more

def readPath? (s : String) : Option String := if s.isEmpty then none else some s

def readDigits? (ds : List Char) : Option Nat :=
  if ds.isEmpty || !ds.all Char.isDigit then none else some (Decimal.natOfDigits ds)

/-- A number of 32 bits. It may have a sign, though minus goes with zero only. -/
def readWord? (s : String) : Option UInt32 := do
  let n ← match s.toList with
    | '+' :: ds => readDigits? ds
    | '-' :: ds => (readDigits? ds).filter (· = 0)
    | ds => readDigits? ds
  if n < UInt32.size then some (UInt32.ofNat n) else none

def readLong? (s : String) : Option UInt64 := do
  let n ← match s.toList with
    | '+' :: ds => readDigits? ds
    | ds => readDigits? ds
  if n < UInt64.size then some (UInt64.ofNat n) else none

def Sorted.read? {α : Type} (s : Sorted) (long : String) (read : String → Option α) (usual : α) :
    Option α :=
  match s.value? long with
  | none => some usual
  | some value => read value

def command? (name : String) (s : Sorted) : Option Command :=
  match name, s.positional with
  | "assemble", [source] => do
    return .assemble (← readPath? source)
      (← s.read? "output" (fun p => (readPath? p).map some) none)
  | "disasm", [image] => do return .disasm (← readPath? image)
  | "run", [program] => do return .run (← readPath? program)
  | "test-cnc", [] => some .testRegisters
  | "test-pulse", positional => do
    let hz ← match positional with
      | [] => some 1000
      | [hz] => Decimal.readFloat? hz
      | _ => none
    return .testPulse hz (← s.read? "count" readWord? 1000) (← s.read? "width" readWord? 500)
  | "test-leds", [] => do return .testOutputs (← s.read? "delay" readLong? 50)
  | _, _ => none

def withGlobals? (a : Arguments) (s : Sorted) : Option Arguments := do
  let config ← s.read? "config" (fun p => (readPath? p).map some) a.config
  let verbosity ← s.read? "log-level" Verbosity.ofName? a.verbosity
  return { a with config, verbosity, simulate := a.simulate || (s.value? "simulate").isSome }

def parse? (words : List String) : Option Arguments := do
  let (before, rest) ← sort? globalOptions commandNames {} words
  match rest with
  | [] => none
  | name :: rest =>
    if !before.positional.isEmpty then failure
    let (after, _) ← sort? (globalOptions ++ ownOptions name) [] {} rest
    let command ← command? name after
    (← withGlobals? { command } before).withGlobals? after

end Arguments

end PulseMill
