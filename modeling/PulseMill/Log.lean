import PulseMill.Text.Letters
set_option autoImplicit false

namespace PulseMill

inductive Level where
  | error | warn | info | debug | trace
  deriving DecidableEq, Repr

namespace Level

def rank : Level → Nat
  | error => 1
  | warn => 2
  | info => 3
  | debug => 4
  | trace => 5

def name : Level → String
  | error => "ERROR"
  | warn => "WARN"
  | info => "INFO"
  | debug => "DEBUG"
  | trace => "TRACE"

def all : List Level := [error, warn, info, debug, trace]

end Level

structure Verbosity where
  level? : Option Level
  deriving DecidableEq, Repr

namespace Verbosity

def off : Verbosity := ⟨none⟩

def shows (v : Verbosity) (l : Level) : Bool :=
  match v.level? with
  | none => false
  | some least => l.rank ≤ least.rank

@[simp] theorem shows_off (l : Level) : off.shows l = false := rfl

def ofName? (s : String) : Option Verbosity :=
  if Text.sameName "off" s then some off
  else (Level.all.find? fun l => Text.sameName l.name s).map fun l => ⟨some l⟩

end Verbosity

structure Line where
  level : Level
  text : String
  deriving DecidableEq, Repr

def Line.render (l : Line) : String := l.level.name ++ " " ++ l.text

def Verbosity.filter (v : Verbosity) (lines : List Line) : List Line :=
  lines.filter fun l => v.shows l.level

end PulseMill
