import PulseMill.Controller
import PulseMill.Log
import PulseMill.Timing
import PulseMill.Window
import PulseMill.Text.Quoted
import PulseMill.Yaml.Node
set_option autoImplicit false

namespace PulseMill

structure Settings where
  map : Window := {}
  controller : Controller.Settings := {}
  timing : Timing := {}
  deriving DecidableEq, Repr

namespace Settings

open Yaml (Node)

def textNode? : Node → Option String
  | .scalar text .. => some text
  | _ => none

/-- A key may be given once only. References mean what they stand for in the tree of
`root`. -/
def fromEntries (root : Node) (names : List String) (found : List (Option Node)) :
    List (Node × Node) → Option (List (Option Node))
  | [] => some found
  | (key, value) :: more => do
    let key ← (root.resolve key).bind textNode?
    match names.idxOf? key with
    | none => fromEntries root names found more
    | some i =>
      if (found[i]?.join).isSome then failure
      fromEntries root names (found.set i (← root.resolve value)) more

def fields (root : Node) (names : List String) : Node → Option (List (Option Node))
  | .mapping entries => fromEntries root names (names.map fun _ => none) entries
  | .scalar "" .plain _ => some (names.map fun _ => none)
  | _ => none

def field {α : Type} (found : List (Option Node)) (i : Nat) (usual : α)
    (read : Node → Option α) : Option α :=
  match found[i]?.join with
  | none => some usual
  | some node => read node

def digitsNat? (base : Nat) (ds : List Char) : Option Nat :=
  if ds.isEmpty then none
  else ds.foldlM (fun n c => (Yaml.hexDigit? c).bind fun d =>
    if d < base then some (base * n + d) else none) 0

def isPaddedNumber : List Char → Bool
  | '0' :: c :: rest => (c :: rest).all Char.isDigit
  | _ => false

def readNat? (text : String) : Option Nat :=
  let unsigned := match text.toList with
    | '+' :: rest => rest
    | rest => rest
  match unsigned with
  | '0' :: 'x' :: ds => digitsNat? 16 ds
  | '0' :: 'o' :: ds => digitsNat? 8 ds
  | '0' :: 'b' :: ds => digitsNat? 2 ds
  | ds => if isPaddedNumber ds then none else digitsNat? 10 ds

/-- The text of a scalar that may be more than a text: a plain one, or a literal one
with a tag that says so. -/
def valueNode? (kind : String) : Node → Option String
  | .scalar text .plain _ => some text
  | .scalar text .literal (some tag) =>
    if tag = "tag:yaml.org,2002:" ++ kind then some text else none
  | _ => none

def natNode? (limit : Nat) (n : Node) : Option Nat :=
  ((valueNode? "int" n).bind readNat?).filter (· < limit)

def wordNode? (n : Node) : Option UInt32 := (natNode? UInt32.size n).map UInt32.ofNat

def longNode? (n : Node) : Option UInt64 := (natNode? UInt64.size n).map UInt64.ofNat

def boolNode? (n : Node) : Option Bool := do
  let text ← valueNode? "bool" n
  if text ∈ ["true", "True", "TRUE"] then some true
  else if text ∈ ["false", "False", "FALSE"] then some false
  else none

def windowNode? (root n : Node) : Option Window := do
  let usual : Window := {}
  let found ← fields root ["device", "physical_base", "bridge_offset", "span"] n
  let device ← field found 0 usual.device textNode?
  let physicalBase ← field found 1 usual.physicalBase longNode?
  let bridgeOffset ← field found 2 usual.bridgeOffset longNode?
  let span ← field found 3 usual.span longNode?
  return { device, physicalBase, bridgeOffset, span }

def controllerNode? (root n : Node) : Option Controller.Settings := do
  let usual : Controller.Settings := {}
  let found ← fields root ["poll_limit", "start_on_commit", "check_status_on_stage"] n
  let pollLimit ← field found 0 usual.pollLimit wordNode?
  let startOnCommit ← field found 1 usual.startOnCommit boolNode?
  let checkOnStage ← field found 2 usual.checkOnStage boolNode?
  return { pollLimit, startOnCommit, checkOnStage }

def timingNode? (root n : Node) : Option Timing := do
  let usual : Timing := {}
  let found ← fields root ["base_clock_hz", "pulse_rate_scale", "pulse_width_scale"] n
  let baseClockHz ← field found 0 usual.baseClockHz wordNode?
  let rateScale ← field found 1 usual.rateScale wordNode?
  let widthScale ← field found 2 usual.widthScale wordNode?
  return { baseClockHz, rateScale, widthScale }

def ofNode? (root : Node) : Option Settings := do
  let found ← fields root ["map", "controller", "timing"] (← root.resolve root)
  let map ← field found 0 {} (windowNode? root)
  let controller ← field found 1 {} (controllerNode? root)
  let timing ← field found 2 {} (timingNode? root)
  return { map, controller, timing }

def ofText? (text : String) : Option Settings := (Node.parse? text).bind ofNode?

def text (s : Settings) : String :=
  "AppConfig \x7b map: MapConfig \x7b device: " ++ Text.quoted s.map.device ++
    s!", physical_base: {s.map.physicalBase}, bridge_offset: {s.map.bridgeOffset}" ++
    s!", span: {s.map.span} \x7d, controller: ControllerConfig \x7b " ++
    s!"poll_limit: {s.controller.pollLimit}, start_on_commit: {s.controller.startOnCommit}" ++
    s!", check_status_on_stage: {s.controller.checkOnStage} \x7d, timing: TimingConfig \x7b " ++
    s!"base_clock_hz: {s.timing.baseClockHz}, pulse_rate_scale: {s.timing.rateScale}" ++
    s!", pulse_width_scale: {s.timing.widthScale} \x7d \x7d"

def loadedLine (path : String) (s : Settings) : Line := ⟨.debug, s!"loaded {path}: {s.text}"⟩

end Settings

end PulseMill
