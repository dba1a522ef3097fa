import PulseMill.Proofs.Questions
import PulseMill.Simulator
set_option autoImplicit false

namespace PulseMill

open Controller (Settings)

/-- What can be asked of a controller, and single accesses past it. -/
inductive Operation where
  | setUp
  | selfTest
  | reset
  | emergencyStop
  | clearSticky
  | enableMotion
  | status
  | stage (b : Block)
  | awaitRoom
  | awaitIdle
  | load (b : Block) (start : Bool)
  | execute
  | writeOutputs (g : Controller.Group)
  | readInputs
  | read (r : Register)
  | write (r : Register) (w : UInt32)

namespace Operation

def Result : Operation → Type
  | reset | clearSticky | writeOutputs _ | write .. => Unit
  | status | emergencyStop => Status
  | readInputs => Controller.Group
  | read _ => UInt32
  | execute => Except HardwareError Nat
  | setUp | selfTest | stage _ => Except HardwareError Unit
  | enableMotion | awaitRoom | awaitIdle | load .. => Except HardwareError Status

/-- What the operation does on the bus and to the array, and what it returns. -/
def perform (cfg : Settings) (v : Verbosity) (a : BlockArray Block) :
    (op : Operation) → Drive (op.Result × BlockArray Block)
  | setUp => do return (← (Controller.setUp v).run, a)
  | selfTest => do return (← Controller.selfTest.run, a)
  | reset => do return (← Controller.reset, a)
  | emergencyStop => do return (← Controller.emergencyStop, a)
  | clearSticky => do return (← Controller.clearSticky, a)
  | enableMotion => do return (← Controller.enableMotion.run, a)
  | status => do return (← Controller.status, a)
  | stage b => do return (← (Controller.stage cfg b).run, a)
  | awaitRoom => do return (← (Controller.awaitRoom cfg).run, a)
  | awaitIdle => do return (← (Controller.awaitIdle cfg).run, a)
  | load b start => do return (← (Controller.load cfg b start).run, a)
  | execute => Controller.execute cfg a
  | writeOutputs g => do return (← Controller.writeOutputs g, a)
  | readInputs => do return (← Controller.readInputs, a)
  | read r => do return (← Bus.read r, a)
  | write r w => do return (← Bus.write r w, a)

def drive (cfg : Settings) (v : Verbosity) (a : BlockArray Block) (op : Operation) :
    Drive (BlockArray Block) := do
  let (_, blocks) ← op.perform cfg v a
  return blocks

def commitStart (cfg : Settings) : Operation → Option Bool
  | load _ start => some start
  | execute => some cfg.startOnCommit
  | _ => none

variable {P : Bus.Query → Prop} {op : Operation} {cfg : Settings}

theorem drive_only (h : Harmless P) (hclear : P (.write .command Command.clearSticky))
    (henable : P (.write .command Command.enable)) (hstop : P (.write .command Command.stop))
    (hcommit : ∀ start, op.commitStart cfg = some start → (Controller.commit start).Only P)
    (hreset : op ≠ reset) (hwrite : ∀ r w, op = write r w → P (.write r w))
    (v : Verbosity) (a : BlockArray Block) : (op.drive cfg v a).Only P := by
  refine .bind ?_ fun _ => trivial
  cases op with
  | setUp => exact (h.setUp_only v).bind fun _ => trivial
  | selfTest => exact h.selfTest_only.bind fun _ => trivial
  | reset => exact absurd rfl hreset
  | emergencyStop => exact (h.emergencyStop_only hstop).bind fun _ => trivial
  | clearSticky => exact (Harmless.write_only hclear).bind fun _ => trivial
  | enableMotion => exact (h.enableMotion_only henable).bind fun _ => trivial
  | status => exact h.status_only.bind fun _ => trivial
  | stage b => exact (h.stage_only cfg b).bind fun _ => trivial
  | awaitRoom => exact (h.poll_only ..).bind fun _ => trivial
  | awaitIdle => exact (h.poll_only ..).bind fun _ => trivial
  | load b start => exact (h.load_only (hcommit start rfl) cfg b).bind fun _ => trivial
  | execute => exact h.execute_only (hcommit _ rfl) a
  | writeOutputs g => exact (h.writeOutputs_only g).bind fun _ => trivial
  | readInputs => exact h.readInputs_only.bind fun _ => trivial
  | read r => exact (h.read_only r).bind fun _ => trivial
  | write r w => exact (Harmless.write_only (hwrite r w rfl)).bind fun _ => trivial

theorem outcome_drive_fst {σ : Type} (file : RegisterFile σ) (hop : op ≠ execute) (cfg : Settings)
    (v : Verbosity) (a : BlockArray Block) (s : σ) : (file.outcome (op.drive cfg v a) s).1 = a := by
  cases op <;> first | contradiction | (rw [drive, perform, RegisterFile.outcome_bind, RegisterFile.outcome_bind]; rfl)

end Operation

inductive Action where
  | operate (op : Operation)
  | drain (n : Nat)
  | setAutoDrain (on : Bool)
  | forceError (on : Bool)
  | trip
  | setFault (fault : Option DecoderFault)
  | setWord (r : Register) (w : UInt32)
  | setInput (bank : Bank) (w : UInt32)
  | mount (a : BlockArray Block)

structure Bench where
  sim : Simulator
  blocks : BlockArray Block

namespace Action

def effect (cfg : Settings) (v : Verbosity) : Action → Bench → Bench
  | operate op, b =>
    let (blocks, sim, _) := Simulator.file.run v (op.drive cfg v b.blocks) b.sim
    ⟨sim, blocks⟩
  | drain n, b => { b with sim := b.sim.drain n }
  | setAutoDrain on, b => { b with sim := b.sim.setAutoDrain on }
  | forceError on, b => { b with sim := b.sim.forceError on }
  | trip, b => { b with sim := b.sim.trip }
  | setFault fault, b => { b with sim := b.sim.setFault fault }
  | setWord r w, b => { b with sim := b.sim.setWord r w }
  | setInput bank w, b => { b with sim := b.sim.setInput bank w }
  | mount a, b => { b with blocks := a }

/-- The accesses on the bus, each with the state it leaves. -/
def events (cfg : Settings) (v : Verbosity) : Action → Bench → List (Event Simulator)
  | operate op, b => Simulator.file.events (op.drive cfg v b.blocks) b.sim
  | _, _ => []

theorem effect_operate (cfg : Settings) (v : Verbosity) (op : Operation) (b : Bench) :
    (operate op).effect cfg v b =
      ⟨(Simulator.file.outcome (op.drive cfg v b.blocks) b.sim).2,
        (Simulator.file.outcome (op.drive cfg v b.blocks) b.sim).1⟩ := by
  rw [← Simulator.file.run_fst v, ← Simulator.file.run_state v]
  rfl

end Action

def Bench.run (cfg : Settings) (v : Verbosity) (acts : List Action) (b : Bench) : Bench :=
  acts.foldl (fun b act => act.effect cfg v b) b

end PulseMill
