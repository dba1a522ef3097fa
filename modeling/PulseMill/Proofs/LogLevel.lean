import PulseMill.Proofs.Operation
import PulseMill.Workbench
set_option autoImplicit false

namespace PulseMill

variable {σ α β : Type}

namespace RegisterFile

/-- The same registers, and the accesses made to them. -/
def recorded (file : RegisterFile σ) : RegisterFile (σ × List Access) where
  read r s := ((file.read r s.1).1, (file.read r s.1).2, s.2 ++ [.read r (file.read r s.1).1])
  write r w s := (file.write r w s.1, s.2 ++ [.write r w])

theorem outcome_recorded (file : RegisterFile σ) (d : Drive α) (s : σ) (before : List Access) :
    file.recorded.outcome d (s, before) =
      ((file.outcome d s).1, (file.outcome d s).2, before ++ file.trace d s) := by
  induction d generalizing s before with
  | done a => simp [trace, events]
  | ask q next ih =>
    cases q with
    | read r => exact (ih _ _ _).trans (by simp [trace, events, outcome, Dialogue.run_ask, reply])
    | write r w =>
      exact (ih _ _ _).trans (by simp [trace, events, outcome, Dialogue.run_ask, reply])
    | note level text => exact ih _ _ _

end RegisterFile

/-- What lies beside the registers: the array that is executed, and a source being read. -/
structure Desk where
  blocks : BlockArray Block
  reader : Assembler

def Desk.mount (desk : Desk) (program : Except Assembly.Error Program) : Desk :=
  match program with
  | .ok p => { desk with blocks := p.blocks }
  | .error _ => desk

/-- Operations of a controller, of an array of blocks, and of an assembler. -/
inductive Service where
  | control (op : Operation)
  | allocate (initial increment : Nat)
  | push (entry : Block)
  | get (i : Nat)
  | peek
  | next
  | seek (i : Nat)
  | rewind
  | clear
  | start
  | readLine (line : String)
  | finish
  | assemble (source : String)

namespace Service

def Answer : Service → Type
  | control op => op.Result
  | seek _ | rewind | clear => Unit
  | allocate .. | push _ | start => Except OutOfMemory Unit
  | get _ | peek | next => Option Block
  | readLine _ => Option Assembly.Error
  | finish | assemble _ => Except Assembly.Error Program

def noteLines (lines : List Line) : Drive Unit :=
  lines.forM fun l => Bus.note l.level fun _ => l.text

def serve (cfg : Controller.Settings) (v : Verbosity) (reserve : Reserve) (desk : Desk) :
    (q : Service) → Drive (q.Answer × Desk)
  | control op => do
    let (r, blocks) ← op.perform cfg v desk.blocks
    return (r, { desk with blocks })
  | allocate initial increment =>
    match BlockArray.withCapacity reserve initial increment with
    | .error e => return (.error e, desk)
    | .ok blocks => return (.ok (), { desk with blocks })
  | push entry =>
    match desk.blocks.push reserve entry with
    | .error e => return (.error e, desk)
    | .ok blocks => do
      noteLines (desk.blocks.narrateGrowth blocks)
      return (.ok (), { desk with blocks })
  | get i => return (desk.blocks.get? i, desk)
  | peek => return (desk.blocks.peek?, desk)
  | next =>
    let (found, blocks) := desk.blocks.next?
    return (found, { desk with blocks })
  | seek i => return ((), { desk with blocks := desk.blocks.seek i })
  | rewind => return ((), { desk with blocks := desk.blocks.rewind })
  | clear => return ((), { desk with blocks := desk.blocks.clear })
  | start =>
    match BlockArray.withCapacity reserve 16 16 with
    | .error e => return (.error e, desk)
    | .ok blocks => return (.ok (), { desk with reader := .ofBlocks blocks })
  | readLine line => do
    noteLines (desk.reader.narrateLine reserve line)
    let reader := desk.reader.readLine reserve line
    return (reader.failed, { desk with reader })
  | finish => do
    noteLines desk.reader.narrateFinish
    return (desk.reader.finish, desk.mount desk.reader.finish)
  | assemble source => do
    noteLines (narrateAssembly reserve source)
    let program := PulseMill.assemble reserve source
    return (program, desk.mount program)

def serveAll (cfg : Controller.Settings) (v : Verbosity) (reserve : Reserve) :
    List Service → Desk → Drive (List ((q : Service) × q.Answer) × Desk)
  | [], desk => return ([], desk)
  | q :: more, desk => do
    let (answer, desk) ← q.serve cfg v reserve desk
    let (answers, desk) ← serveAll cfg v reserve more desk
    return (⟨q, answer⟩ :: answers, desk)

theorem serve_level {cfg : Controller.Settings} {reserve : Reserve} {desk : Desk} {q : Service}
    (h : q ≠ control .setUp) (v w : Verbosity) :
    q.serve cfg v reserve desk = q.serve cfg w reserve desk := by
  cases q with
  | control op => cases op <;> first | contradiction | rfl
  | _ => rfl

theorem serveAll_level {cfg : Controller.Settings} {reserve : Reserve} {services : List Service}
    (h : control .setUp ∉ services) (v w : Verbosity) (desk : Desk) :
    serveAll cfg v reserve services desk = serveAll cfg w reserve services desk := by
  induction services generalizing desk with
  | nil => rfl
  | cons q more ih =>
    rw [List.mem_cons, not_or] at h
    have hfirst : q.serve cfg v reserve desk = q.serve cfg w reserve desk :=
      serve_level (Ne.symm h.1) v w
    simp only [serveAll, hfirst, ih h.2]

end Service

theorem Verbosity.shows_debug_iff {v : Verbosity} :
    v.shows .debug ↔ v.level? = some .debug ∨ v.level? = some .trace := by
  obtain ⟨_ | l⟩ := v
  · simp [shows]
  · cases l <;> simp [shows, Level.rank]

theorem Controller.setUp_eq (v : Verbosity) :
    setUp v = (do
      setUp .off
      if v.shows .debug then
        let s ← status
        Bus.note .debug fun _ => s!"controller initialized, status {s}") := by
  simp [setUp]

/-- A set up whose end is shown reads the status once more than a silent one. -/
theorem RegisterFile.outcome_setUp {file : RegisterFile σ} {r : Except HardwareError Unit}
    {s t : σ} (h : file.outcome (Controller.setUp .off).run s = (r, t)) (v : Verbosity) :
    file.outcome (Controller.setUp v).run s =
      (r, if r.isOk ∧ v.shows .debug then (file.read .status t).2 else t) := by
  rw [Controller.setUp_eq v]
  cases r with
  | error e =>
    rw [outcome_attempt_error h]
    rfl
  | ok u =>
    rw [outcome_attempt_ok h]
    cases v.shows .debug <;> rfl

namespace Dialogue

variable {Q P τ : Type} {A : Q → Type} {B : P → Type}

theorem expand_bind (h : (q : Q) → Dialogue B (A q)) (d : Dialogue A α) (f : α → Dialogue A β) :
    (d >>= f).expand h = d.expand h >>= fun a => (f a).expand h := by
  induction d with
  | done a => rfl
  | ask q next ih =>
    refine Eq.trans ?_ (bind_assoc (h q) (fun answer => (next answer).expand h) _).symm
    exact congrArg _ (funext ih)

theorem run_expand (h : (q : Q) → Dialogue B (A q)) (answer : (p : P) → σ → B p × σ)
    (d : Dialogue A α) (s : σ) :
    (d.expand h).run answer s = d.run (fun q s => (h q).run answer s) s := by
  induction d generalizing s with
  | done a => rfl
  | ask q next ih =>
    rw [run_ask, ← ih]
    exact run_bind answer (h q) _ s

/-- If all answers are alike, so is what comes of them. -/
theorem run_alike {f : (q : Q) → σ → A q × σ} {g : (q : Q) → τ → A q × τ} {R : σ → τ → Prop}
    (h : ∀ q s t, R s t → (f q s).1 = (g q t).1 ∧ R (f q s).2 (g q t).2) (d : Dialogue A α)
    {s : σ} {t : τ} (hst : R s t) :
    (d.run f s).1 = (d.run g t).1 ∧ R (d.run f s).2 (d.run g t).2 := by
  induction d generalizing s t with
  | done a => exact ⟨rfl, hst⟩
  | ask q next ih =>
    obtain ⟨hanswer, hnext⟩ := h q s t hst
    rw [run_ask, run_ask, ← hanswer]
    exact ih _ hnext

end Dialogue

namespace Shell

def hush : (q : Query) → Shell (Answer q)
  | .bus (.note ..) => .done ()
  | q => .ask q .done

def silent (d : Shell α) : Shell α := d.expand hush

theorem silent_bind (d : Shell α) (f : α → Shell β) :
    silent (d >>= f) = silent d >>= fun a => silent (f a) := Dialogue.expand_bind ..

end Shell

namespace Workbench

def unlogged (w : Workbench) : Workbench := { w with log := [] }

theorem openDevice_log (b : Workbench) (log : List Line) (path : String) (m : Mapping) :
    openDevice { b with log } path m = (b.openDevice path m).map fun w => { w with log } := by
  unfold openDevice
  cases b.folder.read path with
  | error e => rfl
  | ok found =>
    obtain ⟨place, bytes⟩ := found
    by_cases hlength : m.length > maxMapping
    · simp only [hlength, if_true]
      rfl
    · by_cases hend : m.base + m.length > Window.fileLimit <;>
        simp only [hlength, hend, if_true, if_false] <;> rfl

theorem answer_hush (v : Verbosity) (q : Shell.Query) (b c : Workbench)
    (h : b.unlogged = c.unlogged) :
    (answer v q b).1 = ((Shell.hush q).run (answer .off) c).1 ∧
      (answer v q b).2.unlogged = ((Shell.hush q).run (answer .off) c).2.unlogged := by
  obtain ⟨folder, target, printed, log⟩ := b
  obtain ⟨_, _, _, log'⟩ := c
  obtain ⟨rfl, rfl, rfl, -⟩ := mk.inj h
  cases q with
  | writeFile path bytes =>
    simp only [Shell.hush, Dialogue.run_ask, answer]
    cases folder.write path bytes <;> exact ⟨rfl, rfl⟩
  | openDevice path m =>
    have hopen := openDevice_log ⟨folder, target, printed, log'⟩ log path m
    simp only [Shell.hush, Dialogue.run_ask, answer, hopen]
    cases openDevice ⟨folder, target, printed, log'⟩ path m <;> exact ⟨rfl, rfl⟩
  | bus q =>
    cases q with
    | read r => cases target <;> exact ⟨rfl, rfl⟩
    | write r word =>
      cases target with
      | device place m =>
        simp only [Shell.hush, Dialogue.run_ask, answer, writeRegister]
        cases folder.file? place <;> exact ⟨rfl, rfl⟩
      | _ => exact ⟨rfl, rfl⟩
    | note level text =>
      simp only [Shell.hush, answer]
      split <;> exact ⟨rfl, rfl⟩
  | _ => exact ⟨rfl, rfl⟩

theorem run_silent (v : Verbosity) (d : Shell α) (b : Workbench) :
    (d.run (answer v) b).1 = (d.silent.run (answer .off) b).1 ∧
      (d.run (answer v) b).2.unlogged = (d.silent.run (answer .off) b).2.unlogged := by
  rw [Shell.silent, Dialogue.run_expand]
  exact d.run_alike (answer_hush v) rfl

end Workbench

namespace Session

theorem silent_noteAll (lines : List Line) : (noteAll lines).run.silent = .done (.ok ()) := by
  induction lines with
  | nil => rfl
  | cons l lines ih => exact ih

theorem silent_of_noted (shown : Bool) (lines : List Line) (t : Task α) :
    (do
      if shown then noteAll lines
      t : Task α).run.silent = t.run.silent := by
  cases shown with
  | false => rfl
  | true =>
    change (noteAll lines >>= fun _ => t).run.silent = _
    rw [ExceptT.run_bind, Shell.silent_bind, silent_noteAll]
    rfl

theorem silent_decodeImage (v : Verbosity) (bytes : ByteArray) :
    (decodeImage v bytes).run.silent =
      .done ((Image.decode reserve bytes.data.toList).mapError .image) := by
  rw [decodeImage, orFail]
  cases Image.decode reserve bytes.data.toList with
  | error e => rfl
  | ok p => exact silent_of_noted ..

theorem silent_assembleSource (v : Verbosity) (source : String) :
    (assembleSource v source).run.silent =
      .done ((PulseMill.assemble reserve source).mapError .assembler) :=
  silent_of_noted ..

theorem silent_loadProgram (v w : Verbosity) (path : String) :
    (loadProgram v path).run.silent = (loadProgram w path).run.silent := by
  simp only [loadProgram, ExceptT.run_bind, Shell.silent_bind]
  congr 1
  funext r
  cases r with
  | error e => rfl
  | ok bytes =>
    simp only
    split
    case isTrue => simp only [silent_decodeImage]
    case isFalse =>
      cases String.fromUTF8? bytes with
      | none => rfl
      | some source => simp only [silent_assembleSource]

end Session

/-- Whatever the registers, operations give the same results at all levels, and leave the same
accesses, registers and blocks behind. A set up that is shown ends with one more status read,
and a program is loaded alike. -/
theorem level_unobserved (file : RegisterFile σ) (s : σ) (cfg : Controller.Settings)
    (reserve : Reserve) (desk : Desk) {services : List Service}
    (h : .control .setUp ∉ services) (bench : Workbench) (path : String) :
    (∃ answers next t accesses, ∀ v,
      file.recorded.Ends v (Service.serveAll cfg v reserve services desk) (s, [])
        (answers, next) (t, accesses)) ∧
    (∃ r t, ∀ v,
      file.recorded.Ends v (Controller.setUp v).run (s, []) r
        (if r.isOk ∧ (v.level? = some .debug ∨ v.level? = some .trace) then
          (file.recorded.read .status t).2
        else t)) ∧
    ∃ r next, ∀ v,
      let (loaded, left) := (Session.loadProgram v path).run.run (Workbench.answer v) bench
      loaded = r ∧ left.unlogged = next := by
  refine ⟨?_, ?_, ?_⟩
  · rcases hr : file.recorded.outcome (Service.serveAll cfg .off reserve services desk) (s, []) with
      ⟨⟨answers, next⟩, t, accesses⟩
    refine ⟨answers, next, t, accesses, fun v => RegisterFile.ends_iff.2 ?_⟩
    rw [Service.serveAll_level h v .off, hr]
  · rcases hr : file.recorded.outcome (Controller.setUp .off).run (s, []) with ⟨r, t⟩
    refine ⟨r, t, fun v => RegisterFile.ends_iff.2 ?_⟩
    rw [RegisterFile.outcome_setUp hr]
    simp only [Verbosity.shows_debug_iff]
  · rcases hr : (Session.loadProgram .off path).run.silent.run (Workbench.answer .off) bench with
      ⟨r, next⟩
    refine ⟨r, next.unlogged, fun v => ?_⟩
    have hv := Workbench.run_silent v (Session.loadProgram v path).run bench
    rw [Session.silent_loadProgram v .off, hr] at hv
    exact hv

/-- On a simulator, a block is pushed and executed. -/
theorem level_unobserved_when_executing :
    .control .setUp ∉ ([.push {}, .control .execute, .control .awaitIdle] : List Service) ∧
      ∃ answers next t accesses, ∀ v,
        Simulator.file.recorded.Ends v
          (Service.serveAll {} v (.machine Block)
            [.push {}, .control .execute, .control .awaitIdle] ⟨.empty, .ofBlocks .empty⟩)
          ({}, []) (answers, next) (t, accesses) :=
  ⟨by simp, (level_unobserved Simulator.file {} {} (.machine Block) ⟨.empty, .ofBlocks .empty⟩
    (by simp) ⟨{}, .nothing, "", []⟩ "").1⟩

end PulseMill
