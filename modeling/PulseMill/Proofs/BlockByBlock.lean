import PulseMill.Proofs.LogLevel
import PulseMill.Proofs.WholeRun
set_option autoImplicit false

namespace PulseMill

def Controller.loadAll (cfg : Settings) (start : Bool) (blocks : List Block) :
    Attempt (List Status) := blocks.mapM fun b => load cfg b start

namespace RegisterFile

variable {σ : Type} (file : RegisterFile σ) (cfg : Controller.Settings)

theorem outcome_load (b : Block) (start : Bool) (s : σ) :
    file.outcome (Controller.load cfg b start).run s =
      match file.outcome (Controller.prepare cfg b).run s with
      | (.error e, t) => (.error e, t)
      | (.ok _, t) =>
        file.outcome Controller.checkedStatus.run (file.outcome (Controller.commit start) t).2 := by
  have hload : Controller.load cfg b start = Controller.prepare cfg b >>= fun _ =>
      liftM (Controller.commit start) >>= fun _ => Controller.checkedStatus >>= fun st =>
        liftM (Bus.note .debug fun _ => s!"block committed, status {st}") >>= fun _ => pure st := by
    simp only [Controller.prepare, bind_assoc, pure_bind]
    rfl
  rw [hload, outcome_attempt_bind]
  rcases file.outcome (Controller.prepare cfg b).run s with ⟨e | u, t⟩
  · rfl
  · dsimp only
    rw [Controller.Attempt.run_lift_bind, outcome_bind, outcome_attempt_bind]
    rcases file.outcome Controller.checkedStatus.run _ with ⟨e | st, u⟩ <;> rfl

theorem outcome_deliver_cons (sent : Nat) (b : Block) (more : List Block) (s : σ) :
    ∃ k, file.outcome (Controller.deliver cfg sent (b :: more)) s =
      match file.outcome (Controller.load cfg b cfg.startOnCommit).run s with
      | (.error e, t) => ((k, .error e), t)
      | (.ok _, t) => file.outcome (Controller.deliver cfg (sent + 1) more) t := by
  rw [Controller.deliver, outcome_bind, outcome_load]
  rcases file.outcome (Controller.prepare cfg b).run s with ⟨e | u, t⟩
  · exact ⟨sent, rfl⟩
  · refine ⟨sent + 1, ?_⟩
    dsimp only
    rw [outcome_bind, outcome_bind]
    rcases file.outcome Controller.checkedStatus.run _ with ⟨e | st, u⟩ <;> rfl

theorem outcome_deliver (sent : Nat) (blocks : List Block) (s : σ) :
    let delivered := file.outcome (Controller.deliver cfg sent blocks) s
    let loaded := file.outcome (Controller.loadAll cfg cfg.startOnCommit blocks).run s
    delivered.2 = loaded.2 ∧ delivered.1.2 = loaded.1.map (fun _ => ()) ∧
      ∀ sts, loaded.1 = .ok sts →
        sts.length = blocks.length ∧ delivered.1.1 = sent + blocks.length := by
  induction blocks generalizing sent s with
  | nil =>
    refine ⟨rfl, rfl, ?_⟩
    rintro - ⟨⟩
    exact ⟨rfl, rfl⟩
  | cons b more ih =>
    obtain ⟨k, hdeliver⟩ := file.outcome_deliver_cons cfg sent b more s
    have hcons : Controller.loadAll cfg cfg.startOnCommit (b :: more) =
        Controller.load cfg b cfg.startOnCommit >>= fun st =>
          Controller.loadAll cfg cfg.startOnCommit more >>= fun sts => pure (st :: sts) :=
      List.mapM_cons
    rw [hdeliver, hcons, outcome_attempt_bind]
    rcases file.outcome (Controller.load cfg b cfg.startOnCommit).run s with ⟨e | st, t⟩
    · exact ⟨rfl, rfl, nofun⟩
    · dsimp only
      obtain ⟨hstate, hended, hcount⟩ := ih (sent + 1) t
      rw [outcome_attempt_bind, hstate, hended]
      generalize file.outcome (Controller.loadAll cfg cfg.startOnCommit more).run t = loaded at *
      obtain ⟨e | sts, u⟩ := loaded
      · exact ⟨rfl, rfl, nofun⟩
      · obtain ⟨hlength, hsent⟩ := hcount sts rfl
        refine ⟨rfl, rfl, ?_⟩
        rintro - ⟨⟩
        rw [List.length_cons, List.length_cons, hlength, hsent]
        exact ⟨rfl, by omega⟩

theorem outcome_execute_loads (a : BlockArray Block) (s : σ) :
    let executed := file.outcome (Controller.execute cfg a) s
    let loaded := file.outcome (Controller.loadAll cfg cfg.startOnCommit a.rest).run s
    executed.2 = loaded.2 ∧ executed.1.1 = loaded.1.map List.length ∧
      executed.1.1 = loaded.1.map fun _ => a.remaining := by
  intro executed loaded
  obtain ⟨hstate, hended, hcount⟩ := file.outcome_deliver cfg 0 a.rest s
  rcases hdeliver : file.outcome (Controller.deliver cfg 0 a.rest) s with ⟨⟨n, ended⟩, t⟩
  have hexecute : executed = ((ended.map fun _ => n, a.seek (a.cursor + n)), t) :=
    outcome_execute hdeliver
  have hloaded :
      file.outcome (Controller.loadAll cfg cfg.startOnCommit a.rest).run s = loaded := rfl
  rw [hdeliver, hloaded] at hstate hended hcount
  rw [hexecute]
  clear_value loaded
  obtain ⟨e | sts, u⟩ := loaded
  · exact ⟨hstate, congrArg (Except.map _) hended, congrArg (Except.map _) hended⟩
  · obtain ⟨hlength, hn⟩ := hcount sts rfl
    have hended : ended = .ok () := hended
    have hn : n = 0 + a.rest.length := hn
    rw [hended, hn, Nat.zero_add, a.length_rest]
    rw [a.length_rest] at hlength
    exact ⟨hstate, congrArg Except.ok hlength.symm, rfl⟩

end RegisterFile

/-- Whatever the registers answer, an execution makes the same accesses as loading the blocks from
the cursor on, one after the other and up to the first error, and leaves the same registers. It
fails with the same error, and otherwise tells how many loads these are. -/
theorem execute_loads_each {σ : Type} (file : RegisterFile σ) (v : Verbosity)
    (cfg : Controller.Settings) (a : BlockArray Block) (s : σ) :
    let loads := (Controller.loadAll cfg cfg.startOnCommit a.rest).run
    let executed := file.run v (Controller.execute cfg a) s
    let loaded := file.run v loads s
    file.trace (Controller.execute cfg a) s = file.trace loads s ∧ executed.2.1 = loaded.2.1 ∧
      executed.1.1 = loaded.1.map List.length ∧
      executed.1.1 = loaded.1.map fun _ => a.remaining := by
  intro loads executed loaded
  obtain ⟨hstate, hresult, hcount⟩ := file.outcome_execute_loads cfg a s
  have hrecord := (file.recorded.outcome_execute_loads cfg a (s, [])).1
  rw [file.outcome_recorded, file.outcome_recorded] at hrecord
  have htrace := (Prod.mk.inj hrecord).2
  rw [List.nil_append, List.nil_append] at htrace
  have hexecuted : executed.1 = _ ∧ executed.2.1 = _ := ⟨file.run_fst v _ s, file.run_state v _ s⟩
  have hloaded : loaded.1 = _ ∧ loaded.2.1 = _ := ⟨file.run_fst v _ s, file.run_state v _ s⟩
  rw [hexecuted.1, hexecuted.2, hloaded.1, hloaded.2]
  exact ⟨htrace, hstate, hresult, hcount⟩

end PulseMill
