import PulseMill.Proofs.SimulatorAccess
set_option autoImplicit false

namespace PulseMill

namespace Words

def putAll (ws : Words) (l : List (Register × UInt32)) : Words :=
  l.foldl (fun ws w => ws.put w.1 w.2) ws

theorem get_putAll_of_not_mem {ws : Words} {l : List (Register × UInt32)} {r : Register}
    (h : r ∉ l.map Prod.fst) : (ws.putAll l).get r = ws.get r := by
  induction l generalizing ws with
  | nil => rfl
  | cons w l ih =>
    obtain ⟨hw, hl⟩ := not_or.1 (mt List.mem_cons.2 h)
    exact (ih hl).trans (get_put_of_ne hw)

theorem get_putAll {ws : Words} {l : List (Register × UInt32)} {r : Register} {w : UInt32}
    (hl : (l.map Prod.fst).Nodup) (h : (r, w) ∈ l) : (ws.putAll l).get r = w := by
  induction l generalizing ws with
  | nil => cases h
  | cons e l ih =>
    obtain ⟨he, hl⟩ := List.nodup_cons.1 hl
    rcases List.mem_cons.1 h with rfl | h
    · exact (get_putAll_of_not_mem he).trans (get_put_self ..)
    · exact ih hl h

end Words

theorem nodup_stagingWrites (b : Block) : (b.stagingWrites.map Prod.fst).Nodup := by
  change List.Nodup (([.x, .y, .z, .a] : List HardwareAxis).flatMap fun axis =>
    AxisField.all.map fun field => Register.staged axis field)
  decide

namespace Simulator

open Controller Access

variable {s t : Simulator} {α : Type}

theorem stagedWords_of_words {b : Block} {ws : Words} {axis : HardwareAxis} {w : AxisWords}
    (h : s.words = ws.putAll b.stagingWrites)
    (hw : (axis, w) ∈ [(HardwareAxis.x, b.x), (.y, b.y), (.z, b.z), (.a, b.a)]) :
    s.stagedWords axis = w := by
  have hfield (field : AxisField) : s.word (.staged axis field) = w.field field := by
    rw [word, h]
    refine Words.get_putAll (nodup_stagingWrites b) (List.mem_flatMap.2 ⟨_, hw, ?_⟩)
    exact List.mem_map.2 ⟨field, AxisField.mem_all field, rfl⟩
  simp only [stagedWords, hfield, AxisWords.field]

theorem stagedBlock_of_words {b : Block} {ws : Words}
    (h : s.words = ws.putAll b.stagingWrites) : s.stagedBlock = b := by
  rw [stagedBlock, stagedWords_of_words h (w := b.x) (by simp),
    stagedWords_of_words h (w := b.y) (by simp), stagedWords_of_words h (w := b.z) (by simp),
    stagedWords_of_words h (w := b.a) (by simp)]

theorem quiet_moves {d : Drive α} (hd : d.Only Quiet) (h : s.fault = none) :
    Moves s [] (file.outcome d s).2 :=
  (hd.keeps (I := fun t => Moves s [] t)
    (fun _ hq _ ht => ht.trans (reply_moves hq (ht.fault.trans h))) (.refl s)).1

theorem bits_of_endsWith {d : Drive α} {st : Status} (hd : d.Only Quiet) (h : s.fault = none)
    (hends : EndsWith (file.trace d s) st) : st.bits = (file.outcome d s).2.statusBits := by
  have keep (q : Bus.Query) (hq : Quiet q) (t : Simulator) (ht : t.fault = none) :
      (file.reply q t).2.fault = none := (reply_moves hq ht).fault.trans ht
  have hkeep := (hd.keeps keep h).2
  rw [EndsWith, RegisterFile.trace, List.getLast?_map, Option.map_eq_some_iff] at hends
  obtain ⟨e, he, haccess⟩ := hends
  obtain ⟨-, before, hbefore, hfrom⟩ := hkeep e (List.mem_of_getLast? he)
  rw [Event.From, haccess] at hfrom
  rw [file.outcome_state, he]
  exact bits_of_read_status hbefore hfrom

theorem words_foldl_access {t : List Access} (h : s.fault = none)
    (ht : ∀ w ∈ writes t, ∃ axis field, w.1 = .staged axis field) :
    (t.foldl file.access s).words = s.words.putAll (writes t) := by
  induction t generalizing s with
  | nil => rfl
  | cons a t ih =>
    cases a with
    | read r w =>
      have hf : (read r s).2.fault = none := (reply_moves (q := .read r) trivial h).fault.trans h
      have hw := read_words h r
      rw [List.foldl_cons, writes_read, ← hw]
      exact ih hf ht
    | write r w =>
      obtain ⟨⟨axis, field, hr⟩, hmore⟩ := List.forall_mem_cons.1 ht
      obtain rfl : r = .staged axis field := hr
      have hs : file.access s (.write (.staged axis field) w) = s.setWord (.staged axis field) w :=
        write_staged h axis field w
      rw [List.foldl_cons, hs]
      exact ih (s := s.setWord (.staged axis field) w) h hmore

/-- Once a block is prepared, it is what a commit would take, and the commit is allowed. -/
theorem prepare_moves (h : s.fault = none) (cfg : Settings) (b : Block) :
    let ended := file.outcome (prepare cfg b).run s
    Moves s [] ended.2 ∧ (ended.1 = .ok () →
      ended.2.stagedBlock = b ∧ ended.2.isFull = false ∧ ended.2.emergency = false) := by
  intro ended
  have hquiet := quiet_harmless.prepare_only cfg b
  refine ⟨quiet_moves hquiet h, fun hok => ?_⟩
  obtain ⟨-, hprepared, -⟩ := prepare_law (file.conversation_trace (prepare cfg b).run s)
  obtain ⟨hwrites, st, hends, hfull, -, hstop⟩ := hprepared hok
  have hbits : st = ⟨ended.2.statusBits⟩ := congrArg Status.mk (bits_of_endsWith hquiet h hends)
  subst hbits
  have hwords : ended.2.words = s.words.putAll b.stagingWrites := by
    rw [← hwrites, ← words_foldl_access h, file.foldl_access_trace]
    intro w hw
    rw [hwrites, ← map_stagingWrite_staging] at hw
    obtain ⟨⟨axis, field, word⟩, -, rfl⟩ := List.mem_map.1 hw
    exact ⟨axis, field, rfl⟩
  exact ⟨stagedBlock_of_words hwords, by simpa using hfull, by simpa using hstop⟩

theorem deliver_moves (h : s.fault = none) (cfg : Settings) (sent : Nat) (blocks : List Block) :
    ∃ k ≤ blocks.length, (file.outcome (deliver cfg sent blocks) s).1.1 = sent + k ∧
      Moves s (blocks.take k) (file.outcome (deliver cfg sent blocks) s).2 := by
  induction blocks generalizing s sent with
  | nil => exact ⟨0, Nat.le_refl 0, rfl, .refl s⟩
  | cons b blocks ih =>
    obtain ⟨hmoves, hready⟩ := prepare_moves h cfg b
    rw [deliver, RegisterFile.outcome_bind]
    generalize file.outcome (prepare cfg b).run s = prepared at hmoves hready
    obtain ⟨r, t⟩ := prepared
    cases r with
    | error e => exact ⟨0, Nat.zero_le _, rfl, hmoves⟩
    | ok u =>
      obtain ⟨hblock, hfull, hstop⟩ := hready rfl
      have hfault : t.fault = none := hmoves.fault.trans h
      have hcommit : Moves t [b] (file.outcome (commit cfg.startOnCommit) t).2 := by
        have hw : (file.outcome (commit cfg.startOnCommit) t).2 = t.command (commitWord cfg) :=
          write_command hfault _
        rw [hw, ← hblock]
        exact commit_moves hfull hstop cfg
      have hsent := hmoves.trans hcommit
      have hcheck := quiet_moves quiet_harmless.checkedStatus_only (hsent.fault.trans h)
      have hchecked := hsent.trans hcheck
      simp only [RegisterFile.outcome_bind]
      generalize file.outcome checkedStatus.run _ = checked at hchecked
      obtain ⟨r, u⟩ := checked
      cases r with
      | error e => exact ⟨1, by simp, rfl, hchecked⟩
      | ok st =>
        obtain ⟨k, hk, hcount, hrest⟩ := ih (hchecked.fault.trans h) (sent + 1)
        exact ⟨k + 1, by simpa using hk, hcount.trans (by omega),
          by simpa using hchecked.trans hrest⟩

theorem execute_moves (h : s.fault = none) (cfg : Settings) (a : BlockArray Block) :
    let ended := file.outcome (execute cfg a) s
    ∃ k ≤ a.remaining, ended.1.2 = a.seek (a.cursor + k) ∧ Moves s (a.rest.take k) ended.2 := by
  obtain ⟨k, hk, hcount, hmoves⟩ := deliver_moves h cfg 0 a.rest
  rw [a.length_rest] at hk
  rw [execute, RegisterFile.outcome_bind]
  generalize file.outcome (deliver cfg 0 a.rest) s = delivered at hcount hmoves
  obtain ⟨⟨n, ended⟩, t⟩ := delivered
  obtain rfl : n = k := by simpa using hcount
  cases ended with
  | error e => exact ⟨n, hk, rfl, hmoves⟩
  | ok u => exact ⟨n, hk, rfl, hmoves⟩

end Simulator

end PulseMill
