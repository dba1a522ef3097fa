import PulseMill.Proofs.Conversation
set_option autoImplicit false

namespace PulseMill

open Controller

namespace Access

def written? : Access → Option (Register × UInt32)
  | write r w => some (r, w)
  | read .. => none

def writes (t : List Access) : List (Register × UInt32) := t.filterMap written?

def commands (t : List Access) : Nat := (writes t).countP fun w => w.1 = .command

@[simp] theorem writes_nil : writes [] = [] := rfl

@[simp] theorem writes_append (t u : List Access) : writes (t ++ u) = writes t ++ writes u :=
  List.filterMap_append

@[simp] theorem writes_read (r : Register) (w : UInt32) (t : List Access) :
    writes (.read r w :: t) = writes t := rfl

@[simp] theorem writes_write (r : Register) (w : UInt32) (t : List Access) :
    writes (.write r w :: t) = (r, w) :: writes t := rfl

def EndsWith (t : List Access) (s : Status) : Prop := t.getLast? = some (.read .status s.bits)

/-- The error tells the status that was read last, and nothing was accessed since. -/
def Reports (t : List Access) (e : HardwareError) : Prop :=
  ∃ s, e.status? = some s ∧ EndsWith t s

theorem EndsWith.append {t u : List Access} {s : Status} (h : EndsWith u s) :
    EndsWith (t ++ u) s := by
  simp only [EndsWith] at h ⊢
  simp [List.getLast?_append, h]

theorem Reports.append {t u : List Access} {e : HardwareError} (h : Reports u e) :
    Reports (t ++ u) e := by
  obtain ⟨s, hs, hu⟩ := h
  exact ⟨s, hs, hu.append⟩

end Access

/-- A wait ends with this status, however many polls it might still make. -/
def Status.Settles (st : Status) (ready : Status → Bool) : Prop :=
  st.isStopped ∨ st.isError ∨ ready st

instance (st : Status) (ready : Status → Bool) : Decidable (st.Settles ready) :=
  inferInstanceAs (Decidable (_ ∨ _))

def Status.AllowsCommit (s : Status) : Prop :=
  s.isFull = false ∧ s.isError = false ∧ s.isStopped = false

open Access

/-- Each command comes right after a status that allows a commit. -/
def Guarded (t : List Access) : Prop :=
  ∀ pre w post, t = pre ++ .write .command w :: post → ∃ s, EndsWith pre s ∧ s.AllowsCommit

namespace Guarded

theorem of_writes {t : List Access} (h : ∀ w ∈ writes t, w.1 ≠ .command) : Guarded t := by
  intro pre w post hgiven
  obtain rfl := hgiven
  exact absurd rfl (h (.command, w) (by simp))

theorem append {t u : List Access} (ht : Guarded t) (hu : Guarded u) : Guarded (t ++ u) := by
  intro pre w post h
  rcases List.append_eq_append_iff.1 h with ⟨mid, rfl, hmid⟩ | ⟨mid, rfl, hmid⟩
  · obtain ⟨s, hs, ha⟩ := hu mid w post hmid
    exact ⟨s, hs.append, ha⟩
  · cases mid with
    | nil =>
      obtain ⟨s, hs, -⟩ := hu [] w post (by simpa using hmid.symm)
      simp [EndsWith] at hs
    | cons a mid =>
      obtain ⟨rfl, -⟩ := List.cons_eq_cons.1 hmid
      exact ht pre w mid rfl

theorem commit {t : List Access} {s : Status} (ht : Guarded t) (hs : EndsWith t s)
    (ha : s.AllowsCommit) (w : UInt32) : Guarded (t ++ [.write .command w]) := by
  intro pre w' post h
  rcases List.append_eq_append_iff.1 h with ⟨mid, rfl, hmid⟩ | ⟨mid, rfl, hmid⟩
  · cases mid with
    | nil => exact ⟨s, by simpa using hs, ha⟩
    | cons a mid => simp at hmid
  · cases mid with
    | nil => exact ⟨s, by simpa using hs, ha⟩
    | cons a mid =>
      obtain ⟨rfl, -⟩ := List.cons_eq_cons.1 hmid
      exact ht pre w' mid rfl

end Guarded

def AxisWords.field (w : AxisWords) : AxisField → UInt32
  | .rate => w.rate
  | .count => w.count
  | .width => w.width
  | .instruction => w.instruction

/-- The sixteen words of a block, axis by axis. -/
def Block.stagingWrites (b : Block) : List (Register × UInt32) :=
  [(HardwareAxis.x, b.x), (.y, b.y), (.z, b.z), (.a, b.a)].flatMap fun (axis, w) =>
    AxisField.all.map fun field => (.staged axis field, w.field field)

def stagingWrite : HardwareAxis × AxisField × UInt32 → Register × UInt32
  | (axis, field, w) => (.staged axis field, w)

theorem map_stagingWrite_staging (b : Block) : (staging b).map stagingWrite = b.stagingWrites :=
  rfl

def commitWord (cfg : Settings) : UInt32 :=
  if cfg.startOnCommit then Command.commit ||| Command.enable else Command.commit

def Block.commitWrites (cfg : Settings) (b : Block) : List (Register × UInt32) :=
  b.stagingWrites ++ [(.command, commitWord cfg)]

theorem stagingWrites_ne_command {b : Block} : ∀ w ∈ b.stagingWrites, w.1 ≠ .command := by
  intro w hw
  rw [← map_stagingWrite_staging] at hw
  obtain ⟨⟨axis, field, word⟩, -, rfl⟩ := List.mem_map.1 hw
  nofun

theorem countP_commitWrites (cfg : Settings) (b : Block) :
    (b.commitWrites cfg).countP (fun w => w.1 = .command) = 1 := by
  rw [Block.commitWrites, List.countP_append, List.countP_eq_zero.2]
  · rfl
  · simpa using stagingWrites_ne_command (b := b)

theorem checkStatus_error {s : Status} {e : HardwareError} (h : checkStatus s = .error e) :
    e.status? = some s := by
  unfold checkStatus at h
  split at h
  · cases h; rfl
  · split at h <;> cases h
    rfl

theorem checkedStatus_law {t : List Access} {r : Except HardwareError Status}
    (h : Conversation checkedStatus.run t r) :
    writes t = [] ∧ ∀ e, r = .error e → Reports t e := by
  simp only [checkedStatus, Attempt.run_lift_bind, Attempt.run_liftExcept,
    Conversation.bind_iff, Conversation.status_iff, Conversation.done_iff] at h
  obtain ⟨t₁, t₂, s, rfl, rfl, rfl, rfl⟩ := h
  exact ⟨rfl, fun e he => ⟨s, checkStatus_error he, rfl⟩⟩

theorem stageWord_law {cfg : Settings} {axis : HardwareAxis} {field : AxisField} {w : UInt32}
    {t : List Access} {r : Except HardwareError Unit}
    (h : Conversation (stageWord cfg axis field w).run t r) :
    writes t = [(.staged axis field, w)] ∧ ∀ e, r = .error e → Reports t e := by
  simp only [stageWord, Attempt.run_lift_bind, Attempt.run_ite, Attempt.run_throw,
    Attempt.run_pure, Conversation.bind_iff, Conversation.write_iff] at h
  obtain ⟨t₁, t₂, -, rfl, rfl, h⟩ := h
  split at h
  · obtain ⟨t₃, t₄, s, rfl, hs, hcheck⟩ := Conversation.bind_iff.1 h
    obtain rfl := Conversation.status_iff.1 hs
    split at hcheck
    · simp only [Conversation.bind_iff, Conversation.note_iff, Conversation.done_iff] at hcheck
      obtain ⟨t₅, t₆, -, rfl, rfl, rfl, rfl⟩ := hcheck
      refine ⟨rfl, ?_⟩
      intro e hgiven
      cases hgiven
      exact ⟨s, rfl, rfl⟩
    · obtain ⟨rfl, rfl⟩ := Conversation.done_iff.1 hcheck
      exact ⟨rfl, by simp⟩
  · obtain ⟨rfl, rfl⟩ := Conversation.done_iff.1 h
    exact ⟨rfl, by simp⟩

theorem forM_stageWord_law {cfg : Settings} {words : List (HardwareAxis × AxisField × UInt32)}
    {t : List Access} {r : Except HardwareError Unit}
    (h : Conversation (words.forM fun (axis, field, w) => stageWord cfg axis field w).run t r) :
    writes t <+: words.map stagingWrite ∧
      (r = .ok () → writes t = words.map stagingWrite) ∧ ∀ e, r = .error e → Reports t e := by
  induction words generalizing t with
  | nil =>
    obtain ⟨rfl, rfl⟩ := Conversation.done_iff.1 h
    exact ⟨List.nil_prefix, fun _ => rfl, nofun⟩
  | cons word words ih =>
    have h : Conversation (stageWord cfg word.1 word.2.1 word.2.2 >>= fun _ =>
      words.forM fun (axis, field, w) => stageWord cfg axis field w).run t r := h
    rcases Conversation.attempt_bind_iff.1 h with ⟨e, rfl, hw⟩ | ⟨t₁, t₂, u, rfl, hw, hs⟩
    · obtain ⟨hwrites, hreports⟩ := stageWord_law hw
      refine ⟨?_, nofun, hreports⟩
      rw [hwrites]
      exact ⟨words.map stagingWrite, rfl⟩
    · have hwrites := (stageWord_law hw).1
      obtain ⟨hfront, hall, hreports⟩ := ih hs
      rw [writes_append, hwrites]
      refine ⟨List.prefix_append_right_inj _ |>.2 hfront, fun hr => ?_,
        fun e he => (hreports e he).append⟩
      rw [hall hr]
      rfl

theorem stage_law {cfg : Settings} {b : Block} {t : List Access} {r : Except HardwareError Unit}
    (h : Conversation (stage cfg b).run t r) :
    writes t <+: b.stagingWrites ∧
      (r = .ok () → writes t = b.stagingWrites) ∧ ∀ e, r = .error e → Reports t e :=
  forM_stageWord_law h

theorem poll_cases {ready : Status → Bool} {made more : Nat} {t : List Access}
    {r : Except HardwareError Status} (h : Conversation (poll ready made more).run t r) :
    ∃ s u, t = .read .status s.bits :: u ∧
      ((s.isStopped ∧ r = .error (.emergencyStop s) ∧ u = []) ∨
       (s.isStopped = false ∧ s.isError ∧ r = .error (.fault s) ∧ u = []) ∨
       (s.isStopped = false ∧ s.isError = false ∧ ready s ∧ r = .ok s ∧ u = []) ∨
       (s.isStopped = false ∧ s.isError = false ∧ ready s = false ∧ more = 0 ∧
          r = .error (.timeout s (made + 1)) ∧ u = []) ∨
       (s.isStopped = false ∧ s.isError = false ∧ ready s = false ∧
          ∃ fewer, more = fewer + 1 ∧ Conversation (poll ready (made + 1) fewer).run u r)) := by
  rw [poll.eq_def] at h
  simp only [Attempt.run_lift_bind, Attempt.run_ite, Attempt.run_throw_bind, Attempt.run_pure,
    Conversation.bind_iff, Conversation.status_iff, Conversation.note_iff] at h
  obtain ⟨t₁, t₂, s, rfl, rfl, t₃, u, -, rfl, rfl, h⟩ := h
  refine ⟨s, u, rfl, ?_⟩
  split at h
  case isTrue hstop =>
    simp only [Conversation.bind_iff, Conversation.note_iff, Conversation.done_iff] at h
    obtain ⟨t₄, t₅, -, rfl, rfl, rfl, rfl⟩ := h
    exact .inl ⟨hstop, rfl, rfl⟩
  case isFalse hstop =>
    rw [Bool.not_eq_true] at hstop
    split at h
    case isTrue herror =>
      simp only [Conversation.bind_iff, Conversation.note_iff, Conversation.done_iff] at h
      obtain ⟨t₄, t₅, -, rfl, rfl, rfl, rfl⟩ := h
      exact .inr (.inl ⟨hstop, herror, rfl, rfl⟩)
    case isFalse herror =>
      rw [Bool.not_eq_true] at herror
      split at h
      case isTrue hready =>
        obtain ⟨rfl, rfl⟩ := Conversation.done_iff.1 h
        exact .inr (.inr (.inl ⟨hstop, herror, hready, rfl, rfl⟩))
      case isFalse hready =>
        rw [Bool.not_eq_true] at hready
        cases more with
        | zero =>
          simp only [Attempt.run_lift_bind, Attempt.run_throw, Conversation.bind_iff,
            Conversation.note_iff, Conversation.done_iff] at h
          obtain ⟨t₄, t₅, -, rfl, rfl, rfl, rfl⟩ := h
          exact .inr (.inr (.inr (.inl ⟨hstop, herror, hready, rfl, rfl, rfl⟩)))
        | succ fewer => exact .inr (.inr (.inr (.inr ⟨hstop, herror, hready, fewer, rfl, h⟩)))

/-- A wait writes nothing. If it succeeds, then on the status that was read last. -/
theorem poll_law {ready : Status → Bool} {made more : Nat} {t : List Access}
    {r : Except HardwareError Status} (h : Conversation (poll ready made more).run t r) :
    writes t = [] ∧
      (∀ s, r = .ok s → EndsWith t s ∧ ready s ∧ s.isError = false ∧ s.isStopped = false) ∧
      ∀ e, r = .error e → Reports t e := by
  induction more using Nat.strongRecOn generalizing made t with
  | ind more ih =>
    obtain ⟨s, u, rfl, ⟨-, rfl, rfl⟩ | ⟨-, -, rfl, rfl⟩ | ⟨hstop, herror, hready, rfl, rfl⟩ |
      ⟨-, -, -, -, rfl, rfl⟩ | ⟨-, -, -, fewer, rfl, hrest⟩⟩ := poll_cases h
    · exact ⟨rfl, nofun, by rintro e ⟨⟩; exact ⟨s, rfl, rfl⟩⟩
    · exact ⟨rfl, nofun, by rintro e ⟨⟩; exact ⟨s, rfl, rfl⟩⟩
    · exact ⟨rfl, by rintro _ ⟨⟩; exact ⟨rfl, hready, herror, hstop⟩, nofun⟩
    · exact ⟨rfl, nofun, by rintro e ⟨⟩; exact ⟨s, rfl, rfl⟩⟩
    · obtain ⟨hwrites, hok, herr⟩ := ih fewer (by omega) hrest
      exact ⟨hwrites, fun s' hs => ⟨(hok s' hs).1.append (t := [_]), (hok s' hs).2⟩,
        fun e he => (herr e he).append (t := [_])⟩

theorem awaitRoom_law {cfg : Settings} {t : List Access} {r : Except HardwareError Status}
    (h : Conversation (awaitRoom cfg).run t r) :
    writes t = [] ∧ (∀ s, r = .ok s → EndsWith t s ∧ s.AllowsCommit) ∧
      ∀ e, r = .error e → Reports t e := by
  obtain ⟨hwrites, hok, herr⟩ := poll_law h
  refine ⟨hwrites, fun s hs => ?_, herr⟩
  obtain ⟨hends, hready, herror, hstop⟩ := hok s hs
  exact ⟨hends, by simpa using hready, herror, hstop⟩

theorem prepare_law {cfg : Settings} {b : Block} {t : List Access}
    {r : Except HardwareError Unit} (h : Conversation (prepare cfg b).run t r) :
    writes t <+: b.stagingWrites ∧
      (r = .ok () → writes t = b.stagingWrites ∧ ∃ s, EndsWith t s ∧ s.AllowsCommit) ∧
      ∀ e, r = .error e → Reports t e := by
  rcases Conversation.attempt_bind_iff.1 h with ⟨e, rfl, hstage⟩ | ⟨t₁, t₂, u, rfl, hstage, hrest⟩
  · obtain ⟨hfront, -, herr⟩ := stage_law hstage
    exact ⟨hfront, nofun, herr⟩
  · have hall := (stage_law hstage).2.1 rfl
    rcases Conversation.attempt_bind_iff.1 hrest with
      ⟨e, rfl, hwait⟩ | ⟨t₃, t₄, s, rfl, hwait, hpure⟩
    · obtain ⟨hwrites, -, herr⟩ := awaitRoom_law hwait
      rw [writes_append, hwrites, hall, List.append_nil]
      exact ⟨List.prefix_rfl, nofun, by rintro _ ⟨⟩; exact (herr e rfl).append⟩
    · obtain ⟨rfl, rfl⟩ := Conversation.done_iff.1 hpure
      obtain ⟨hwrites, hok, -⟩ := awaitRoom_law hwait
      obtain ⟨hends, hallows⟩ := hok s rfl
      rw [List.append_nil, writes_append, hwrites, hall, List.append_nil]
      exact ⟨List.prefix_rfl, fun _ => ⟨rfl, s, hends.append, hallows⟩, nofun⟩

/-- `k` of the blocks were committed, each with all its words, and of the next one at most
some words were staged, and only before an error. -/
structure Delivered (cfg : Settings) (blocks : List Block) (t : List Access) (k : Nat)
    (r : Except HardwareError Unit) : Prop where
  bound : k ≤ blocks.length
  writes : ∃ tail, writes t = (blocks.take k).flatMap (Block.commitWrites cfg) ++ tail ∧
    (tail ≠ [] → ∃ b e, blocks[k]? = some b ∧ tail <+: b.stagingWrites ∧ r = .error e)
  guarded : Guarded t
  complete : r = .ok () → k = blocks.length
  reports : ∀ e, r = .error e → Reports t e

namespace Delivered

variable {cfg : Settings} {b : Block} {blocks : List Block} {t u : List Access} {k : Nat}
  {r : Except HardwareError Unit} {e : HardwareError}

theorem nil (cfg : Settings) : Delivered cfg [] [] 0 (.ok ()) where
  bound := Nat.le_refl 0
  writes := ⟨[], rfl, nofun⟩
  guarded := .of_writes nofun
  complete _ := rfl
  reports := nofun

theorem unprepared (h : Conversation (prepare cfg b).run t (.error e)) :
    Delivered cfg (b :: blocks) t 0 (.error e) where
  bound := Nat.zero_le _
  writes := ⟨Access.writes t, rfl, fun _ => ⟨b, e, rfl, (prepare_law h).1, rfl⟩⟩
  guarded := .of_writes fun w hw => stagingWrites_ne_command w ((prepare_law h).1.subset hw)
  complete := nofun
  reports := (prepare_law h).2.2

theorem writes_prepared (h : Conversation (prepare cfg b).run t (.ok ())) :
    Access.writes (t ++ [.write .command (commitWord cfg)]) = b.commitWrites cfg ∧
      Guarded (t ++ [.write .command (commitWord cfg)]) := by
  obtain ⟨-, hok, -⟩ := prepare_law h
  obtain ⟨hwrites, s, hends, hallows⟩ := hok rfl
  refine ⟨by simp [hwrites, Block.commitWrites], Guarded.commit ?_ hends hallows _⟩
  exact .of_writes fun w hw => stagingWrites_ne_command w (hwrites ▸ hw)

theorem stopped (h : Conversation (prepare cfg b).run t (.ok ()))
    (hcheck : Conversation checkedStatus.run u (.error e)) :
    Delivered cfg (b :: blocks) (t ++ [.write .command (commitWord cfg)] ++ u) 1 (.error e) := by
  obtain ⟨hwrites, hguard⟩ := writes_prepared h
  obtain ⟨hnone, hreports⟩ := checkedStatus_law hcheck
  exact
    { bound := by simp
      writes := ⟨[], by rw [writes_append, hwrites, hnone]; simp, nofun⟩
      guarded := hguard.append (.of_writes (by simp [hnone]))
      complete := nofun
      reports := by rintro _ ⟨⟩; exact (hreports e rfl).append }

theorem cons {s : Status} {v : List Access} (h : Conversation (prepare cfg b).run t (.ok ()))
    (hcheck : Conversation checkedStatus.run u (.ok s)) (hrest : Delivered cfg blocks v k r) :
    Delivered cfg (b :: blocks) (t ++ [.write .command (commitWord cfg)] ++ u ++ v) (k + 1) r := by
  obtain ⟨hwrites, hguard⟩ := writes_prepared h
  obtain ⟨hnone, -⟩ := checkedStatus_law hcheck
  obtain ⟨tail, hv, htail⟩ := hrest.writes
  exact
    { bound := by simpa using hrest.bound
      writes := by
        refine ⟨tail, ?_, fun hne => ?_⟩
        · rw [writes_append, writes_append, hwrites, hnone, hv]
          simp
        · simpa using htail hne
      guarded := (hguard.append (.of_writes (by simp [hnone]))).append hrest.guarded
      complete := fun hr => by simpa using hrest.complete hr
      reports := fun e he => (hrest.reports e he).append }

end Delivered

theorem deliver_law {cfg : Settings} {sent n : Nat} {blocks : List Block} {t : List Access}
    {r : Except HardwareError Unit} (h : Conversation (deliver cfg sent blocks) t (n, r)) :
    ∃ k, n = sent + k ∧ Delivered cfg blocks t k r := by
  induction blocks generalizing sent t with
  | nil =>
    obtain ⟨rfl, hr⟩ := Conversation.done_iff.1 h
    obtain ⟨rfl, rfl⟩ := Prod.mk.inj hr
    exact ⟨0, rfl, .nil cfg⟩
  | cons b blocks ih =>
    rw [deliver] at h
    obtain ⟨t₁, t₂, prepared, rfl, hprepare, hthen⟩ := Conversation.bind_iff.1 h
    cases prepared with
    | error e =>
      obtain ⟨rfl, hr⟩ := Conversation.done_iff.1 hthen
      obtain ⟨rfl, rfl⟩ := Prod.mk.inj hr
      exact ⟨0, rfl, by simpa using Delivered.unprepared hprepare⟩
    | ok u =>
      obtain ⟨t₃, t₄, u', rfl, hcommit, hafter⟩ := Conversation.bind_iff.1 hthen
      obtain rfl := Conversation.write_iff.1 hcommit
      obtain ⟨t₅, t₆, checked, rfl, hcheck, hmore⟩ := Conversation.bind_iff.1 hafter
      cases checked with
      | error e =>
        obtain ⟨rfl, hr⟩ := Conversation.done_iff.1 hmore
        obtain ⟨rfl, rfl⟩ := Prod.mk.inj hr
        exact ⟨1, rfl, by simpa [commitWord] using Delivered.stopped hprepare hcheck⟩
      | ok s =>
        obtain ⟨k, rfl, hrest⟩ := ih hmore
        exact ⟨k + 1, by omega, by simpa [commitWord] using Delivered.cons hprepare hcheck hrest⟩

theorem countP_flatMap_commitWrites (cfg : Settings) (blocks : List Block) :
    (blocks.flatMap (Block.commitWrites cfg)).countP (fun w => w.1 = .command) =
      blocks.length := by
  induction blocks with
  | nil => rfl
  | cons b blocks ih =>
    rw [List.flatMap_cons, List.countP_append, countP_commitWrites, ih, List.length_cons]
    omega

theorem Delivered.commands_eq {cfg : Settings} {blocks : List Block} {t : List Access} {k : Nat}
    {r : Except HardwareError Unit} (h : Delivered cfg blocks t k r) : commands t = k := by
  obtain ⟨tail, hwrites, htail⟩ := h.writes
  have hnone : tail.countP (fun w => w.1 = .command) = 0 := by
    refine List.countP_eq_zero.2 fun w hw => ?_
    obtain ⟨b, e, -, hfront, -⟩ := htail (List.ne_nil_of_mem hw)
    simpa using stagingWrites_ne_command w (hfront.subset hw)
  rw [commands, hwrites, List.countP_append, countP_flatMap_commitWrites, hnone]
  have := h.bound
  simp
  omega

theorem execute_law {cfg : Settings} {a a' : BlockArray Block} {t : List Access}
    {r : Except HardwareError Nat} (h : Conversation (execute cfg a) t (r, a')) :
    ∃ k ended, Delivered cfg a.rest t k ended ∧ a' = a.seek (a.cursor + k) ∧
      r = ended.map fun _ => k := by
  rw [execute] at h
  obtain ⟨t₁, t₂, ⟨n, ended⟩, rfl, hdeliver, hthen⟩ := Conversation.bind_iff.1 h
  obtain ⟨k, rfl, hdelivered⟩ := deliver_law hdeliver
  cases ended with
  | error e =>
    obtain ⟨rfl, hr⟩ := Conversation.done_iff.1 hthen
    obtain ⟨rfl, rfl⟩ := Prod.mk.inj hr
    exact ⟨k, .error e, by simpa using hdelivered, by simp, rfl⟩
  | ok u =>
    obtain ⟨t₃, t₄, u', rfl, hnote, hlast⟩ := Conversation.bind_iff.1 hthen
    obtain rfl := Conversation.note_iff.1 hnote
    obtain ⟨rfl, hr⟩ := Conversation.done_iff.1 hlast
    obtain ⟨rfl, rfl⟩ := Prod.mk.inj hr
    exact ⟨k, .ok (), by simpa using hdelivered, by simp, by simp [Except.map]⟩

/-- Whatever the registers answer, an execution writes the words and the command of each block
from the cursor on, as many blocks as it writes commands, and of one more block at most some
words before it fails. Each command comes right after a status that allows it. The cursor ends
behind the last block with a command, success means that no block is left, and an error tells
the status that was the last access. -/
theorem execute_bus_law {σ : Type} (file : RegisterFile σ) (v : Verbosity) (cfg : Settings)
    (a : BlockArray Block) (s : σ) :
    let t := file.trace (execute cfg a) s
    let r := (file.run v (execute cfg a) s).1.1
    let k := commands t
    (∃ tail, writes t = (a.rest.take k).flatMap (Block.commitWrites cfg) ++ tail ∧
      (tail ≠ [] → ∃ b e, a.rest[k]? = some b ∧ tail <+: b.stagingWrites ∧ r = .error e)) ∧
    k ≤ a.remaining ∧ Guarded t ∧
    (file.run v (execute cfg a) s).1.2 = { a with cursor := a.cursor + k } ∧
    (∀ m, r = .ok m → m = k ∧ k = a.remaining) ∧ ∀ e, r = .error e → Reports t e := by
  intro t r k
  have h : Conversation (execute cfg a) t (file.run v (execute cfg a) s).1 := by
    rw [file.run_fst]
    exact file.conversation_trace _ _
  obtain ⟨n, ended, hdelivered, harray, hr⟩ := execute_law h
  have hr : r = ended.map fun _ => n := hr
  obtain rfl : k = n := hdelivered.commands_eq
  rw [← a.length_rest]
  refine ⟨?_, hdelivered.bound, hdelivered.guarded, harray, fun m hm => ?_, fun e he => ?_⟩
  · obtain ⟨tail, hwrites, htail⟩ := hdelivered.writes
    refine ⟨tail, hwrites, fun hne => ?_⟩
    obtain ⟨b, e, hb, hfront, rfl⟩ := htail hne
    exact ⟨b, e, hb, hfront, hr⟩
  · rw [hr] at hm
    cases ended with
    | error e => cases hm
    | ok u => cases hm; exact ⟨rfl, hdelivered.complete rfl⟩
  · rw [hr] at he
    cases ended with
    | error e => cases he; exact hdelivered.reports _ rfl
    | ok u => cases he

end PulseMill
