import Mathlib.Data.List.Nodup
import PulseMill.Proofs.Meaning
set_option autoImplicit false

namespace PulseMill

open Assembly (Fault readNumber compileMotion compileBlock)

/-- A tuple of a block, token by token. -/
structure Motion where
  axis : String
  mnemonic : String
  arg0 : String
  arg1 : String
  arg2 : String
  deriving DecidableEq, Repr, Inhabited

namespace Motion

def args (t : Motion) : List String := [t.arg0, t.arg1, t.arg2]

def words (t : Motion) : List String := t.axis :: t.mnemonic :: t.args

def op (t : Motion) : Opcode :=
  .ofArgs (Axis.ofSymbol t.axis) t.mnemonic (t.args.map argument?)

/-- The arguments may be any words but `begin` and `end`, and they need not be numbers. -/
structure Proper (t : Motion) : Prop where
  axis : (Axis.ofSymbol t.axis).isMotion
  mnemonic : ∃ m, Mnemonic.ofSymbol? t.mnemonic = some m ∧ m.isPseudo = false
  plain : ∀ token ∈ t.args, ¬ IsKeyword token

theorem Proper.moves {t : Motion} (h : t.Proper) : t.op.Moves := by
  obtain ⟨m, hm, hpseudo⟩ := h.mnemonic
  exact ⟨h.axis, m, Opcode.names_ofArgs.2 hm, hpseudo⟩

def Faults (t : Motion) (f : Fault) : Prop :=
  ∃ token ∈ t.args, readNumber (argument? token) = .error f

end Motion

def Slots.fill (s : Slots) (ops : List Opcode) : Slots :=
  ops.foldl (fun s op => s.set op.axis op) s

variable {s t : Slots} {ops : List Opcode}

theorem Fills.eq_fill (h : Fills s ops t) : s.fill ops = t := by
  induction h with
  | nil => rfl
  | cons _ _ ih => exact ih

theorem Slots.set_comm {op other : Opcode} (h : op.axis ≠ other.axis) :
    (s.set op.axis op).set other.axis other = (s.set other.axis other).set op.axis op := by
  cases hop : op.axis <;> cases hother : other.axis <;> first | rfl | simp_all

theorem Slots.fill_perm {ops' : List Opcode} (h : ops'.Perm ops)
    (hnodup : (ops.map Opcode.axis).Nodup) (s : Slots) : s.fill ops' = s.fill ops := by
  refine h.foldl_eq' (fun op hop other hother s => ?_) s
  by_cases hsame : op = other
  · rw [hsame]
  · refine Slots.set_comm fun haxis => hsame ?_
    exact List.inj_on_of_nodup_map hnodup (h.mem_iff.1 hop) (h.mem_iff.1 hother) haxis

theorem keyword_eq_none {α : Type} {f : String → α} {token : String}
    (hf : ∀ {s t : String}, Text.sameName s t → f s = f t) (hopening : f token ≠ f "begin")
    (hclosing : f token ≠ f "end") : Keyword.ofSymbol? token = none := by
  rw [Keyword.ofSymbol?, if_neg (mt hf hopening), if_neg (mt hf hclosing)]

theorem keyword_of_mnemonic {token : String} {m : Mnemonic}
    (h : Mnemonic.ofSymbol? token = some m) : Keyword.ofSymbol? token = none := by
  have hsome : Mnemonic.ofSymbol? token ≠ none := by simp [h]
  exact keyword_eq_none Mnemonic.ofSymbol?_congr hsome hsome

theorem piece_of_isMotion {token : String} (h : (Axis.ofSymbol token).isMotion) :
    (Lexeme.word token).piece? = none := by
  have haxis := Axis.mem_nameable h
  exact piece?_of_axis haxis ((Axis.ofSymbol_eq_iff haxis).1 rfl)

/-- Each tuple has a slot of its own that is still free. -/
structure Fits (s : Slots) (us : List Motion) : Prop where
  proper : ∀ u ∈ us, u.Proper
  distinct : (us.map fun u => u.op.axis).Nodup
  free : ∀ u ∈ us, s.holds u.op.axis = false

theorem Fits.first {u : Motion} {us : List Motion} (h : Fits s (u :: us)) :
    u.Proper ∧ s.holds u.op.axis = false :=
  ⟨h.proper u (List.mem_cons_self ..), h.free u (List.mem_cons_self ..)⟩

theorem Fits.rest {u : Motion} {us : List Motion} (h : Fits s (u :: us)) :
    Fits (s.set u.op.axis u.op) us where
  proper v hv := h.proper v (List.mem_cons_of_mem _ hv)
  distinct := (List.nodup_cons.1 h.distinct).2
  free v hv := by
    have hne : v.op.axis ≠ u.op.axis := fun heq =>
      (List.nodup_cons.1 h.distinct).1 (List.mem_map.2 ⟨v, hv, heq⟩)
    rw [holds_set_of_ne hne]
    exact h.free v (List.mem_cons_of_mem _ hv)

theorem fits_empty {us : List Motion} (hproper : ∀ u ∈ us, u.Proper)
    (hdistinct : (us.map fun u => u.op.axis).Nodup) : Fits {} us :=
  ⟨hproper, hdistinct, fun u _ => by cases u.op.axis <;> rfl⟩

theorem Fits.fills {us : List Motion} (h : Fits s us) :
    Fills s (us.map Motion.op) (s.fill (us.map Motion.op)) := by
  have hdistinct : ((us.map Motion.op).map Opcode.axis).Nodup := by
    rw [List.map_map]
    exact h.distinct
  obtain ⟨t, ht⟩ := exists_fills hdistinct (List.forall_mem_map.2 h.free)
  rwa [ht.eq_fill]

theorem Fits.moves {us : List Motion} (h : Fits s us) : ∀ op ∈ us.map Motion.op, op.Moves :=
  List.forall_mem_map.2 fun u hu => (h.proper u hu).moves

theorem bind_eq_error {ε α β : Type} {x : Except ε α} {f : α → Except ε β} {e : ε} :
    (x >>= f) = .error e ↔ x = .error e ∨ ∃ a, x = .ok a ∧ f a = .error e := by
  cases x <;> simp [bind, Except.bind]

theorem exists_of_compileBlock_eq_error {f : Fault} (h : compileBlock s = .error f) :
    ∃ axis op, s.get? axis = some op ∧ compileMotion op = .error f := by
  simp only [compileBlock, bind_eq_error, pure, Except.pure, reduceCtorEq, and_false, exists_false,
    or_false] at h
  rcases h with h | ⟨-, -, h | ⟨-, -, h | ⟨-, -, h⟩⟩⟩
  · exact ⟨.x, _, rfl, h⟩
  · exact ⟨.y, _, rfl, h⟩
  · exact ⟨.z, _, rfl, h⟩
  · exact ⟨.a, _, rfl, h⟩

theorem Motion.Proper.faults {u : Motion} {f : Fault} (hu : u.Proper)
    (h : compileMotion u.op = .error f) : u.Faults f := by
  obtain ⟨m, hm, -⟩ := hu.mnemonic
  have hsome : u.op.mnemonic = some u.mnemonic := rfl
  rw [compileMotion_of_moves hu.moves] at h
  simp only [Assembly.compileOpcode, hsome, instructionWord_eq_ok hm, bind_eq_error, pure,
    Except.pure, reduceCtorEq, and_false, exists_false, or_false, false_or, Except.ok.injEq,
    exists_eq_left'] at h
  rcases h with h | ⟨-, -, h | ⟨-, -, h⟩⟩
  · exact ⟨u.arg0, by simp [args], h⟩
  · exact ⟨u.arg1, by simp [args], h⟩
  · exact ⟨u.arg2, by simp [args], h⟩

theorem Fits.faults {us : List Motion} {f : Fault} (h : Fits {} us)
    (hf : compileBlock (Slots.fill {} (us.map Motion.op)) = .error f) : ∃ u ∈ us, u.Faults f := by
  obtain ⟨axis, op, hop, hmotion⟩ := exists_of_compileBlock_eq_error hf
  by_cases haxis : axis ∈ (us.map Motion.op).map Opcode.axis
  · obtain ⟨op', hop', rfl⟩ := List.mem_map.1 haxis
    obtain rfl : op' = op := Option.some.inj ((h.fills.get?_of_mem h.moves hop').symm.trans hop)
    obtain ⟨u, hu, rfl⟩ := List.mem_map.1 hop'
    exact ⟨u, hu, (h.proper u hu).faults hmotion⟩
  · rw [h.fills.get?_of_not_mem haxis] at hop
    have hempty : op = {} := by
      cases axis <;> first | contradiction | exact (Option.some.inj hop).symm
    rw [hempty, Assembly.compileMotion_empty] at hmotion
    cases hmotion

theorem Fits.not_compiled {us : List Motion} {u : Motion} {f : Fault} {b : Block}
    (h : Fits {} us) (hu : u ∈ us) (hf : u.Faults f) :
    compileBlock (Slots.fill {} (us.map Motion.op)) ≠ .ok b := by
  intro hb
  obtain ⟨w, -, hmeans⟩ := ((denotes_iff h.moves).2 ⟨_, h.fills, hb⟩).named u.op
    (List.mem_map_of_mem hu)
  obtain ⟨token, htoken, hbad⟩ := hf
  simp only [Motion.args, List.mem_cons, List.not_mem_nil, or_false] at htoken
  rcases htoken with rfl | rfl | rfl
  · exact nomatch hbad.symm.trans hmeans.rate
  · exact nomatch hbad.symm.trans hmeans.count
  · exact nomatch hbad.symm.trans hmeans.width

end PulseMill
