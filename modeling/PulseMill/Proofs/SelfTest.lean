import PulseMill.Proofs.SimulatedDelivery
set_option autoImplicit false

/-!
The self test on the simulator. It is a row of checks, and the first one that fails is reported. A
check of a pattern fails where bits are stuck, and a check of the ordinals where two registers share
a place: the place then holds the ordinal of the later one.
-/

namespace PulseMill

open Controller (Attempt)

def report : Option HardwareError → Except HardwareError Unit
  | none => .ok ()
  | some e => .error e

/-- From all states of a kind the check ends with this report. If it finds nothing, it ends in
a state of that kind. -/
def RegisterFile.Checks {σ : Type} (file : RegisterFile σ) (kind : σ → Prop) (x : Attempt Unit)
    (wrong : Option HardwareError) : Prop :=
  ∀ s, kind s → ∃ t, (wrong = none → kind t) ∧ file.outcome x.run s = (report wrong, t)

namespace RegisterFile.Checks

variable {σ β : Type} {file : RegisterFile σ} {kind : σ → Prop}

theorem bind {x y : Attempt Unit} {first second : Option HardwareError}
    (hx : file.Checks kind x first) (hy : first = none → file.Checks kind y second) :
    file.Checks kind (x >>= fun _ => y) (first.or second) := by
  intro s hs
  obtain ⟨t, ht, hfirst⟩ := hx s hs
  cases first with
  | some e => exact ⟨t, nofun, outcome_attempt_error hfirst _⟩
  | none =>
    obtain ⟨u, hu, hsecond⟩ := hy rfl t (ht rfl)
    exact ⟨u, hu, (outcome_attempt_ok hfirst _).trans hsecond⟩

theorem forM {f : β → Attempt Unit} {wrong : β → Option HardwareError} {l : List β}
    (h : ∀ x ∈ l, file.Checks kind (f x) (wrong x)) :
    file.Checks kind (l.forM f) (l.findSome? wrong) := by
  induction l with
  | nil => exact fun s hs => ⟨s, fun _ => hs, rfl⟩
  | cons x l ih =>
    obtain ⟨hfirst, hmore⟩ := List.forall_mem_cons.1 h
    have hcons : (x :: l).findSome? wrong = (wrong x).or (l.findSome? wrong) := by
      rw [List.findSome?_cons]
      cases wrong x <;> rfl
    rw [hcons]
    exact hfirst.bind fun _ => ih hmore

theorem note {level : Level} {text : Unit → String} {x : Attempt Unit}
    {wrong : Option HardwareError} (h : file.Checks kind x wrong) :
    file.Checks kind (liftM (Bus.note level text) >>= fun _ => x) wrong := by
  intro s hs
  rw [Controller.Attempt.run_lift_bind, outcome_bind, outcome_note]
  exact h s hs

end RegisterFile.Checks

theorem findSome?_eq_some_of_unique {α β : Type} {f : α → Option β} {l : List α} {x : α} {b : β}
    (hx : x ∈ l) (hb : f x = some b) (hunique : ∀ y ∈ l, y ≠ x → f y = none) :
    l.findSome? f = some b := by
  cases hfind : l.findSome? f with
  | none => rw [List.findSome?_eq_none_iff.1 hfind x hx] at hb; cases hb
  | some c =>
    obtain ⟨y, hy, hc⟩ := List.exists_of_findSome?_eq_some hfind
    by_cases hsame : y = x
    · rw [← hc, hsame, hb]
    · rw [hunique y hy hsame] at hc
      cases hc

namespace Words

theorem get_putAll_append {ws : Words} {l more : List (Register × UInt32)} {r : Register}
    {w : UInt32} (h : r ∉ more.map Prod.fst) : (ws.putAll (l ++ (r, w) :: more)).get r = w := by
  have hsplit : ws.putAll (l ++ (r, w) :: more) = ((ws.putAll l).put r w).putAll more := by
    rw [putAll, putAll, putAll, List.foldl_append]
    rfl
  rw [hsplit, get_putAll_of_not_mem h, get_put_self]

end Words

namespace Register

theorem nodup_staging : staging.Nodup := by decide

theorem length_staging : staging.length = 40 := rfl

/-- Registers that hold what is written to them. A command is carried out, too. -/
def Stores : Register → Prop
  | command | staged .. | gpioOutput _ | expansionOutput _ => True
  | _ => False

theorem stores_of_mem_staging {r : Register} (h : r ∈ staging) : r.Stores := by
  obtain ⟨axis, -, h⟩ := List.mem_flatMap.1 h
  obtain ⟨field, -, rfl⟩ := List.mem_map.1 h
  trivial

variable {p q r : Register} {i j : Nat}

theorem staging_index_inj (hi : staging[i]? = some r) (hj : staging[j]? = some r) : i = j := by
  have hless : i < staging.length := (List.getElem?_eq_some_iff.1 hi).1
  exact (List.getElem?_inj hless nodup_staging).1 (hi.trans hj.symm)

theorem staging_ordinal_inj (hi : staging[i]? = some p) (hj : staging[j]? = some q)
    (h : UInt32.ofNat i = .ofNat j) : i = j := by
  have hi := (List.getElem?_eq_some_iff.1 hi).1
  have hj := (List.getElem?_eq_some_iff.1 hj).1
  rw [length_staging] at hi hj
  have h := congrArg UInt32.toNat h
  rwa [UInt32.toNat_ofNat_of_lt' (by simp [UInt32.size]; omega),
    UInt32.toNat_ofNat_of_lt' (by simp [UInt32.size]; omega)] at h

end Register

namespace Simulator

open Register (staging)

variable {s t : Simulator} {p q r : Register} {ws : Words} {i j k : Nat}

theorem write_stores (h : (s.resolve r).Stores) (w : UInt32) :
    (write r w s).words = s.words.put (s.resolve r) w ∧ (write r w s).fault = s.fault := by
  have hcommand : (s.command w).words = s.words.put .command w ∧
      (s.command w).fault = s.fault := by
    rw [command_law]
    exact ⟨rfl, rfl⟩
  unfold write
  cases hr : s.resolve r <;> first
    | exact ⟨rfl, rfl⟩
    | exact hcommand
    | (rw [hr] at h; cases h)

theorem read_stores (h : (s.resolve r).Stores) :
    read r s = (s.distort (s.resolve r) (s.word (s.resolve r)), s) := by
  unfold read
  cases hr : s.resolve r <;> first | rfl | (rw [hr] at h; cases h)

theorem resolve_congr (h : t.fault = s.fault) (r : Register) : t.resolve r = s.resolve r := by
  simp only [resolve, h]

theorem distort_congr (h : t.fault = s.fault) (r : Register) (w : UInt32) :
    t.distort r w = s.distort r w := by simp only [distort, h]

def misread (ordinal : Nat) (expected actual : UInt32) : Option HardwareError :=
  if actual = expected then none else some (.registerTest ordinal expected actual)

theorem misread_eq_none_iff {ordinal : Nat} {expected actual : UInt32} :
    misread ordinal expected actual = none ↔ actual = expected := by
  rw [misread]
  by_cases hsame : actual = expected <;> simp [hsame]

/-- What is wrong if a register that should read as expected has the given word in its place. -/
def mismatch (s : Simulator) (x : Register × Nat) (expected w : UInt32) : Option HardwareError :=
  misread x.2 expected (s.distort (s.resolve x.1) w)

theorem mismatch_congr (h : t.fault = s.fault) (x : Register × Nat) (expected w : UInt32) :
    t.mismatch x expected w = s.mismatch x expected w := by
  rw [mismatch, mismatch, resolve_congr h, distort_congr h]

theorem outcome_expectRegister (ordinal : Nat) (r : Register) (expected : UInt32)
    (s : Simulator) :
    file.outcome (Controller.expectRegister ordinal r expected).run s =
      (report (misread ordinal expected (read r s).1), (read r s).2) := by
  have hread : file.read r s = read r s := rfl
  simp only [Controller.expectRegister, Controller.Attempt.run_lift_bind,
    Controller.Attempt.run_ite, RegisterFile.outcome_bind, RegisterFile.outcome_read, hread]
  by_cases hsame : (read r s).1 = expected <;> simp [hsame, misread, report]

theorem outcome_writeExpect (r : Register) (ordinal : Nat) (w : UInt32) (s : Simulator) :
    file.outcome (do
      Bus.write r w
      Controller.expectRegister ordinal r w : Attempt Unit).run s =
        (report (misread ordinal w (read r (write r w s)).1), (read r (write r w s)).2) := by
  have hwrite : file.outcome (Bus.write r w) s = ((), write r w s) := rfl
  rw [Controller.Attempt.run_lift_bind, RegisterFile.outcome_bind, hwrite,
    outcome_expectRegister]

theorem outcome_keep (h : (s.resolve r).Stores) (ordinal : Nat) (w : UInt32) :
    file.outcome (do
      Bus.write r w
      Controller.expectRegister ordinal r w : Attempt Unit).run s =
        (report (s.mismatch (r, ordinal) w w), write r w s) := by
  obtain ⟨hwords, hfault⟩ := write_stores h w
  have hplace : (write r w s).resolve r = s.resolve r := resolve_congr hfault r
  have hread := read_stores (s := write r w s) (hplace ▸ h)
  rw [hplace, word, hwords, Words.get_put_self] at hread
  rw [outcome_writeExpect, hread, ← mismatch_congr hfault, mismatch, hplace]

/-- The staging registers are found at places that hold their words. -/
def Wired (s : Simulator) : Prop := ∀ r ∈ staging, (s.resolve r).Stores

theorem Wired.stores (h : s.Wired) {x : Register × Nat} (hx : x ∈ staging.zipIdx)
    (hfault : t.fault = s.fault) : (t.resolve x.1).Stores := by
  rw [resolve_congr hfault]
  exact h x.1 (List.mem_of_getElem? (List.mk_mem_zipIdx_iff_getElem?.1 hx))

theorem Wired.checks_pattern (h : s.Wired) (pattern : UInt32) :
    file.Checks (fun t => t.fault = s.fault) (Controller.testPattern pattern)
      (staging.zipIdx.findSome? fun x => s.mismatch x pattern pattern) := by
  refine RegisterFile.Checks.note (RegisterFile.Checks.forM fun x hx t ht => ?_)
  have hstores := h.stores hx ht
  rw [← mismatch_congr ht]
  exact ⟨write x.1 pattern t, fun _ => (write_stores hstores pattern).2.trans ht,
    outcome_keep hstores x.2 pattern⟩

def ordinalWrites (s : Simulator) : List (Register × UInt32) :=
  staging.zipIdx.map fun x => (s.resolve x.1, .ofNat x.2)

theorem outcome_writes {l : List (Register × Nat)} (h : ∀ x ∈ l, (s.resolve x.1).Stores) :
    ∃ t : Simulator, t.fault = s.fault ∧
      t.words = s.words.putAll (l.map fun x => (s.resolve x.1, .ofNat x.2)) ∧
      file.outcome (l.forM fun x => liftM (Bus.write x.1 (.ofNat x.2)) : Attempt Unit).run s =
        (.ok (), t) := by
  induction l generalizing s with
  | nil => exact ⟨s, rfl, rfl, rfl⟩
  | cons x l ih =>
    obtain ⟨hfirst, hmore⟩ := List.forall_mem_cons.1 h
    obtain ⟨hwords, hfault⟩ := write_stores hfirst (.ofNat x.2)
    have hresolve := resolve_congr hfault
    obtain ⟨t, ht, hrest, hend⟩ := ih (s := write x.1 (.ofNat x.2) s)
      fun y hy => (hresolve y.1).symm ▸ hmore y hy
    have hwrite : file.outcome (liftM (Bus.write x.1 (.ofNat x.2)) : Attempt Unit).run s =
        (.ok (), write x.1 (.ofNat x.2) s) := rfl
    refine ⟨t, ht.trans hfault, ?_, (RegisterFile.outcome_attempt_ok hwrite _).trans hend⟩
    simp only [hresolve, hwords] at hrest
    exact hrest

theorem Wired.checks_readOrdinals (h : s.Wired) :
    file.Checks (fun t => t.fault = s.fault ∧ t.words = s.words)
      (staging.zipIdx.forM fun x => Controller.expectRegister x.2 x.1 (.ofNat x.2))
      (staging.zipIdx.findSome? fun x =>
        s.mismatch x (.ofNat x.2) (s.word (s.resolve x.1))) := by
  refine RegisterFile.Checks.forM fun x hx t ht => ?_
  obtain ⟨hfault, hwords⟩ := ht
  have hread := read_stores (h.stores hx hfault)
  refine ⟨t, fun _ => ⟨hfault, hwords⟩, ?_⟩
  rw [outcome_expectRegister, hread, ← mismatch_congr hfault, resolve_congr hfault, mismatch,
    resolve_congr hfault, word, word, hwords]

theorem testOrdinals_eq : Controller.testOrdinals =
    (staging.zipIdx.forM fun x => liftM (Bus.write x.1 (.ofNat x.2)) : Attempt Unit) >>= fun _ =>
      staging.zipIdx.forM fun x => Controller.expectRegister x.2 x.1 (.ofNat x.2) := rfl

theorem Wired.outcome_testOrdinals (h : s.Wired) :
    (file.outcome Controller.testOrdinals.run s).1 =
      report (staging.zipIdx.findSome? fun x =>
        s.mismatch x (.ofNat x.2) ((s.words.putAll s.ordinalWrites).get (s.resolve x.1))) := by
  obtain ⟨t, hfault, hwords, hwrites⟩ := outcome_writes (s := s) (l := staging.zipIdx)
    fun x hx => h.stores hx rfl
  have hwired : t.Wired := fun r hr => (resolve_congr hfault r).symm ▸ h r hr
  obtain ⟨u, -, hreads⟩ := hwired.checks_readOrdinals t ⟨rfl, rfl⟩
  rw [testOrdinals_eq, RegisterFile.outcome_attempt_ok hwrites, hreads]
  simp only [mismatch_congr hfault, resolve_congr hfault, word, hwords, ordinalWrites]

theorem Wired.checks_patterns (h : s.Wired) :
    file.Checks (fun t => t.fault = s.fault) (Controller.testPatterns.forM Controller.testPattern)
      (Controller.testPatterns.findSome? fun pattern =>
        staging.zipIdx.findSome? fun x => s.mismatch x pattern pattern) :=
  RegisterFile.Checks.forM fun pattern _ => h.checks_pattern pattern

theorem outcome_selfTest_of_patterns {wrong : Option HardwareError}
    (h : file.outcome (Controller.testPatterns.forM Controller.testPattern).run s =
      (report wrong, t)) :
    (file.outcome Controller.selfTest.run s).1 =
      if wrong = none then (file.outcome Controller.testOrdinals.run t).1 else report wrong := by
  rw [Controller.selfTest]
  cases wrong with
  | some e => rw [RegisterFile.outcome_attempt_error h]; rfl
  | none =>
    rw [RegisterFile.outcome_attempt_ok h, if_pos rfl, ExceptT.run_bind, RegisterFile.outcome_bind]
    cases (file.outcome Controller.testOrdinals.run t).1 <;> rfl

theorem Wired.outcome_selfTest (h : s.Wired) :
    ∃ words : Words, (file.outcome Controller.selfTest.run s).1 = report
      ((Controller.testPatterns.findSome? fun pattern =>
        staging.zipIdx.findSome? fun x => s.mismatch x pattern pattern).or
      (staging.zipIdx.findSome? fun x =>
        s.mismatch x (.ofNat x.2) ((words.putAll s.ordinalWrites).get (s.resolve x.1)))) := by
  obtain ⟨t, ht, hpatterns⟩ := h.checks_patterns s rfl
  refine ⟨t.words, ?_⟩
  rw [outcome_selfTest_of_patterns hpatterns]
  split
  case isTrue hnone =>
    have hfault := ht hnone
    have hwired : t.Wired := fun r hr => (resolve_congr hfault r).symm ▸ h r hr
    rw [hnone, hwired.outcome_testOrdinals]
    simp only [mismatch_congr hfault, resolve_congr hfault, ordinalWrites, Option.none_or]
  case isFalse hsome =>
    obtain ⟨e, he⟩ := Option.ne_none_iff_exists'.1 hsome
    rw [he, Option.some_or]

theorem get_ordinalWrites {words : Words} (hi : staging[i]? = some r)
    (hlast : ∀ j q, i < j → staging[j]? = some q → s.resolve q ≠ s.resolve r) :
    (words.putAll s.ordinalWrites).get (s.resolve r) = .ofNat i := by
  obtain ⟨before, after, hsplit⟩ := List.append_of_mem (List.mk_mem_zipIdx_iff_getElem?.2 hi)
  have hsorted : staging.zipIdx.Pairwise fun x y => x.2 < y.2 := by
    rw [← List.pairwise_map, List.zipIdx_map_snd]
    exact List.pairwise_lt_range'
  rw [ordinalWrites, hsplit, List.map_append, List.map_cons]
  refine Words.get_putAll_append fun hmem => ?_
  rw [List.map_map] at hmem
  obtain ⟨y, hy, hsame⟩ := List.mem_map.1 hmem
  have hy' : staging[y.2]? = some y.1 := by
    refine List.mk_mem_zipIdx_iff_getElem?.1 ?_
    rw [hsplit]
    exact List.mem_append_right _ (List.mem_cons_of_mem _ hy)
  rw [hsplit] at hsorted
  have hless := (List.pairwise_cons.1 (List.pairwise_append.1 hsorted).2.1).1 y hy
  exact hlast y.2 y.1 hless hy' hsame

theorem mismatch_eq_none {x : Register × Nat} {expected w : UInt32}
    (h : s.distort (s.resolve x.1) w = expected) : s.mismatch x expected w = none := if_pos h

theorem mismatch_eq_some {x : Register × Nat} {expected w actual : UInt32}
    (h : s.distort (s.resolve x.1) w = actual) (hne : actual ≠ expected) :
    s.mismatch x expected w = some (.registerTest x.2 expected actual) := by
  subst h
  exact if_neg hne

def Clear (s : Simulator) : Prop := ∀ r ∈ staging, ∀ w, s.distort (s.resolve r) w = w

theorem Clear.patterns (h : s.Clear) : (Controller.testPatterns.findSome? fun pattern =>
    staging.zipIdx.findSome? fun x => s.mismatch x pattern pattern) = none := by
  refine List.findSome?_eq_none_iff.2 fun pattern _ => List.findSome?_eq_none_iff.2 fun x hx => ?_
  exact mismatch_eq_none (h x.1 (List.mem_of_getElem? (List.mk_mem_zipIdx_iff_getElem?.1 hx)) _)

theorem Wired.finds_nothing (h : s.Wired) (hclear : s.Clear)
    (hapart : ∀ p ∈ staging, ∀ q ∈ staging, s.resolve p = s.resolve q → p = q) :
    (file.outcome Controller.selfTest.run s).1 = .ok () := by
  obtain ⟨words, hself⟩ := h.outcome_selfTest
  have hordinals : (staging.zipIdx.findSome? fun x => s.mismatch x (.ofNat x.2)
      ((words.putAll s.ordinalWrites).get (s.resolve x.1))) = none := by
    refine List.findSome?_eq_none_iff.2 fun x hx => mismatch_eq_none ?_
    have hindex := List.mk_mem_zipIdx_iff_getElem?.1 hx
    have hmem := List.mem_of_getElem? hindex
    rw [hclear x.1 hmem]
    refine get_ordinalWrites hindex fun j q hless hq hsame => ?_
    rw [hapart q (List.mem_of_getElem? hq) x.1 hmem hsame] at hq
    have heq := Register.staging_index_inj hindex hq
    omega
  rw [hself, hclear.patterns, hordinals]
  rfl

/-- Where two registers share a place, the earlier one reads as the later one. -/
theorem Wired.finds_shared (h : s.Wired) (hclear : s.Clear) (hi : staging[i]? = some p)
    (hj : staging[j]? = some q) (hless : i < j) (hshared : s.resolve p = s.resolve q)
    (hapart : ∀ u ∈ staging, ∀ v ∈ staging, s.resolve u = s.resolve v →
      u = v ∨ u = p ∧ v = q ∨ u = q ∧ v = p) :
    (file.outcome Controller.selfTest.run s).1 =
      .error (.registerTest i (.ofNat i) (.ofNat j)) := by
  obtain ⟨words, hself⟩ := h.outcome_selfTest
  have hmemp := List.mem_of_getElem? hi
  have hmemq := List.mem_of_getElem? hj
  have hordinals : (staging.zipIdx.findSome? fun x => s.mismatch x (.ofNat x.2)
      ((words.putAll s.ordinalWrites).get (s.resolve x.1))) =
        some (.registerTest i (.ofNat i) (.ofNat j)) := by
    refine findSome?_eq_some_of_unique (List.mk_mem_zipIdx_iff_getElem?.2 hi) ?_ ?_
    · have hword : (words.putAll s.ordinalWrites).get (s.resolve p) = .ofNat j := by
        rw [hshared]
        refine get_ordinalWrites hj fun k u hlater hu hsame => ?_
        rcases hapart u (List.mem_of_getElem? hu) q hmemq hsame with rfl | ⟨rfl, -⟩ | ⟨rfl, -⟩
        · have heq := Register.staging_index_inj hj hu
          omega
        · have heq := Register.staging_index_inj hi hu
          omega
        · have heq := Register.staging_index_inj hj hu
          omega
      refine mismatch_eq_some ((hclear p hmemp _).trans hword) fun hsame => ?_
      have heq := Register.staging_ordinal_inj hj hi hsame
      omega
    · intro y hy hne
      have hindex := List.mk_mem_zipIdx_iff_getElem?.1 hy
      have hmem := List.mem_of_getElem? hindex
      refine mismatch_eq_none ?_
      rw [hclear y.1 hmem]
      refine get_ordinalWrites hindex fun k u hlater hu hsame => ?_
      rcases hapart u (List.mem_of_getElem? hu) y.1 hmem hsame with heq | ⟨rfl, heq⟩ | ⟨-, heq⟩
      · rw [heq] at hu
        have hk := Register.staging_index_inj hindex hu
        omega
      · rw [heq] at hindex
        have hfirst := Register.staging_index_inj hi hu
        have hsecond := Register.staging_index_inj hj hindex
        omega
      · rw [heq] at hindex
        exact hne (Prod.ext heq (Register.staging_index_inj hindex hi))
  rw [hself, hclear.patterns, hordinals]
  rfl

theorem findSome?_staging {wrong : Register × Nat → Option HardwareError}
    (hi : staging[i]? = some r) (hothers : ∀ x ∈ staging.zipIdx, x.1 ≠ r → wrong x = none) :
    staging.zipIdx.findSome? wrong = wrong (r, i) := by
  have hsame : ∀ x ∈ staging.zipIdx, x.1 = r → x = (r, i) := by
    rintro x hx rfl
    exact Prod.ext rfl (Register.staging_index_inj (List.mk_mem_zipIdx_iff_getElem?.1 hx) hi)
  cases hwrong : wrong (r, i) with
  | some e =>
    exact findSome?_eq_some_of_unique (List.mk_mem_zipIdx_iff_getElem?.2 hi) hwrong
      fun x hx hne => hothers x hx fun heq => hne (hsame x hx heq)
  | none =>
    refine List.findSome?_eq_none_iff.2 fun x hx => ?_
    by_cases heq : x.1 = r
    · rw [hsame x hx heq, hwrong]
    · exact hothers x hx heq

theorem findSome?_stuck {high low : UInt32} (hfault : s.fault = some (.stuckBits r high low))
    (hi : staging[i]? = some r) (pattern : UInt32) :
    (staging.zipIdx.findSome? fun x => s.mismatch x pattern pattern) =
      misread i pattern ((pattern ||| high) &&& ~~~low) := by
  have hresolve (q : Register) : s.resolve q = q := by simp only [resolve, hfault]
  rw [findSome?_staging hi fun x _ hne => mismatch_eq_none ?_]
  · simp only [mismatch, hresolve, distort, hfault, if_true]
  · simp only [hresolve, distort, hfault, if_neg hne.symm]

theorem finds_nothing_of_direct (hresolve : ∀ q ∈ staging, s.resolve q = q) (hclear : s.Clear) :
    (file.outcome Controller.selfTest.run s).1 = .ok () := by
  have hwired : s.Wired := fun q hq => by
    rw [hresolve q hq]
    exact Register.stores_of_mem_staging hq
  refine hwired.finds_nothing hclear fun p hp q hq hsame => ?_
  rwa [hresolve p hp, hresolve q hq] at hsame

theorem finds_stuck {high low : UInt32} (hfault : s.fault = some (.stuckBits r high low))
    (hi : staging[i]? = some r) :
    (file.outcome Controller.selfTest.run s).1 =
      if high &&& ~~~low ≠ 0 then .error (.registerTest i 0 (high &&& ~~~low))
      else if low ≠ 0 then .error (.registerTest i 0xFFFFFFFF (~~~low))
      else .ok () := by
  have hresolve (q : Register) : s.resolve q = q := by simp only [resolve, hfault]
  have hwired : s.Wired := fun q hq => by
    rw [hresolve]
    exact Register.stores_of_mem_staging hq
  obtain ⟨words, hself⟩ := hwired.outcome_selfTest
  have hzeroes : (staging.zipIdx.findSome? fun x => s.mismatch x 0 0) =
      if high &&& ~~~low = 0 then none else some (.registerTest i 0 (high &&& ~~~low)) := by
    have hfind := findSome?_stuck hfault hi 0
    rwa [UInt32.zero_or] at hfind
  have hones : (staging.zipIdx.findSome? fun x => s.mismatch x 0xFFFFFFFF 0xFFFFFFFF) =
      if low = 0 then none else some (.registerTest i 0xFFFFFFFF (~~~low)) := by
    have hfind := findSome?_stuck hfault hi 0xFFFFFFFF
    have hor : (0xFFFFFFFF : UInt32) ||| high = 0xFFFFFFFF := UInt32.neg_one_or
    have hand : (0xFFFFFFFF : UInt32) &&& ~~~low = ~~~low := UInt32.neg_one_and
    have hlow : ~~~low = 0xFFFFFFFF ↔ low = 0 := by
      rw [show (0xFFFFFFFF : UInt32) = ~~~0 from rfl, UInt32.not_inj]
    rw [hor, hand] at hfind
    simpa only [misread, hlow] using hfind
  by_cases hhigh : high &&& ~~~low = 0
  · by_cases hlow : low = 0
    · subst hlow
      have hnone : high = 0 := by simpa using hhigh
      subst hnone
      rw [if_neg (by simp), if_neg (by simp)]
      refine finds_nothing_of_direct (fun q _ => hresolve q) fun q _ w => ?_
      simp only [hresolve, distort, hfault]
      split
      · simp
      · rfl
    · rw [if_pos hhigh] at hzeroes
      rw [if_neg hlow] at hones
      rw [hself, Controller.testPatterns, List.findSome?_cons, hzeroes, List.findSome?_cons, hones,
        if_neg (by simpa using hhigh), if_pos hlow]
      rfl
  · rw [if_neg hhigh] at hzeroes
    rw [hself, Controller.testPatterns, List.findSome?_cons, hzeroes, if_pos hhigh]
    rfl

theorem resolve_aliased (hfault : s.fault = some (.aliased p q)) (u : Register) :
    s.resolve u = if p = u then q else u := by
  simp only [resolve, hfault]

theorem finds_aliased (hfault : s.fault = some (.aliased p q)) (hi : staging[i]? = some p)
    (hj : staging[j]? = some q) (hne : i ≠ j) :
    (file.outcome Controller.selfTest.run s).1 =
      .error (.registerTest (min i j) (.ofNat (min i j)) (.ofNat (max i j))) := by
  have hresolve := resolve_aliased hfault
  have hwired : s.Wired := fun u hu => by
    rw [hresolve]
    split
    · exact Register.stores_of_mem_staging (List.mem_of_getElem? hj)
    · exact Register.stores_of_mem_staging hu
  have hclear : s.Clear := fun u _ w => by simp only [distort, hfault]
  have hshared : s.resolve p = s.resolve q := by simp [hresolve]
  have hapart {u v : Register} (h : s.resolve u = s.resolve v) :
      u = v ∨ u = p ∧ v = q ∨ u = q ∧ v = p := by
    rw [hresolve, hresolve] at h
    split at h <;> split at h <;> simp_all
  rcases Nat.lt_or_gt_of_ne hne with hless | hless
  · rw [Nat.min_eq_left (Nat.le_of_lt hless), Nat.max_eq_right (Nat.le_of_lt hless)]
    exact hwired.finds_shared hclear hi hj hless hshared fun u _ v _ => hapart
  · rw [Nat.min_eq_right (Nat.le_of_lt hless), Nat.max_eq_left (Nat.le_of_lt hless)]
    exact hwired.finds_shared hclear hj hi hless hshared.symm fun u _ v _ h =>
      (hapart h).imp_right Or.symm

/-- The self test sees each stuck bit of a staging register, and each pair of them that share a
place. Otherwise it finds nothing. -/
theorem selfTest_verdict (s : Simulator) (v : Verbosity) :
    let verdict := (file.run v Controller.selfTest.run s).1
    (s.fault = none → verdict = .ok ()) ∧
    (∀ r high low, s.fault = some (.stuckBits r high low) →
      (r ∉ staging → verdict = .ok ()) ∧
      ∀ i, staging[i]? = some r →
        (high &&& ~~~low ≠ 0 → verdict = .error (.registerTest i 0 (high &&& ~~~low))) ∧
        (high &&& ~~~low = 0 → low ≠ 0 →
          verdict = .error (.registerTest i 0xFFFFFFFF (~~~low))) ∧
        (verdict = .ok () ↔ high = 0 ∧ low = 0)) ∧
    ∀ r target, s.fault = some (.aliased r target) →
      (r ∉ staging ∨ r = target → verdict = .ok ()) ∧
      ∀ i j, staging[i]? = some r → staging[j]? = some target → i ≠ j →
        verdict = .error (.registerTest (min i j) (.ofNat (min i j)) (.ofNat (max i j))) := by
  intro verdict
  have hverdict : verdict = (file.outcome Controller.selfTest.run s).1 := file.run_fst v _ s
  rw [hverdict]
  refine ⟨fun hfault => ?_, fun r high low hfault => ⟨fun hr => ?_, fun i hi => ?_⟩,
    fun r target hfault => ⟨fun hr => ?_, fun i j hi hj hne => ?_⟩⟩
  · refine finds_nothing_of_direct (fun q _ => ?_) fun q _ w => ?_
    · simp only [resolve, hfault]
    · simp only [distort, hfault]
  · refine finds_nothing_of_direct (fun q _ => ?_) fun q hq w => ?_
    · simp only [resolve, hfault]
    · have hne : r ≠ q := fun heq => hr (heq ▸ hq)
      simp only [resolve, distort, hfault, if_neg hne]
  · rw [finds_stuck hfault hi]
    refine ⟨fun hhigh => if_pos hhigh, fun hhigh hlow => ?_, ?_⟩
    · rw [if_neg (by simpa using hhigh), if_pos hlow]
    · constructor
      · intro hok
        split at hok
        · cases hok
        · split at hok
          · cases hok
          · simp_all
      · rintro ⟨rfl, rfl⟩
        rfl
  · refine finds_nothing_of_direct (fun q hq => ?_) fun q _ w => ?_
    · rw [resolve_aliased hfault, ite_eq_right_iff]
      rintro rfl
      exact (hr.resolve_left (not_not_intro hq)).symm
    · simp only [distort, hfault]
  · exact finds_aliased hfault hi hj hne

/-- A bit that is stuck at zero, under one that is stuck at one and so does not show, and two
registers that are mixed up in either way. -/
theorem selfTest_verdict_of_faults :
    let rate : Register := .staged .x .rate
    let width : Register := .staged .spindle .width
    let stuck : Simulator := { fault := some (.stuckBits rate 8 8), queue := [{}], running := true }
    let aliased : Simulator := { fault := some (.aliased width rate) }
    let swapped : Simulator := { fault := some (.aliased rate width) }
    let verdict (s : Simulator) := (file.run .off Controller.selfTest.run s).1
    verdict {} = .ok () ∧ verdict stuck = .error (.registerTest 0 0xFFFFFFFF 0xFFFFFFF7) ∧
      verdict aliased = .error (.registerTest 0 0 38) ∧
      verdict swapped = .error (.registerTest 0 0 38) := by
  intro rate width stuck aliased swapped verdict
  obtain ⟨hnone, -, -⟩ := selfTest_verdict {} .off
  obtain ⟨-, hstuck, -⟩ := selfTest_verdict stuck .off
  obtain ⟨-, -, haliased⟩ := selfTest_verdict aliased .off
  obtain ⟨-, -, hswapped⟩ := selfTest_verdict swapped .off
  obtain ⟨-, hones, -⟩ := (hstuck rate 8 8 rfl).2 0 rfl
  have hfirst := (haliased width rate rfl).2 38 0 rfl rfl (by decide)
  have hsecond := (hswapped rate width rfl).2 0 38 rfl rfl (by decide)
  exact ⟨hnone rfl, hones (by decide) (by decide), hfirst, hsecond⟩

end Simulator

end PulseMill
