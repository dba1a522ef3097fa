import Mathlib.Tactic.IntervalCases
import PulseMill.Proofs.Meaning
set_option autoImplicit false

namespace PulseMill

open Assembly (compileOpcode compileMotion compileBlock)

namespace Text

def capitals : List Char := "ABCDEFGHIJKLMNOPQRSTUVWXYZ".toList

theorem toLower_eq_or_mem_capitals (c : Char) : c.toLower = c ∨ c ∈ capitals := by
  by_cases h : c.val ≥ 'A'.val ∧ c.val ≤ 'Z'.val
  · have hlow : 65 ≤ c.toNat := h.1
    have hhigh : c.toNat ≤ 90 := h.2
    rw [← Char.ofNat_toNat c]
    generalize c.toNat = n at hlow hhigh
    refine .inr ?_
    interval_cases n <;> decide
  · exact .inl (dif_neg h)

theorem apply_toLower {α : Type} {f : Char → α}
    (h : capitals.map (fun d => f d.toLower) = capitals.map f) (c : Char) : f c.toLower = f c := by
  rcases toLower_eq_or_mem_capitals c with hsame | hcapital
  · rw [hsame]
  · exact List.map_inj_left.1 h c hcapital

theorem trim_map_toLower (cs : List Char) :
    trim (cs.map Char.toLower) = (trim cs).map Char.toLower := by
  have hblank : isBlank ∘ Char.toLower = isBlank := funext (apply_toLower (by decide))
  simp only [trim, trimEnd, trimStart, List.dropWhile_map, ← List.map_reverse, hblank]

theorem isEmpty_congr {s t : String} (h : folded s = folded t) : s.isEmpty = t.isEmpty := by
  have hlength : (folded s).length = (folded t).length := congrArg List.length h
  simp only [folded, List.length_map] at hlength
  rw [Bool.eq_iff_iff, String.isEmpty_iff, String.isEmpty_iff, ← String.toList_eq_nil_iff,
    ← String.toList_eq_nil_iff, ← List.length_eq_zero_iff, ← List.length_eq_zero_iff, hlength]

theorem map_folded_cases {p q : Option String} (h : p.map folded = q.map folded) :
    p = none ∧ q = none ∨ ∃ s t, p = some s ∧ q = some t ∧ folded s = folded t := by
  cases p with
  | none => exact .inl ⟨rfl, Option.map_eq_none_iff.1 h.symm⟩
  | some s =>
    obtain ⟨t, ht, hfolded⟩ := Option.map_eq_some_iff.1 h.symm
    exact .inr ⟨s, t, rfl, ht, hfolded.symm⟩

end Text

theorem Keyword.ofSymbol?_congr {s t : String} (h : Text.folded s = Text.folded t) :
    ofSymbol? s = ofSymbol? t := by
  have hname (name : String) : Text.sameName s name = Text.sameName t name := by
    rw [Text.sameName, Text.sameName, h]
  rw [ofSymbol?, ofSymbol?, hname, hname]

namespace Assembly

theorem digit?_eq_filter (base : Nat) (c : Char) :
    digit? base c = (digit? 16 c).filter (· < base) := by
  have hless {n : Nat} (h : n < 16) :
      (some n).filter (· < base) = ((some n).filter (· < 16)).filter (· < base) := by
    have hkept : (some n).filter (· < 16) = some n := Option.filter_some_pos (by simpa using h)
    rw [hkept]
  unfold digit?
  dsimp only
  split
  case isTrue hdigit =>
    refine hless ?_
    simp only [Char.isDigit, Bool.and_eq_true, decide_eq_true_eq] at hdigit
    have hnine : c.toNat ≤ '9'.toNat := hdigit.2
    simp at hnine ⊢
    omega
  case isFalse =>
    split
    case isTrue hlow =>
      refine hless ?_
      have hf : c.toNat ≤ 'f'.toNat := hlow.2
      simp at hf ⊢
      omega
    case isFalse =>
      split
      case isTrue hhigh =>
        refine hless ?_
        have hf : c.toNat ≤ 'F'.toNat := hhigh.2
        simp at hf ⊢
        omega
      case isFalse => rfl

theorem digit?_toLower (base : Nat) (c : Char) : digit? base c.toLower = digit? base c := by
  rw [digit?_eq_filter, digit?_eq_filter base c]
  exact congrArg _ (Text.apply_toLower (by decide) c)

theorem value?_map_toLower (base : Nat) (ds : List Char) :
    value? base (ds.map Char.toLower) = value? base ds := by
  simp only [value?, List.foldlM_map, digit?_toLower]

def isHexMark (c : Char) : Bool := c = 'x' || c = 'X'

theorem baseAndDigits_zero_cons (c : Char) (ds : List Char) :
    baseAndDigits ('0' :: c :: ds) =
      if isHexMark c then (16, ds) else (8, (c :: ds).dropWhile (· = '0')) := by
  unfold baseAndDigits isHexMark
  split <;> simp_all

theorem baseAndDigits_of_ne {c : Char} (h : c ≠ '0') (ds : List Char) :
    baseAndDigits (c :: ds) = (10, c :: ds) := by
  unfold baseAndDigits
  split <;> simp_all

theorem baseAndDigits_map_toLower (t : List Char) :
    baseAndDigits (t.map Char.toLower) =
      ((baseAndDigits t).1, (baseAndDigits t).2.map Char.toLower) := by
  have hzero (c : Char) : decide (c.toLower = '0') = decide (c = '0') :=
    Text.apply_toLower (f := fun e => decide (e = '0')) (by decide) c
  cases t with
  | nil => rfl
  | cons c t =>
    by_cases hc : c = '0'
    · subst hc
      cases t with
      | nil => rfl
      | cons d ds =>
        have hmark : isHexMark d.toLower = isHexMark d := Text.apply_toLower (by decide) d
        have hzeros : (fun e => decide (e = '0')) ∘ Char.toLower = fun e => decide (e = '0') :=
          funext hzero
        have hmap : ('0' :: d :: ds).map Char.toLower = '0' :: d.toLower :: ds.map Char.toLower :=
          rfl
        rw [hmap, baseAndDigits_zero_cons, baseAndDigits_zero_cons, hmark]
        cases isHexMark d with
        | true => rfl
        | false =>
          simp only [Bool.false_eq_true, if_false, ← List.map_cons, List.dropWhile_map, hzeros]
    · have hlower : c.toLower ≠ '0' := mt (decide_eq_decide.1 (hzero c)).1 hc
      rw [List.map_cons, baseAndDigits_of_ne hc, baseAndDigits_of_ne hlower, List.map_cons]

theorem readNumeral_map_toLower (t : List Char) :
    readNumeral (t.map Char.toLower) = readNumeral t := by
  have hsign : (t.map Char.toLower).head? = some '-' ↔ t.head? = some '-' := by
    cases t with
    | nil => rfl
    | cons c t =>
      have hc : decide (c.toLower = '-') = decide (c = '-') :=
        Text.apply_toLower (f := fun e => decide (e = '-')) (by decide) c
      simpa using hc
  simp only [readNumeral, hsign, baseAndDigits_map_toLower, value?_map_toLower, List.isEmpty_map]

theorem readNumber_congr {p q : Option String} (h : p.map Text.folded = q.map Text.folded) :
    readNumber p = readNumber q := by
  rcases Text.map_folded_cases h with ⟨rfl, rfl⟩ | ⟨s, t, rfl, rfl, hfolded⟩
  · rfl
  · have hlower : s.toList.map Char.toLower = t.toList.map Char.toLower := hfolded
    rw [readNumber, readNumber, ← readNumeral_map_toLower, ← Text.trim_map_toLower, hlower,
      Text.trim_map_toLower, readNumeral_map_toLower]

end Assembly

/-- The same axis, and the same texts up to the case of their letters. Both leave out the same
arguments. -/
structure Opcode.Alike (op other : Opcode) : Prop where
  axis : op.axis = other.axis
  mnemonic : op.mnemonic.map Text.folded = other.mnemonic.map Text.folded
  arg0 : op.arg0.map Text.folded = other.arg0.map Text.folded
  arg1 : op.arg1.map Text.folded = other.arg1.map Text.folded
  arg2 : op.arg2.map Text.folded = other.arg2.map Text.folded

namespace Opcode.Alike

variable {op other : Opcode}

protected theorem refl (op : Opcode) : op.Alike op := ⟨rfl, rfl, rfl, rfl, rfl⟩

theorem mnemonic_eq (h : op.Alike other) :
    op.mnemonic.bind Mnemonic.ofSymbol? = other.mnemonic.bind Mnemonic.ofSymbol? := by
  rcases Text.map_folded_cases h.mnemonic with ⟨hs, ht⟩ | ⟨s, t, hs, ht, hfolded⟩
  · rw [hs, ht]
  · rw [hs, ht]
    exact Mnemonic.ofSymbol?_congr (Text.sameName_iff.2 hfolded)

theorem isEmpty_eq (h : op.Alike other) : op.isEmpty = other.isEmpty := by
  have hm := congrArg Option.isNone h.mnemonic
  rwa [Option.isNone_map, Option.isNone_map] at hm

theorem compileOpcode_eq (h : op.Alike other) : compileOpcode op = compileOpcode other := by
  unfold compileOpcode
  rw [Assembly.readNumber_congr h.arg0, Assembly.readNumber_congr h.arg1,
    Assembly.readNumber_congr h.arg2]
  rcases Text.map_folded_cases h.mnemonic with ⟨hs, ht⟩ | ⟨s, t, hs, ht, hfolded⟩
  · rw [hs, ht]
  · have hword : Assembly.instructionWord s = Assembly.instructionWord t := by
      rw [Assembly.instructionWord, Assembly.instructionWord,
        Mnemonic.ofSymbol?_congr (Text.sameName_iff.2 hfolded)]
    rw [hs, ht]
    dsimp only
    rw [hword]

theorem compileMotion_eq (h : op.Alike other) : compileMotion op = compileMotion other := by
  rw [compileMotion, compileMotion, Opcode.isPseudo, Opcode.isPseudo, h.mnemonic_eq,
    h.compileOpcode_eq]

theorem ofArgs (axis : Axis) {m n : String} {args more : List (Option String)}
    (hm : Text.folded m = Text.folded n)
    (hargs : args.map (Option.map Text.folded) = more.map (Option.map Text.folded)) :
    (Opcode.ofArgs axis m args).Alike (.ofArgs axis n more) := by
  have hjoin (l : List (Option String)) (i : Nat) :
      l[i]?.join.map Text.folded = (l.map (Option.map Text.folded))[i]?.join := by
    rw [List.getElem?_map]
    cases l[i]? <;> rfl
  have harg (i : Nat) : args[i]?.join.map Text.folded = more[i]?.join.map Text.folded := by
    rw [hjoin, hjoin, hargs]
  exact ⟨rfl, congrArg some hm, harg 0, harg 1, harg 2⟩

end Opcode.Alike

structure Slots.Alike (s t : Slots) : Prop where
  x : s.x.Alike t.x
  y : s.y.Alike t.y
  z : s.z.Alike t.z
  a : s.a.Alike t.a
  info : s.info.Alike t.info

namespace Slots.Alike

variable {s t : Slots}

protected theorem refl (s : Slots) : s.Alike s := ⟨.refl _, .refl _, .refl _, .refl _, .refl _⟩

theorem holds_eq (h : s.Alike t) (axis : Axis) : s.holds axis = t.holds axis := by
  have hslot {op other : Opcode} (hop : op.Alike other) : (!op.isEmpty) = !other.isEmpty := by
    rw [hop.isEmpty_eq]
  cases axis
  case x => exact hslot h.x
  case y => exact hslot h.y
  case z => exact hslot h.z
  case a => exact hslot h.a
  case info => exact hslot h.info
  all_goals rfl

theorem set (h : s.Alike t) (axis : Axis) {op other : Opcode} (hop : op.Alike other) :
    (s.set axis op).Alike (t.set axis other) := by
  cases axis
  case x => exact ⟨hop, h.y, h.z, h.a, h.info⟩
  case y => exact ⟨h.x, hop, h.z, h.a, h.info⟩
  case z => exact ⟨h.x, h.y, hop, h.a, h.info⟩
  case a => exact ⟨h.x, h.y, h.z, hop, h.info⟩
  case info => exact ⟨h.x, h.y, h.z, h.a, hop⟩
  all_goals exact h

theorem compileBlock_eq (h : s.Alike t) : compileBlock s = compileBlock t := by
  rw [compileBlock, compileBlock, h.x.compileMotion_eq, h.y.compileMotion_eq, h.z.compileMotion_eq,
    h.a.compileMotion_eq]

end Slots.Alike

structure Info.Alike (i j : Info) : Prop where
  header : Option.Rel Opcode.Alike i.header j.header
  config : Option.Rel Opcode.Alike i.config j.config

end PulseMill
