import Mathlib.Data.Nat.Digits.Defs
import Mathlib.Tactic.IntervalCases
import PulseMill.Proofs.LetterCase
import PulseMill.Proofs.Words
set_option autoImplicit false

namespace PulseMill.Assembly

variable {base n : Nat} {c mark : Char} {cs t : List Char} {ds : List Nat}

/-- The characters are the digits of the base with these values. Above nine they are letters, in
either case. -/
structure Digits (base : Nat) (cs : List Char) (ds : List Nat) : Prop where
  lt : ∀ d ∈ ds, d < base
  chars : cs.map Char.toLower = ds.map Nat.digitChar

/-- The text is a numeral, and stands for the number. -/
inductive StandsFor : List Char → Nat → Prop where
  | hexadecimal {mark : Char} {cs : List Char} {ds : List Nat} :
      mark = 'x' ∨ mark = 'X' → ds ≠ [] → Digits 16 cs ds →
        StandsFor ('0' :: mark :: cs) (Nat.ofDigits 16 ds.reverse)
  | octal {cs : List Char} {ds : List Nat} :
      ds ≠ [] → Digits 8 cs ds → StandsFor ('0' :: cs) (Nat.ofDigits 8 ds.reverse)
  | zero : StandsFor ['0'] 0
  | decimal {cs : List Char} {d : Nat} {ds : List Nat} :
      d ≠ 0 → Digits 10 cs (d :: ds) → StandsFor cs (Nat.ofDigits 10 (d :: ds).reverse)

theorem value?_map_digitChar (hbase : base ≤ 16) (h : ∀ d ∈ ds, d < base) :
    value? base (ds.map Nat.digitChar) = some (Nat.ofDigits base ds.reverse) := by
  induction ds using List.reverseRecOn with
  | nil => rfl
  | append_singleton ds d ih =>
    obtain ⟨hds, hd⟩ := List.forall_mem_append.1 h
    have hlast := digit?_digitChar hbase (hd d (List.mem_singleton_self d))
    rw [List.map_append, value?_append, ih hds, List.reverse_append, List.reverse_singleton,
      List.singleton_append, Nat.ofDigits_cons]
    simp [hlast, Nat.add_comm]

theorem Digits.value (hbase : base ≤ 16) (h : Digits base cs ds) :
    value? base cs = some (Nat.ofDigits base ds.reverse) := by
  rw [← value?_map_toLower, h.chars, value?_map_digitChar hbase h.lt]

theorem toLower_of_digit? {d : Nat} (h : digit? base c = some d) :
    d < base ∧ c.toLower = d.digitChar := by
  obtain ⟨hd, hless⟩ := Option.filter_eq_some_iff.1 h
  have hcode : 48 ≤ c.toNat ∧ c.toNat ≤ 57 ∧ c.toNat - 48 = d ∨
      97 ≤ c.toNat ∧ c.toNat ≤ 102 ∧ c.toNat - 97 + 10 = d ∨
        65 ≤ c.toNat ∧ c.toNat ≤ 70 ∧ c.toNat - 65 + 10 = d := by
    split at hd
    case isTrue hdigit =>
      simp only [Char.isDigit, Bool.and_eq_true, decide_eq_true_eq] at hdigit
      exact .inl ⟨hdigit.1, hdigit.2, Option.some.inj hd⟩
    case isFalse =>
      split at hd
      case isTrue hlow => exact .inr (.inl ⟨hlow.1, hlow.2, Option.some.inj hd⟩)
      case isFalse =>
        split at hd
        case isTrue hhigh => exact .inr (.inr ⟨hhigh.1, hhigh.2, Option.some.inj hd⟩)
        case isFalse => cases hd
  refine ⟨by simpa using hless, ?_⟩
  rw [← Char.ofNat_toNat c]
  clear h hd hless
  generalize c.toNat = n at hcode
  rcases hcode with ⟨hlow, hhigh, rfl⟩ | ⟨hlow, hhigh, rfl⟩ | ⟨hlow, hhigh, rfl⟩ <;>
    interval_cases n <;> decide

theorem exists_digits (h : value? base cs = some n) :
    ∃ ds, Digits base cs ds := by
  induction cs using List.reverseRecOn generalizing n with
  | nil => exact ⟨[], nofun, rfl⟩
  | append_singleton cs c ih =>
    rw [value?_append] at h
    obtain ⟨m, hm, hlast⟩ := Option.bind_eq_some_iff.1 h
    obtain ⟨d, hd⟩ : ∃ d, digit? base c = some d := by
      cases hd : digit? base c with
      | none => simp [hd] at hlast
      | some d => exact ⟨d, rfl⟩
    obtain ⟨ds, hds⟩ := ih hm
    obtain ⟨hlt, hchar⟩ := toLower_of_digit? hd
    refine ⟨ds ++ [d], List.forall_mem_append.2 ⟨hds.lt, by simpa using hlt⟩, ?_⟩
    rw [List.map_append, List.map_append, hds.chars]
    simp [hchar]

theorem value?_eq_some_iff (hbase : base ≤ 16) :
    value? base cs = some n ↔ ∃ ds, Digits base cs ds ∧ n = Nat.ofDigits base ds.reverse := by
  constructor
  · intro h
    obtain ⟨ds, hds⟩ := exists_digits h
    exact ⟨ds, hds, Option.some.inj (h.symm.trans (hds.value hbase))⟩
  · intro hgiven
    obtain ⟨ds, hds, rfl⟩ := hgiven
    exact hds.value hbase

theorem Digits.eq_nil_iff (h : Digits base cs ds) : cs = [] ↔ ds = [] := by
  rw [← List.length_eq_zero_iff, ← List.length_eq_zero_iff, ← List.length_map Char.toLower,
    h.chars, List.length_map]

theorem value?_dropWhile_zero (cs : List Char) :
    value? 8 (cs.dropWhile (· = '0')) = value? 8 cs := by
  induction cs with
  | nil => rfl
  | cons c cs ih =>
    by_cases hzero : c = '0'
    · subst hzero
      rw [List.dropWhile_cons_of_pos (by rfl), ih]
      rfl
    · rw [List.dropWhile_cons_of_neg (by simpa using hzero)]

theorem standsFor_hexadecimal (hmark : mark = 'x' ∨ mark = 'X') (hne : cs ≠ [])
    (h : value? 16 cs = some n) : StandsFor ('0' :: mark :: cs) n := by
  obtain ⟨ds, hds, rfl⟩ := (value?_eq_some_iff (by decide)).1 h
  exact .hexadecimal hmark (mt hds.eq_nil_iff.2 hne) hds

theorem standsFor_octal (hne : cs ≠ []) (h : value? 8 cs = some n) : StandsFor ('0' :: cs) n := by
  obtain ⟨ds, hds, rfl⟩ := (value?_eq_some_iff (by decide)).1 h
  exact .octal (mt hds.eq_nil_iff.2 hne) hds

theorem isHexMark_iff : isHexMark c ↔ c = 'x' ∨ c = 'X' := by
  simp [isHexMark]

theorem eq_zero_iff_of_toLower {d : Nat} (hd : d < 10) (h : c.toLower = d.digitChar) :
    c = '0' ↔ d = 0 := by
  have hlower : c.toLower = '0' ↔ c = '0' :=
    decide_eq_decide.1 (Text.apply_toLower (f := fun e => decide (e = '0')) (by decide) c)
  rw [← hlower, h]
  interval_cases d <;> decide

theorem standsFor_decimal (hc : c ≠ '0') (h : value? 10 (c :: cs) = some n) :
    StandsFor (c :: cs) n := by
  obtain ⟨ds, hds, rfl⟩ := (value?_eq_some_iff (by decide)).1 h
  obtain ⟨d, ds, rfl⟩ := List.exists_cons_of_ne_nil (mt hds.eq_nil_iff.2 (List.cons_ne_nil c cs))
  have hfirst : c.toLower = d.digitChar := (List.cons_eq_cons.1 hds.chars).1
  have hless := hds.lt d List.mem_cons_self
  exact .decimal (mt (eq_zero_iff_of_toLower hless hfirst).2 hc) hds

theorem StandsFor.value (h : StandsFor t n) :
    value? (baseAndDigits t).1 (baseAndDigits t).2 = some n ∧
      ((baseAndDigits t).2 = [] → (baseAndDigits t).1 = 8) := by
  cases h with
  | hexadecimal hmark hne hds =>
    rw [baseAndDigits_zero_cons, if_pos (isHexMark_iff.2 hmark)]
    exact ⟨hds.value (Nat.le_refl 16), fun hnil => absurd (hds.eq_nil_iff.1 hnil) hne⟩
  | @octal cs ds hne hds =>
    obtain ⟨c, cs, rfl⟩ := List.exists_cons_of_ne_nil (mt hds.eq_nil_iff.1 hne)
    have hvalue := hds.value (by decide)
    -- The letter of the mark is no octal digit.
    have hmark : ¬ isHexMark c := by
      intro hmark
      rcases isHexMark_iff.1 hmark with rfl | rfl <;> cases hvalue
    rw [baseAndDigits_zero_cons, if_neg hmark]
    exact ⟨(value?_dropWhile_zero _).trans hvalue, fun _ => rfl⟩
  | zero => exact ⟨rfl, nofun⟩
  | @decimal cs d ds hd hds =>
    obtain ⟨c, cs, rfl⟩ :=
      List.exists_cons_of_ne_nil (mt hds.eq_nil_iff.1 (List.cons_ne_nil d ds))
    have hfirst : c.toLower = d.digitChar := (List.cons_eq_cons.1 hds.chars).1
    have hless := hds.lt d List.mem_cons_self
    have hvalue := hds.value (by decide)
    rw [baseAndDigits_of_ne (mt (eq_zero_iff_of_toLower hless hfirst).1 hd)]
    exact ⟨hvalue, nofun⟩

theorem standsFor_of_value (hvalue : value? (baseAndDigits t).1 (baseAndDigits t).2 = some n)
    (hsome : (baseAndDigits t).2 = [] → (baseAndDigits t).1 = 8) : StandsFor t n := by
  cases t with
  | nil => cases hsome rfl
  | cons c t =>
    by_cases hc : c = '0'
    · subst hc
      cases t with
      | nil =>
        obtain rfl : 0 = n := Option.some.inj hvalue
        exact .zero
      | cons c t =>
        rw [baseAndDigits_zero_cons] at hvalue hsome
        by_cases hmark : isHexMark c
        · rw [if_pos hmark] at hvalue hsome
          exact standsFor_hexadecimal (isHexMark_iff.1 hmark) (fun hnil => nomatch hsome hnil)
            hvalue
        · rw [if_neg hmark] at hvalue
          exact standsFor_octal (List.cons_ne_nil c t)
            ((value?_dropWhile_zero _).symm.trans hvalue)
    · rw [baseAndDigits_of_ne hc] at hvalue
      exact standsFor_decimal hc hvalue

theorem standsFor_iff : StandsFor t n ↔
    value? (baseAndDigits t).1 (baseAndDigits t).2 = some n ∧
      ((baseAndDigits t).2 = [] → (baseAndDigits t).1 = 8) :=
  ⟨StandsFor.value, fun h => standsFor_of_value h.1 h.2⟩

def numeralChars : List Char := "0123456789abcdefABCDEFxX".toList

theorem Digits.mem_numeralChars (hbase : base ≤ 16) (h : Digits base cs ds) :
    ∀ c ∈ cs, c ∈ numeralChars := by
  intro c hc
  have hcase : c.toLower ∈ numeralChars ↔ c ∈ numeralChars :=
    decide_eq_decide.1 (Text.apply_toLower (f := fun e => decide (e ∈ numeralChars)) (by decide) c)
  have hdigit : ∀ d < 16, d.digitChar ∈ numeralChars := by decide
  have hlower : c.toLower ∈ ds.map Nat.digitChar := h.chars ▸ List.mem_map_of_mem hc
  obtain ⟨d, hd, hchar⟩ := List.mem_map.1 hlower
  rw [← hcase, ← hchar]
  exact hdigit d ((h.lt d hd).trans_le hbase)

theorem StandsFor.chars (h : StandsFor t n) : t ≠ [] ∧ ∀ c ∈ t, c ∈ numeralChars := by
  cases h with
  | @hexadecimal mark cs ds hmark _ hds =>
    have hletter : mark ∈ numeralChars := by rcases hmark with rfl | rfl <;> decide
    exact ⟨List.cons_ne_nil _ _, List.forall_mem_cons.2 ⟨by decide,
      List.forall_mem_cons.2 ⟨hletter, hds.mem_numeralChars (by decide)⟩⟩⟩
  | octal _ hds =>
    exact ⟨List.cons_ne_nil _ _,
      List.forall_mem_cons.2 ⟨by decide, hds.mem_numeralChars (by decide)⟩⟩
  | zero => exact ⟨List.cons_ne_nil _ _, List.forall_mem_cons.2 ⟨by decide, nofun⟩⟩
  | decimal _ hds =>
    exact ⟨mt hds.eq_nil_iff.1 (List.cons_ne_nil _ _), hds.mem_numeralChars (by decide)⟩

/-- The text is the number, written in decimal, in octal or in hexadecimal, where the letters may be
in either case. -/
inductive Renders (n : Nat) : List Char → Prop where
  | decimal : Renders n (Nat.toDigits 10 n)
  | octal : Renders n ('0' :: Nat.toDigits 8 n)
  | hexadecimal {mark : Char} {cs : List Char} :
      mark = 'x' ∨ mark = 'X' → cs.map Char.toLower = Nat.toDigits 16 n →
        Renders n ('0' :: mark :: cs)

theorem Renders.standsFor (h : Renders n t) : StandsFor t n := by
  cases h with
  | decimal =>
    refine standsFor_iff.2 ?_
    rw [baseAndDigits_toDigits]
    dsimp only
    exact ⟨value?_toDigits (by decide) (by decide) n, fun hnil => absurd hnil Nat.toDigits_ne_nil⟩
  | octal => exact standsFor_octal Nat.toDigits_ne_nil (value?_toDigits (by decide) (by decide) n)
  | @hexadecimal mark cs hmark hcs =>
    have hvalue : value? 16 cs = some n := by
      rw [← value?_map_toLower, hcs, value?_toDigits (by decide) (by decide)]
    have hne : cs ≠ [] := by
      rintro rfl
      exact Nat.toDigits_ne_nil hcs.symm
    exact standsFor_hexadecimal hmark hne hvalue

theorem readNumeral_of_standsFor (h : StandsFor t n) :
    readNumeral t = if n < 2 ^ 32 then .ok (.ofNat n) else .error .numberOutOfRange := by
  obtain ⟨hvalue, hsome⟩ := standsFor_iff.1 h
  have hsign : t.head? ≠ some '-' := by
    intro hhead
    exact absurd (h.chars.2 '-' (List.mem_of_mem_head? hhead)) (by decide)
  have hgiven : ((baseAndDigits t).2.isEmpty && (baseAndDigits t).1 ≠ 8) = false := by
    simpa using hsome
  rw [readNumeral, if_neg hsign]
  dsimp only
  rw [hvalue, hgiven]
  simp only [Bool.false_eq_true, if_false]
  have hsize : UInt32.size = 2 ^ 32 := rfl
  by_cases hless : n < 2 ^ 32
  · rw [dif_pos (hsize ▸ hless), if_pos hless, UInt32.ofNatLT_eq_ofNat]
  · rw [dif_neg (hsize ▸ hless), if_neg hless]

theorem readNumeral_malformed (hsign : t.head? ≠ some '-') (h : ∀ n, ¬ StandsFor t n) :
    readNumeral t = .error .malformedNumber := by
  rw [readNumeral, if_neg hsign]
  dsimp only
  split
  case h_1 => rfl
  case h_2 n hvalue =>
    refine if_pos ?_
    have hnot := mt (fun hsome => standsFor_iff.2 ⟨hvalue, hsome⟩) (h n)
    simpa using hnot

/-- An argument is read as a numeral that has no sign. What is left out is zero, what has a minus,
is too large or is no numeral is refused with a fault that says which. The characters that are no
part of a numeral spoil it wherever they are, and blanks around it never do. -/
theorem readNumber_strict :
    readNumber none = .ok 0 ∧
    (∀ s t, Text.Strips s.toList t →
      (t.head? = some '-' → readNumber (some s) = .error .negativeNumber) ∧
      (∀ n, StandsFor t n → readNumber (some s) =
        if n < 2 ^ 32 then .ok (.ofNat n) else .error .numberOutOfRange) ∧
      (t.head? ≠ some '-' → (∀ n, ¬ StandsFor t n) →
        readNumber (some s) = .error .malformedNumber) ∧
      (t.head? ≠ some '-' →
        t = [] ∨ t = ['0', 'x'] ∨ t = ['0', 'X'] ∨ (∃ c ∈ t, c ∉ numeralChars) →
          readNumber (some s) = .error .malformedNumber)) ∧
    ∀ (w : UInt32) before t after, (∀ c ∈ before ++ after, Text.isBlank c) → Renders w.toNat t →
      readNumber (some (.ofList (before ++ t ++ after))) = .ok w := by
  have hread {s : String} {t : List Char} (h : Text.Strips s.toList t) :
      readNumber (some s) = readNumeral t := by
    rw [readNumber, Text.strips_iff.1 h]
  refine ⟨rfl, fun s t h => ?_, fun w before t after hblank h => ?_⟩
  · rw [hread h]
    refine ⟨fun hsign => if_pos hsign, fun n => readNumeral_of_standsFor,
      readNumeral_malformed, fun hsign hbad => readNumeral_malformed hsign fun n hn => ?_⟩
    obtain ⟨hne, hchars⟩ := hn.chars
    rcases hbad with hnil | hmark | hmark | ⟨c, hc, hother⟩
    · exact hne hnil
    · subst hmark
      exact absurd ((standsFor_iff.1 hn).2 rfl) (by decide)
    · subst hmark
      exact absurd ((standsFor_iff.1 hn).2 rfl) (by decide)
    · exact hother (hchars c hc)
  · obtain ⟨hne, hchars⟩ := h.standsFor.chars
    have halnum : ∀ c ∈ numeralChars, c.isAlphanum := List.all_eq_true.1 (by decide)
    have hplain {c : Char} (hc : c ∈ t) : Text.isBlank c = false :=
      Text.isBlank_of_isAlphanum (halnum c (hchars c hc))
    have hstrips : Text.Strips (String.ofList (before ++ t ++ after)).toList t := by
      refine ⟨⟨before, after, String.toList_ofList, hblank⟩, fun c hc => ?_, fun c hc => ?_⟩
      · exact hplain (List.mem_of_mem_head? hc)
      · exact hplain (List.mem_of_mem_getLast? hc)
    rw [hread hstrips, readNumeral_of_standsFor h.standsFor, if_pos w.toNat_lt, UInt32.ofNat_toNat]

/-- Zeros do not make a number large, and a letter out of place is not made good by digits that
would be too many. -/
theorem readNumber_strict_of_zeros :
    readNumber (some " 0X00000000fF\n") = .ok 255 ∧
      readNumber (some "99999999999z") = .error .malformedNumber := by
  have hnumeral : StandsFor ("0X00000000fF".toList) 255 :=
    standsFor_hexadecimal (.inr rfl) (by decide) rfl
  have hzeros := readNumber_strict.2.1 " 0X00000000fF\n" "0X00000000fF".toList
    (Text.strips_iff.2 (by decide))
  have hletter := readNumber_strict.2.1 "99999999999z" "99999999999z".toList
    (Text.strips_iff.2 (by decide))
  exact ⟨hzeros.2.1 255 hnumeral,
    hletter.2.2.2 (by decide) (.inr (.inr (.inr ⟨'z', by decide, by decide⟩)))⟩

end PulseMill.Assembly
