import PulseMill.Proofs.ImageRoundTrip
set_option autoImplicit false

/-!
What an image can ask of its reader. A number may be written with more bytes than it needs, and a
count or a length may announce more than follows. The bytes that a program has been read from are
at least as many as it is written in, and more than what it holds takes up. What is announced
beyond the end of the input is refused there.
-/

namespace PulseMill.Image

variable {α β : Type} {read : Reader α} {write : α → Bytes} {before bytes rest : Bytes} {a : α}

/-- The value is read from bytes that frame it. What it is written as, behind what has been written
before, frames it too and is no longer. -/
def Canonical (before : Bytes) (read : Reader α) (write : α → Bytes) : Prop :=
  ∀ ⦃bytes a rest⦄, read bytes = .ok (a, rest) → ∃ used written,
    bytes = used ++ rest ∧ write a = before ++ written ∧
      Frames read used a ∧ Frames read written a ∧ written.length ≤ used.length

theorem bind_eq_ok {x : Reader α} {f : α → Reader β} {r : β × Bytes} :
    (x >>= f) bytes = .ok r ↔ ∃ a mid, x bytes = .ok (a, mid) ∧ f a mid = .ok r := by
  simp only [Bind.bind, StateT.bind]
  rcases x bytes with e | ⟨a, mid⟩
  · simp [Except.bind]
  · simp [Except.bind, and_assoc]

theorem Canonical.pure (h : write a = before) : Canonical before (Pure.pure a) write := by
  intro bytes b rest hread
  cases hread
  exact ⟨[], [], rfl, by rw [h, List.append_nil], .pure a, .pure a, Nat.le_refl 0⟩

theorem Canonical.bind {x : Reader β} {f : β → Reader α} {writeFirst : β → Bytes}
    (hx : Canonical [] x writeFirst)
    (hf : ∀ b, (∃ bytes rest, x bytes = .ok (b, rest)) →
      Canonical (before ++ writeFirst b) (f b) write) : Canonical before (x >>= f) write := by
  intro bytes a rest hread
  obtain ⟨b, mid, hfirst, hsecond⟩ := bind_eq_ok.1 hread
  obtain ⟨used, written, rfl, hb, hused, hwritten, hle⟩ := hx hfirst
  obtain ⟨used', written', rfl, ha, hused', hwritten', hle'⟩ := hf b ⟨_, _, hfirst⟩ hsecond
  refine ⟨used ++ used', written ++ written', (List.append_assoc ..).symm, ?_,
    hused.bind hused', hwritten.bind hwritten', ?_⟩
  · rw [ha, hb, List.nil_append, List.append_assoc]
  · simp only [List.length_append]
    omega

theorem Frames.continued {last more high : Nat} {used : Bytes} {b : UInt8} (hb : ¬ b.toNat < 128)
    (h : Frames (readNat last more) used high) :
    Frames (readNat last (more + 1)) (b :: used) (b.toNat - 128 + 128 * high) where
  whole tail := by
    simp [readNat, hb, h.whole tail, Bind.bind, Except.bind, Pure.pure, Except.pure]
  cut {short rest} hsplit hrest := by
    cases short with
    | nil => exact readNat_nil last (more + 1)
    | cons c short =>
      rw [List.cons_append, List.cons_eq_cons] at hsplit
      obtain ⟨rfl, hsplit⟩ := hsplit
      have hcut := h.cut hsplit hrest
      simp [readNat, hb, hcut, Bind.bind, Except.bind]

theorem frames_byte {last more : Nat} {b : UInt8} (hl : last < 128) (hb : b.toNat < 128)
    (hbound : b.toNat < (last + 1) * Nat.pow 128 more) :
    writeNat b.toNat = [b] ∧ Frames (readNat last more) [b] b.toNat := by
  have hone : writeNat b.toNat = [b] := by rw [writeNat_of_lt hb, UInt8.ofNat_toNat]
  exact ⟨hone, hone ▸ frames_nat hl hbound⟩

theorem readNat_law {last more n : Nat} (hl : last < 128)
    (h : readNat last more bytes = .ok (n, rest)) :
    n < (last + 1) * Nat.pow 128 more ∧ ∃ used, bytes = used ++ rest ∧
      Frames (readNat last more) used n ∧ (writeNat n).length ≤ used.length := by
  induction more generalizing bytes n with
  | zero =>
    cases bytes with
    | nil => cases h
    | cons b bytes =>
      rw [readNat] at h
      split at h
      case isFalse => cases h
      case isTrue hb =>
        cases h
        have hbound : b.toNat < (last + 1) * Nat.pow 128 0 := by simpa [Nat.lt_succ_iff] using hb
        obtain ⟨hone, hframes⟩ := frames_byte hl (by omega) hbound
        exact ⟨hbound, [b], rfl, hframes, Nat.le_of_eq (congrArg List.length hone)⟩
  | succ more ih =>
    cases bytes with
    | nil => cases h
    | cons b bytes =>
      rw [readNat] at h
      split at h
      case isTrue hb =>
        cases h
        have hpos : 1 ≤ (last + 1) * Nat.pow 128 more :=
          Nat.mul_pos (Nat.succ_pos _) (Nat.pow_pos (by decide))
        have hbound : b.toNat < (last + 1) * Nat.pow 128 (more + 1) := by
          have hpow : (last + 1) * Nat.pow 128 (more + 1) =
              (last + 1) * Nat.pow 128 more * 128 := (Nat.mul_assoc ..).symm
          omega
        obtain ⟨hone, hframes⟩ := frames_byte hl hb hbound
        exact ⟨hbound, [b], rfl, hframes, Nat.le_of_eq (congrArg List.length hone)⟩
      case isFalse hb =>
        cases hhigh : readNat last more bytes with
        | error e => simp [hhigh, Bind.bind, Except.bind] at h
        | ok p =>
          obtain ⟨high, rest'⟩ := p
          simp only [hhigh, Bind.bind, Except.bind, Pure.pure, Except.pure, Except.ok.injEq,
            Prod.mk.injEq] at h
          obtain ⟨rfl, rfl⟩ := h
          obtain ⟨hbound, used, rfl, hframes, hle⟩ := ih hhigh
          have hbyte := b.toNat_lt
          have hpow : (last + 1) * Nat.pow 128 (more + 1) =
              (last + 1) * Nat.pow 128 more * 128 := (Nat.mul_assoc ..).symm
          refine ⟨by omega, b :: used, rfl, hframes.continued hb, ?_⟩
          by_cases hsmall : b.toNat - 128 + 128 * high < 128
          · rw [writeNat_of_lt hsmall]
            simp
          · have hdiv : (b.toNat - 128 + 128 * high) / 128 = high := by omega
            rw [writeNat_of_le (by omega), hdiv]
            simpa using hle

theorem canonical_nat {last more : Nat} (hl : last < 128) :
    Canonical [] (readNat last more) writeNat := by
  intro bytes n rest hread
  obtain ⟨hbound, used, hbytes, hframes, hle⟩ := readNat_law hl hread
  exact ⟨used, writeNat n, hbytes, rfl, hframes, frames_nat hl hbound, hle⟩

theorem canonical_word : Canonical [] readWord writeWord := by
  intro bytes w rest hread
  have hread : (readNat 0x0F 4 >>= fun n => Pure.pure (UInt32.ofNat n)) bytes = .ok (w, rest) :=
    hread
  obtain ⟨n, mid, hnat, hw⟩ := bind_eq_ok.1 hread
  cases hw
  obtain ⟨hbound, used, hbytes, hframes, hle⟩ := readNat_law (by decide) hnat
  have hword : (UInt32.ofNat n).toNat = n := UInt32.toNat_ofNat_of_lt hbound
  exact ⟨used, writeWord (.ofNat n), hbytes, rfl, hframes.map UInt32.ofNat, frames_word _,
    by rwa [writeWord, hword]⟩

theorem canonical_length : Canonical [] readLength writeNat := canonical_nat (by decide)

theorem take_eq_ok {n : Nat} {taken : Bytes} :
    take n bytes = .ok (taken, rest) ↔ bytes = taken ++ rest ∧ taken.length = n := by
  unfold take
  constructor
  · intro h
    split at h
    case isTrue hle =>
      cases h
      exact ⟨(List.take_append_drop n bytes).symm, List.length_take_of_le hle⟩
    case isFalse => cases h
  · intro hgiven
    obtain ⟨rfl, rfl⟩ := hgiven
    simp

theorem canonical_take (n : Nat) : Canonical [] (take n) id := by
  intro bytes taken rest hread
  obtain ⟨rfl, rfl⟩ := take_eq_ok.1 hread
  exact ⟨taken, taken, rfl, rfl, frames_take taken, frames_take taken, Nat.le_refl _⟩

theorem toUTF8_of_fromUTF8? {bytes : Bytes} {s : String}
    (h : String.fromUTF8? bytes.toByteArray = some s) : s.toUTF8.data.toList = bytes := by
  unfold String.fromUTF8? at h
  split at h
  case isTrue hvalid =>
    cases h
    change bytes.toByteArray.data.toList = bytes
    rw [List.data_toByteArray]
  case isFalse => cases h

theorem canonical_text : Canonical [] readText writeText := by
  refine canonical_length.bind fun n _ => (canonical_take n).bind fun bytes htaken => ?_
  obtain ⟨_, _, htaken⟩ := htaken
  obtain ⟨-, rfl⟩ := take_eq_ok.1 htaken
  cases hs : String.fromUTF8? bytes.toByteArray with
  | none => exact nofun
  | some s => exact .pure (by rw [writeText, toUTF8_of_fromUTF8? hs]; rfl)

theorem Canonical.option (h : Canonical [] read write) :
    Canonical [] (readOption read) (writeOption write) := by
  have hsome {bytes : Bytes} {a : α} (hframes : Frames read bytes a) :
      Frames (readOption read) (writeOption (fun _ => bytes) (some a)) (some a) :=
    frames_option fun _ ha => Option.some.inj ha ▸ hframes
  intro bytes o rest hread
  cases bytes with
  | nil => cases hread
  | cons b bytes =>
    rw [readOption] at hread
    split at hread
    case isTrue hnone =>
      cases hread
      subst hnone
      have hframes : Frames (readOption read) (writeOption write none) none :=
        frames_option nofun
      exact ⟨[0], [0], rfl, rfl, hframes, hframes, Nat.le_refl 1⟩
    case isFalse =>
      split at hread
      case isTrue hone =>
        subst hone
        have hread : (read >>= fun a => Pure.pure (some a)) bytes = .ok (o, rest) := hread
        obtain ⟨a, mid, ha, ho⟩ := bind_eq_ok.1 hread
        cases ho
        obtain ⟨used, written, rfl, hwrite, hused, hwritten, hle⟩ := h ha
        exact ⟨1 :: used, 1 :: written, rfl, congrArg (1 :: ·) hwrite, hsome hused, hsome hwritten,
          Nat.succ_le_succ hle⟩
      case isFalse => cases hread

theorem canonical_axis : Canonical [] readAxis writeAxis := by
  refine canonical_word.bind fun w _ => ?_
  cases haxis : Axis.ofIndex? w.toNat with
  | none => exact nofun
  | some axis => exact .pure (by rw [writeAxis, Axis.ofIndex?_eq_some haxis]; rfl)

theorem canonical_opcode : Canonical [] readOpcode writeOpcode :=
  canonical_axis.bind fun _ _ => canonical_text.option.bind fun _ _ =>
    canonical_text.option.bind fun _ _ => canonical_text.option.bind fun _ _ =>
      canonical_text.option.bind fun _ _ => .pure rfl

theorem canonical_axisWords : Canonical [] readAxisWords writeAxisWords :=
  canonical_word.bind fun _ _ => canonical_word.bind fun _ _ => canonical_word.bind fun _ _ =>
    canonical_word.bind fun _ _ => .pure rfl

theorem canonical_block : Canonical [] readBlock writeBlock :=
  canonical_axisWords.bind fun _ _ => canonical_axisWords.bind fun _ _ =>
    canonical_axisWords.bind fun _ _ => canonical_axisWords.bind fun _ _ => .pure rfl

theorem length_of_readBlocks {n : Nat} {blocks : List Block}
    (h : readBlocks n bytes = .ok (blocks, rest)) : blocks.length = n := by
  induction n generalizing bytes blocks with
  | zero =>
    cases h
    rfl
  | succ n ih =>
    obtain ⟨b, mid, -, h⟩ := bind_eq_ok.1 h
    obtain ⟨bs, mid', hmore, h⟩ := bind_eq_ok.1 h
    cases h
    rw [List.length_cons, ih hmore]

theorem canonical_blocks (n : Nat) :
    Canonical [] (readBlocks n) fun blocks => blocks.flatMap writeBlock := by
  induction n with
  | zero => exact .pure rfl
  | succ n ih => exact canonical_block.bind fun b _ => ih.bind fun bs _ => .pure rfl

theorem canonical_contents : Canonical [] readContents writeContents := by
  refine canonical_word.bind fun _ _ => canonical_word.bind fun _ _ =>
    canonical_opcode.option.bind fun _ _ => canonical_opcode.option.bind fun _ _ =>
      canonical_length.bind fun n _ => (canonical_blocks n).bind fun blocks hblocks => .pure ?_
  obtain ⟨_, _, hblocks⟩ := hblocks
  rw [← length_of_readBlocks hblocks]
  rfl

theorem length_writeNat_pos (n : Nat) : 1 ≤ (writeNat n).length := by
  unfold writeNat
  split <;> simp

theorem length_writeText (s : String) : s.utf8ByteSize + 1 ≤ (writeText s).length := by
  have hlength : s.toUTF8.data.toList.length = s.utf8ByteSize := rfl
  have hcount := length_writeNat_pos s.toUTF8.data.toList.length
  simp only [writeText, List.length_append, hlength] at hcount ⊢
  omega

def textBytes : List String → Nat
  | [] => 0
  | text :: texts => text.utf8ByteSize + textBytes texts

theorem textBytes_append (texts more : List String) :
    textBytes (texts ++ more) = textBytes texts + textBytes more := by
  induction texts with
  | nil => exact (Nat.zero_add _).symm
  | cons text texts ih => rw [List.cons_append, textBytes, textBytes, ih, Nat.add_assoc]

theorem length_writeOption {α : Type} {write : α → Bytes} {texts : α → List String}
    (h : ∀ a, textBytes (texts a) ≤ (write a).length) (o : Option α) :
    textBytes (o.toList.flatMap texts) + 1 ≤ (writeOption write o).length := by
  cases o with
  | none => exact Nat.le_refl 1
  | some a => simpa [writeOption] using h a

theorem length_writeOpcode (op : Opcode) : textBytes op.texts ≤ (writeOpcode op).length := by
  have htext (o : Option String) : textBytes o.toList + 1 ≤ (writeOption writeText o).length := by
    have hone (s : String) : textBytes [s] ≤ (writeText s).length := by
      simpa [textBytes] using Nat.le_of_succ_le (length_writeText s)
    have h := length_writeOption hone o
    simpa using h
  have hmnemonic := htext op.mnemonic
  have harg0 := htext op.arg0
  have harg1 := htext op.arg1
  have harg2 := htext op.arg2
  simp only [Opcode.texts, textBytes_append, writeOpcode, List.length_append]
  omega

theorem length_writeBlock (b : Block) : 16 ≤ (writeBlock b).length := by
  have hword (w : AxisWords) : 4 ≤ (writeAxisWords w).length := by
    have hinstruction := length_writeNat_pos w.instruction.toNat
    have hrate := length_writeNat_pos w.rate.toNat
    have hcount := length_writeNat_pos w.count.toNat
    have hwidth := length_writeNat_pos w.width.toNat
    simp only [writeAxisWords, writeWord, List.length_append]
    omega
  have hx := hword b.x
  have hy := hword b.y
  have hz := hword b.z
  have ha := hword b.a
  simp only [writeBlock, List.length_append]
  omega

theorem length_writeBlocks (blocks : List Block) :
    16 * blocks.length ≤ (blocks.flatMap writeBlock).length := by
  induction blocks with
  | nil => exact Nat.le_refl 0
  | cons b blocks ih =>
    have hfirst := length_writeBlock b
    simp only [List.length_cons, List.flatMap_cons, List.length_append]
    omega

theorem length_writeContents (c : Contents) :
    16 * c.blocks.length + textBytes c.info.texts < (writeContents c).length := by
  have hheader := length_writeOption length_writeOpcode c.info.header
  have hconfig := length_writeOption length_writeOpcode c.info.config
  have hblocks := length_writeBlocks c.blocks
  simp only [Info.texts, textBytes_append, writeContents, List.length_append]
  omega

theorem take_of_lt {n : Nat} (h : bytes.length < n) : take n bytes = .error .endOfInput :=
  if_neg (Nat.not_le.2 h)

/-- No reader that reads what is written lengthens its input. -/
theorem Canonical.length_le (h : Canonical before read write)
    (hread : read bytes = .ok (a, rest)) : rest.length ≤ bytes.length := by
  obtain ⟨used, -, rfl, -⟩ := h hread
  simp

theorem length_of_readBlock {b : Block} (h : readBlock bytes = .ok (b, rest)) :
    rest.length + 16 ≤ bytes.length := by
  obtain ⟨used, written, rfl, rfl, -, -, hle⟩ := canonical_block h
  have hblock := length_writeBlock b
  simp only [List.length_append] at hle ⊢
  omega

/-- The input ends before the last of too many blocks, and how many there are too many is not
noticed. -/
theorem readBlocks_of_lt {m n : Nat} (hm : bytes.length < 16 * m) (hn : bytes.length < 16 * n) :
    ∃ e, readBlocks m bytes = .error e ∧ readBlocks n bytes = .error e := by
  induction m generalizing bytes n with
  | zero => omega
  | succ m ih =>
    obtain ⟨n, rfl⟩ : ∃ k, n = k + 1 := ⟨n - 1, by omega⟩
    cases hfirst : readBlock bytes with
    | error e =>
      refine ⟨e, ?_, ?_⟩ <;> simp [readBlocks, Bind.bind, StateT.bind, hfirst, Except.bind]
    | ok p =>
      obtain ⟨b, mid⟩ := p
      have hlength := length_of_readBlock hfirst
      have hm : mid.length < 16 * m := by omega
      have hn : mid.length < 16 * n := by omega
      obtain ⟨e, hm, hn⟩ := ih hm hn
      refine ⟨e, ?_, ?_⟩ <;>
        simp [readBlocks, Bind.bind, StateT.bind, hfirst, Except.bind, hm, hn]

/-- The contents, read with no more blocks than the limit, however many are announced. -/
def readContentsUpTo (limit : Nat) : Reader Contents := do
  let magic ← readWord
  let version ← readWord
  let header ← readOption readOpcode
  let config ← readOption readOpcode
  let blocks ← readBlocks (min limit (← readLength))
  return { magic, version, info := { header, config }, blocks }

theorem bind_congr_of_read {x : Reader α} {f g : α → Reader β}
    (h : ∀ a rest, x bytes = .ok (a, rest) → f a rest = g a rest) :
    (x >>= f) bytes = (x >>= g) bytes := by
  simp only [Bind.bind, StateT.bind]
  cases hx : x bytes with
  | error e => rfl
  | ok r => exact h r.1 r.2 hx

theorem readBlocks_min {limit : Nat} (h : bytes.length < 16 * limit) (n : Nat) :
    readBlocks (min limit n) bytes = readBlocks n bytes := by
  by_cases hn : n ≤ limit
  · rw [Nat.min_eq_right hn]
  · obtain ⟨e, hlimit, hall⟩ := readBlocks_of_lt h (n := n) (by omega)
    rw [Nat.min_eq_left (by omega), hlimit, hall]

theorem readContentsUpTo_eq {limit : Nat} (h : bytes.length < 16 * limit) :
    readContentsUpTo limit bytes = readContents bytes := by
  refine bind_congr_of_read fun _ _ hread => ?_
  have h := Nat.lt_of_le_of_lt (canonical_word.length_le hread) h
  refine bind_congr_of_read fun _ _ hread => ?_
  have h := Nat.lt_of_le_of_lt (canonical_word.length_le hread) h
  refine bind_congr_of_read fun _ _ hread => ?_
  have h := Nat.lt_of_le_of_lt (canonical_opcode.option.length_le hread) h
  refine bind_congr_of_read fun _ _ hread => ?_
  have h := Nat.lt_of_le_of_lt (canonical_opcode.option.length_le hread) h
  refine bind_congr_of_read fun n rest hread => ?_
  have h := Nat.lt_of_le_of_lt (canonical_length.length_le hread) h
  simp only [Bind.bind, StateT.bind, readBlocks_min h n]

theorem toList_extend {reserve : Reserve} {a b : BlockArray Block} {blocks : List Block}
    (h : a.extend reserve blocks = .ok b) : b.toList = a.toList ++ blocks := by
  induction blocks generalizing a with
  | nil =>
    cases h
    exact (List.append_nil _).symm
  | cons block blocks ih =>
    rw [BlockArray.extend] at h
    cases hpush : a.push reserve block with
    | error e => simp [hpush, Bind.bind, Except.bind] at h
    | ok c =>
      rw [hpush] at h
      rw [ih h, BlockArray.toList_push hpush, List.append_assoc]
      rfl

theorem decode_of_readContents {reserve : Reserve} {c : Contents}
    (h : readContents bytes = .ok (c, rest)) :
    decode reserve bytes =
      if c.magic ≠ magic then .error .badMagic
      else if c.version ≠ version then .error (.unsupportedVersion c.version)
      else ((BlockArray.empty.extend reserve c.blocks).mapError .blockArray).map
        (Program.mk c.info) := by
  have hread : (readContents bytes).mapError ImageError.codec = .ok (c, rest) := by
    rw [h]
    rfl
  rw [decode, hread]
  split
  case isTrue hmagic => simp [hmagic, Bind.bind, Except.bind]; rfl
  case isFalse hmagic =>
    split
    case isTrue hversion => simp [hmagic, hversion, Bind.bind, Except.bind]; rfl
    case isFalse hversion => simp [hmagic, hversion, Bind.bind, Except.bind, Except.map]; rfl

theorem decode_eq_ok {reserve : Reserve} {p : Program} :
    decode reserve bytes = .ok p ↔ ∃ rest,
      readContents bytes = .ok (⟨magic, version, p.info, p.blocks.toList⟩, rest) ∧
        BlockArray.empty.extend reserve p.blocks.toList = .ok p.blocks := by
  constructor
  · intro h
    cases hread : readContents bytes with
    | error e =>
      have hfails : decode reserve bytes = .error (.codec e) := by
        rw [decode, hread]
        rfl
      rw [hfails] at h
      cases h
    | ok r =>
      obtain ⟨c, rest⟩ := r
      rw [decode_of_readContents hread] at h
      split at h
      case isTrue => cases h
      case isFalse hmagic =>
        split at h
        case isTrue => cases h
        case isFalse hversion =>
          cases hextend : BlockArray.empty.extend reserve c.blocks with
          | error e =>
            rw [hextend] at h
            cases h
          | ok blocks =>
            rw [hextend] at h
            obtain rfl := Except.ok.inj h
            have hblocks : blocks.toList = c.blocks := toList_extend hextend
            rw [Decidable.not_not] at hmagic hversion
            exact ⟨rest, by rw [hblocks, ← hmagic, ← hversion], by rw [hblocks, hextend]⟩
  · intro hgiven
    obtain ⟨rest, hread, hextend⟩ := hgiven
    rw [decode_of_readContents hread, hextend]
    rfl

theorem Frames.decodes {reserve : Reserve} {p : Program} {used : Bytes}
    (h : Frames readContents used ⟨magic, version, p.info, p.blocks.toList⟩)
    (hextend : BlockArray.empty.extend reserve p.blocks.toList = .ok p.blocks) (tail : Bytes) :
    decode reserve (used ++ tail) = .ok p :=
  decode_eq_ok.2 ⟨tail, h.whole tail, hextend⟩

/-- A program is decoded from the front of the bytes: without the last of these it ends too early,
and what follows makes no difference. It is encoded in as many bytes or fewer, which are decoded to
it again, and it takes more bytes than its blocks and its texts make up. However many blocks an
input announces, the reading is over once it has tried more than would fit in the input, and a text
that would not fit is not begun. -/
theorem decode_bounded (reserve : Reserve) (bytes : Bytes) :
    (∀ p, decode reserve bytes = .ok p → ∃ used rest, bytes = used ++ rest ∧
      readContents bytes = .ok (⟨magic, version, p.info, p.blocks.toList⟩, rest) ∧
      (∀ tail, decode reserve (used ++ tail) = .ok p) ∧
      (∀ short, short <+: used → short ≠ used →
        decode reserve short = .error (.codec .endOfInput)) ∧
      (∀ tail, decode reserve (encode p ++ tail) = .ok p) ∧
      (encode p).length ≤ used.length ∧
      16 * p.blocks.length + textBytes p.info.texts < used.length) ∧
    (∀ limit, bytes.length < 16 * limit → readContentsUpTo limit bytes = readContents bytes) ∧
    ∀ n, bytes.length < n → take n bytes = .error .endOfInput := by
  refine ⟨fun p hp => ?_, fun limit => readContentsUpTo_eq, fun n => take_of_lt⟩
  obtain ⟨rest, hread, hextend⟩ := decode_eq_ok.1 hp
  obtain ⟨used, written, hbytes, rfl, hused, hwritten, hle⟩ := canonical_contents hread
  have hlength : p.blocks.toList.length = p.blocks.length := by
    simp [BlockArray.toList, BlockArray.length]
  have hheld := length_writeContents ⟨magic, version, p.info, p.blocks.toList⟩
  refine ⟨used, rest, hbytes, hread, hused.decodes hextend, fun short hprefix hne => ?_,
    hwritten.decodes hextend, hle, ?_⟩
  · obtain ⟨cut, hsplit⟩ := hprefix
    refine hused.decode_cut hsplit fun hcut => hne ?_
    rwa [hcut, List.append_nil] at hsplit
  · rw [hlength] at hheld
    exact Nat.lt_of_lt_of_le hheld hle

/-- A version, a text length and a count with bytes that add nothing: the image is four bytes longer
than what it is encoded in. -/
theorem decode_bounded_of_overlong :
    let reserve : Reserve := fun _ => true
    let config : Opcode := { axis := .info, mnemonic := some "CONFIG", arg0 := some "é" }
    let p : Program := ⟨{ config := some config }, .empty⟩
    let bytes : Bytes :=
      writeWord magic ++ [0x81, 0x80, 0x00] ++ [0] ++
        (1 :: writeAxis .info ++ [1, 0x86, 0x00] ++ "CONFIG".toUTF8.data.toList ++
          [1, 2, 0xC3, 0xA9, 0, 0]) ++ [0x80, 0x00]
    decode reserve bytes = .ok p ∧ (encode p).length + 4 = bytes.length ∧
      (∀ tail, decode reserve (encode p ++ tail) = .ok p) ∧
      ∃ used rest, bytes = used ++ rest ∧ (encode p).length ≤ used.length ∧
        16 * p.blocks.length + textBytes p.info.texts < used.length := by
  intro reserve config p bytes
  have hsome : (decode reserve bytes).toOption = some p := by decide +kernel
  have hp : decode reserve bytes = .ok p := by
    cases hread : decode reserve bytes with
    | error e =>
      rw [hread] at hsome
      cases hsome
    | ok q =>
      rw [hread] at hsome
      rw [Option.some.inj hsome]
  have hlength : (encode p).length + 4 = bytes.length := by decide +kernel
  obtain ⟨used, rest, hbytes, -, -, -, hagain, hle, hheld⟩ := (decode_bounded reserve bytes).1 p hp
  exact ⟨hp, hlength, hagain, used, rest, hbytes, hle, hheld⟩

end PulseMill.Image
