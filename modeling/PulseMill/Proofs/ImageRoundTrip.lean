import PulseMill.Image
import PulseMill.Proofs.BlockStore
set_option autoImplicit false

namespace PulseMill

def Opcode.texts (op : Opcode) : List String :=
  op.mnemonic.toList ++ op.arg0.toList ++ op.arg1.toList ++ op.arg2.toList

def Info.texts (i : Info) : List String :=
  i.header.toList.flatMap Opcode.texts ++ i.config.toList.flatMap Opcode.texts

/-- The length of each text and the number of blocks are machine words, as they are for all that
a machine can hold. -/
structure Program.Fits (p : Program) : Prop where
  texts : ∀ s ∈ p.info.texts, s.utf8ByteSize ≤ maxIndex
  blocks : p.blocks.length ≤ maxIndex

namespace Image

/-- The bytes are read as the value, whatever follows them, and no part of them is enough. -/
structure Frames {α : Type} (read : Reader α) (bytes : Bytes) (a : α) : Prop where
  whole (tail : Bytes) : read (bytes ++ tail) = .ok (a, tail)
  cut {short rest : Bytes} : short ++ rest = bytes → rest ≠ [] → read short = .error .endOfInput

variable {α β : Type} {read : Reader α} {bytes more : Bytes} {a : α} {b : β}

theorem Frames.pure (a : α) : Frames (Pure.pure a) [] a where
  whole _ := rfl
  cut h hrest := absurd (List.append_eq_nil_iff.1 h).2 hrest

theorem Frames.bind {f : α → Reader β} (h : Frames read bytes a) (k : Frames (f a) more b) :
    Frames (read >>= f) (bytes ++ more) b where
  whole tail := by
    have hfirst := h.whole (more ++ tail)
    rw [← List.append_assoc] at hfirst
    simp only [Bind.bind, StateT.bind, hfirst, Except.bind]
    exact k.whole tail
  cut {short rest} hsplit hrest := by
    -- The cut is either in the first part, or behind it and in the second.
    rcases List.append_eq_append_iff.1 hsplit with ⟨left, hbytes, hmore⟩ | ⟨right, hshort, hmore⟩
    · by_cases hleft : left = []
      · subst hleft
        rw [List.append_nil] at hbytes
        subst hbytes
        have hfirst := h.whole []
        rw [List.append_nil] at hfirst
        have hnone : [] ++ rest = more := hmore
        simp only [Bind.bind, StateT.bind, hfirst, Except.bind]
        exact k.cut hnone hrest
      · simp only [Bind.bind, StateT.bind, h.cut hbytes.symm hleft, Except.bind]
    · subst hshort
      simp only [Bind.bind, StateT.bind, h.whole right, Except.bind]
      exact k.cut hmore.symm hrest

theorem Frames.bind_pure {f : α → Reader β} (h : Frames read bytes a) (hf : f a = Pure.pure b) :
    Frames (read >>= f) bytes b := by
  have hbind : Frames (read >>= f) (bytes ++ []) b := h.bind (by rw [hf]; exact .pure b)
  rwa [List.append_nil] at hbind

theorem Frames.map (g : α → β) (h : Frames read bytes a) : Frames (g <$> read) bytes (g a) :=
  h.bind_pure (f := fun a => Pure.pure (g a)) rfl

theorem readNat_nil (last more : Nat) : readNat last more [] = .error .endOfInput := by
  cases more <;> rfl

theorem frames_nat {last more n : Nat} (hl : last < 128) (hn : n < (last + 1) * Nat.pow 128 more) :
    Frames (readNat last more) (writeNat n) n where
  whole := readNat_writeNat hl hn
  cut {short rest} hsplit hrest := by
    induction more generalizing n short with
    | zero =>
      have hn : n < last + 1 := by simpa using hn
      rw [writeNat_of_lt (by omega), List.append_eq_singleton_iff] at hsplit
      rcases hsplit with ⟨rfl, -⟩ | ⟨-, rfl⟩
      · exact readNat_nil last 0
      · exact absurd rfl hrest
    | succ more ih =>
      cases short with
      | nil => exact readNat_nil last (more + 1)
      | cons c short =>
        by_cases h : n < 128
        · rw [writeNat_of_lt h, List.cons_append, List.cons_eq_cons] at hsplit
          exact absurd (List.append_eq_nil_iff.1 hsplit.2).2 hrest
        · rw [writeNat_of_le (by omega), List.cons_append, List.cons_eq_cons] at hsplit
          obtain ⟨rfl, hsplit⟩ := hsplit
          have hn : n / 128 < (last + 1) * Nat.pow 128 more := by
            rw [Nat.div_lt_iff_lt_mul (by decide), Nat.mul_assoc]
            exact hn
          have hb : (n % 128 + 128) % 256 = n % 128 + 128 := by omega
          have hi : ¬ n % 128 + 128 < 128 := by omega
          simp [readNat, hb, hi, ih hn hsplit, Bind.bind, Except.bind]

theorem frames_word (w : UInt32) : Frames readWord (writeWord w) w := by
  have hnat : Frames (readNat 0x0F 4) (writeNat w.toNat) w.toNat :=
    frames_nat (by decide) (Nat.lt_of_lt_of_le w.toNat_lt (by decide))
  have hword := hnat.map UInt32.ofNat
  rwa [UInt32.ofNat_toNat] at hword

theorem frames_length {n : Nat} (h : n ≤ maxIndex) : Frames readLength (writeNat n) n :=
  frames_nat (by decide) (Nat.lt_of_le_of_lt h (by decide))

theorem frames_take (bytes : Bytes) : Frames (take bytes.length) bytes bytes where
  whole tail := by simp [take]
  cut {short rest} hsplit hrest := by
    have hlength : short.length + rest.length = bytes.length := by
      rw [← List.length_append, hsplit]
    have hpos := List.length_pos_iff.2 hrest
    rw [take, if_neg (by omega)]

theorem fromUTF8?_toUTF8 (s : String) :
    String.fromUTF8? s.toUTF8.data.toList.toByteArray = some s := by
  have hbytes : s.toUTF8.data.toList.toByteArray = s.toUTF8 := by
    apply ByteArray.ext
    rw [List.data_toByteArray, Array.toArray_toList]
  rw [hbytes, String.fromUTF8?, String.toUTF8_eq_toByteArray, dif_pos s.isValidUTF8]
  rfl

theorem frames_text {s : String} (h : s.utf8ByteSize ≤ maxIndex) :
    Frames readText (writeText s) s := by
  have hlength : s.toUTF8.data.toList.length = s.utf8ByteSize := rfl
  exact (frames_length (by rwa [hlength])).bind
    ((frames_take s.toUTF8.data.toList).bind_pure (by rw [fromUTF8?_toUTF8]))

theorem frames_option {write : α → Bytes} {o : Option α}
    (h : ∀ a ∈ o, Frames read (write a) a) : Frames (readOption read) (writeOption write o) o where
  whole tail := by
    cases o with
    | none => rfl
    | some a =>
      have hmap := (h a rfl).map some
      exact hmap.whole tail
  cut {short rest} hsplit hrest := by
    cases short with
    | nil => rfl
    | cons c short =>
      cases o with
      | none =>
        obtain ⟨-, hnil⟩ := List.cons_eq_cons.1 hsplit
        exact absurd (List.append_eq_nil_iff.1 hnil).2 hrest
      | some a =>
        obtain ⟨rfl, hinner⟩ := List.cons_eq_cons.1 hsplit
        have hmap := (h a rfl).map some
        exact hmap.cut hinner hrest

theorem frames_axis (axis : Axis) : Frames readAxis (writeAxis axis) axis := by
  have hindex : axis.index < UInt32.size := by cases axis <;> decide
  have hword : (UInt32.ofNat axis.index).toNat = axis.index := UInt32.toNat_ofNat_of_lt hindex
  have hread : Frames readAxis (writeWord (.ofNat axis.index)) axis :=
    (frames_word (.ofNat axis.index)).bind_pure (by rw [hword, Axis.ofIndex?_index])
  rwa [writeWord, hword] at hread

theorem frames_opcode {op : Opcode} (h : ∀ s ∈ op.texts, s.utf8ByteSize ≤ maxIndex) :
    Frames readOpcode (writeOpcode op) op := by
  have htext {o : Option String} (ho : ∀ s ∈ o, s ∈ op.texts) :
      Frames (readOption readText) (writeOption writeText o) o :=
    frames_option fun s hs => frames_text (h s (ho s hs))
  have hmnemonic := htext (o := op.mnemonic) (by simp +contextual [Opcode.texts])
  have harg0 := htext (o := op.arg0) (by simp +contextual [Opcode.texts])
  have harg1 := htext (o := op.arg1) (by simp +contextual [Opcode.texts])
  have harg2 := htext (o := op.arg2) (by simp +contextual [Opcode.texts])
  simp only [writeOpcode, List.append_assoc]
  exact (frames_axis op.axis).bind (hmnemonic.bind (harg0.bind (harg1.bind (harg2.bind_pure rfl))))

theorem frames_axisWords (w : AxisWords) : Frames readAxisWords (writeAxisWords w) w := by
  simp only [writeAxisWords, List.append_assoc]
  exact (frames_word w.instruction).bind ((frames_word w.rate).bind ((frames_word w.count).bind
    ((frames_word w.width).bind_pure rfl)))

theorem frames_block (b : Block) : Frames readBlock (writeBlock b) b := by
  simp only [writeBlock, List.append_assoc]
  exact (frames_axisWords b.x).bind ((frames_axisWords b.y).bind ((frames_axisWords b.z).bind
    ((frames_axisWords b.a).bind_pure rfl)))

theorem frames_blocks (bs : List Block) :
    Frames (readBlocks bs.length) (bs.flatMap writeBlock) bs := by
  induction bs with
  | nil => exact .pure []
  | cons b bs ih =>
    rw [List.flatMap_cons]
    exact (frames_block b).bind (ih.bind_pure rfl)

theorem frames_contents {c : Contents} (htexts : ∀ s ∈ c.info.texts, s.utf8ByteSize ≤ maxIndex)
    (hblocks : c.blocks.length ≤ maxIndex) : Frames readContents (writeContents c) c := by
  have hline {o : Option Opcode} (ho : ∀ op ∈ o, ∀ s ∈ op.texts, s ∈ c.info.texts) :
      Frames (readOption readOpcode) (writeOption writeOpcode o) o :=
    frames_option fun op hop => frames_opcode fun s hs => htexts s (ho op hop s hs)
  have hheader := hline (o := c.info.header) (by simp +contextual [Info.texts])
  have hconfig := hline (o := c.info.config) (by simp +contextual [Info.texts])
  simp only [writeContents, List.append_assoc]
  exact (frames_word c.magic).bind ((frames_word c.version).bind (hheader.bind (hconfig.bind
    ((frames_length hblocks).bind ((frames_blocks c.blocks).bind_pure rfl)))))

theorem frames_program {p : Program} (h : p.Fits) :
    Frames readContents (encode p) ⟨magic, version, p.info, p.blocks.toList⟩ := by
  have hlength : p.blocks.toList.length = p.blocks.length := by
    simp [BlockArray.toList, BlockArray.length]
  exact frames_contents h.texts (Nat.le_trans (Nat.le_of_eq hlength) h.blocks)

theorem extend_empty {α : Type} {reserve : Reserve} {a : BlockArray α}
    (hroom : reserve.Covers a.length) :
    BlockArray.empty.extend reserve a.toList = .ok (.filled a.toList) := by
  have hlength : a.toList.length = a.length := by simp [BlockArray.toList, BlockArray.length]
  rw [← BlockArray.filled_nil]
  refine (BlockArray.extend_filled (BlockArray.covers_mono hroom (Nat.zero_le _))).2 ⟨?_, rfl⟩
  rwa [List.length_nil, Nat.zero_add, hlength]

/-- An image is decoded to what it was encoded from, and the blocks take the room that so many
blocks need. -/
theorem decode_encode {reserve : Reserve} {p : Program} (h : p.Fits)
    (hroom : reserve.Covers p.blocks.length) (tail : Bytes) :
    decode reserve (encode p ++ tail) = .ok ⟨p.info, .filled p.blocks.toList⟩ := by
  have hread : (readContents (encode p ++ tail)).mapError ImageError.codec =
      .ok (⟨magic, version, p.info, p.blocks.toList⟩, tail) := by
    rw [(frames_program h).whole tail]
    rfl
  rw [decode, hread]
  show ((BlockArray.empty.extend reserve p.blocks.toList).mapError ImageError.blockArray >>=
    fun blocks => .ok (⟨p.info, blocks⟩ : Program)) = _
  rw [extend_empty hroom]
  rfl

theorem Frames.decode_cut {reserve : Reserve} {c : Contents} {used short rest : Bytes}
    (h : Frames readContents used c) (hsplit : short ++ rest = used) (hrest : rest ≠ []) :
    decode reserve short = .error (.codec .endOfInput) := by
  rw [decode, h.cut hsplit hrest]
  rfl

theorem decode_cut {reserve : Reserve} {p : Program} (h : p.Fits) {short rest : Bytes}
    (hsplit : short ++ rest = encode p) (hrest : rest ≠ []) :
    decode reserve short = .error (.codec .endOfInput) :=
  (frames_program h).decode_cut hsplit hrest

/-- Each image frames its program. With any bytes behind it, it is decoded to the information and
the blocks that were encoded, in an array which they have been pushed to one by one, and that
is encoded to the same image again. Without its last bytes, however many, it is never more than
an input that has come to its end. -/
theorem image_frames_program (reserve : Reserve) (p : Program) (h : p.Fits) :
    (reserve.Covers p.blocks.length → ∀ tail, ∃ q,
      decode reserve (encode p ++ tail) = .ok q ∧ q.info = p.info ∧
        q.blocks.toList = p.blocks.toList ∧ q.blocks.cursor = 0 ∧
        (BlockArray.withCapacity reserve 16 16 >>= fun a => a.extend reserve p.blocks.toList) =
          .ok q.blocks ∧
        encode q = encode p) ∧
    ∀ short, short <+: encode p → short ≠ encode p →
      decode reserve short = .error (.codec .endOfInput) := by
  constructor
  · intro hroom tail
    have hnone := BlockArray.covers_mono hroom (Nat.zero_le _)
    refine ⟨_, decode_encode h hroom tail, rfl, rfl, rfl, ?_, rfl⟩
    rw [BlockArray.withCapacity_default (BlockArray.covers_zero.1 hnone)]
    exact extend_empty hroom
  · intro short hprefix hne
    obtain ⟨rest, hsplit⟩ := hprefix
    refine decode_cut h hsplit fun hrest => hne ?_
    rwa [hrest, List.append_nil] at hsplit

/-- Seventeen blocks and a text beyond ASCII: the array has grown once, and half of the image is
refused. -/
theorem image_frames_program_grown :
    let header : Opcode := { axis := .info, mnemonic := some "HEADER", arg0 := some "é" }
    let blocks := List.replicate 17 ({ x := { instruction := 1, rate := 300 } } : Block)
    let p : Program := ⟨{ header := some header }, .filled blocks⟩
    let reserve : Reserve := fun _ => true
    (p.Fits ∧ reserve.Covers p.blocks.length) ∧
      (∃ q, decode reserve (encode p ++ [255]) = .ok q ∧ q.info = p.info ∧
        q.blocks.toList = blocks) ∧
      decode reserve ((encode p).take 40) = .error (.codec .endOfInput) := by
  intro header blocks p reserve
  have hfits : p.Fits := ⟨by decide, by decide⟩
  have hroom : reserve.Covers p.blocks.length := by
    have hgrowths : growthsFor p.blocks.length = 1 := by decide
    intro k hk
    rw [hgrowths] at hk
    refine ⟨?_, rfl⟩
    simp only [maxIndex, UInt64.size]
    omega
  obtain ⟨hwhole, hcut⟩ := image_frames_program reserve p hfits
  obtain ⟨q, hq, hinfo, hblocks, -⟩ := hwhole hroom [255]
  have hlength : 40 < (encode p).length := by decide +kernel
  refine ⟨⟨hfits, hroom⟩, ⟨q, hq, hinfo, hblocks⟩, hcut _ (List.take_prefix 40 _) fun heq => ?_⟩
  have hsame := congrArg List.length heq
  rw [List.length_take] at hsame
  omega

end Image

end PulseMill
