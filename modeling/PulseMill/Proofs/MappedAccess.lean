import PulseMill.Device
import PulseMill.Session
import Mathlib.Tactic.SplitIfs
set_option autoImplicit false

/-!
The window of a device, and the accesses through it. The window is checked with words, which could
be cut off, but its checks decide as they would with numbers. What has passed them is mapped in
whole pages, and no access to a register leaves these.
-/

namespace PulseMill

namespace Mapping

def around (page address span : Nat) : Mapping :=
  { base := address - address % page
    delta := address % page
    length := address % page + span }

/-- A byte of the device that is in these pages. -/
def Holds (m : Mapping) (i : Nat) : Prop := m.base ≤ i ∧ i < m.base + m.length

variable {page address span : Nat}

theorem four_dvd_of_isPowerOfTwo (h : page.isPowerOfTwo) (hfour : 4 ≤ page) : 4 ∣ page := by
  obtain ⟨k, rfl⟩ := h
  have hk : 2 ≤ k := (Nat.pow_le_pow_iff_right (by decide)).1 (show 2 ^ 2 ≤ 2 ^ k from hfour)
  exact Nat.pow_dvd_pow 2 hk

theorem dvd_base_around : page ∣ (around page address span).base := Nat.dvd_sub_mod address

theorem address_around : (around page address span).address = address :=
  Nat.sub_add_cancel (Nat.mod_le address page)

/-- A word has to be aligned in its page to be aligned in memory, wherever the pages are put. -/
theorem dvd_place_around (hpage : 4 ∣ page) (haddress : 4 ∣ address) (r : Register) :
    4 ∣ (around page address span).place r :=
  Nat.dvd_add ((Nat.dvd_mod_iff hpage).2 haddress) (Nat.dvd_mul_right 4 r.word)

theorem place_around_le (hspan : Register.fileBytes ≤ span) (r : Register) :
    (around page address span).place r + 4 ≤ (around page address span).length := by
  have hend := r.offset_add_four_le
  simp only [place, around]
  omega

theorem holds_of_place {m : Mapping} {r : Register} (h : m.place r + 4 ≤ m.length) {k : Nat}
    (hk : k < 4) : m.Holds (m.base + m.place r + k) := by
  simp only [Holds]
  omega

end Mapping

namespace Window

theorem toNat_pageSize {reported : Int64} {page : Nat} (h : reported.toInt = page)
    (hpage : 0 < page) : (pageSize reported).toNat = page := by
  have hnonneg : 0 ≤ reported := by
    rw [Int64.le_iff_toInt_le, h, Int64.toInt_zero]
    omega
  have hword : reported.toUInt64.toNat = page := by
    rw [Int64.toNat_toUInt64_of_le hnonneg, ← Int64.toNat_toInt, h, Int.toNat_natCast]
  have hne : reported ≠ 0 := by
    rintro rfl
    rw [Int64.toInt_zero] at h
    omega
  rw [pageSize, if_neg (Int64.not_lt.2 hnonneg), if_neg hne, hword]

theorem mod_le (page address : UInt64) : address % page ≤ address := by
  rw [UInt64.le_iff_toNat_le, UInt64.toNat_mod]
  exact Nat.mod_le ..

theorem toNat_pageStart (page address : UInt64) :
    (pageStart page address).toNat = address.toNat - address.toNat % page.toNat := by
  rw [pageStart, UInt64.toNat_sub_of_le _ _ (mod_le page address), UInt64.toNat_mod]

theorem pageStart_le (page address : UInt64) : pageStart page address ≤ address := by
  rw [UInt64.le_iff_toNat_le, toNat_pageStart]
  exact Nat.sub_le ..

theorem toNat_sub_pageStart (page address : UInt64) :
    (address - pageStart page address).toNat = address.toNat % page.toNat := by
  rw [UInt64.toNat_sub_of_le _ _ (pageStart_le page address), toNat_pageStart]
  exact Nat.sub_sub_self (Nat.mod_le ..)

theorem pages?_eq (page address span : UInt64) :
    pages? page address span =
      if UInt64.size ≤ address.toNat % page.toNat + span.toNat ∨
          fileLimit ≤ address.toNat - address.toNat % page.toNat then none
      else some (.around page.toNat address.toNat span.toNat) := by
  unfold pages?
  dsimp only
  cases hsum : sum? (address - pageStart page address) span with
  | none =>
    have hlong := sum?_eq_none_iff.1 hsum
    rw [toNat_sub_pageStart] at hlong
    rw [if_pos (.inl hlong)]
  | some length =>
    have hlength := toNat_of_sum? hsum
    have hword : length.toNat < UInt64.size := length.toNat_lt
    rw [toNat_sub_pageStart] at hlength
    rw [hlength] at hword
    simp only [toNat_pageStart, toNat_sub_pageStart, hlength, Nat.not_le.2 hword, false_or,
      ← Nat.not_le, ite_not, Mapping.around]

def target (w : Window) : Nat := w.physicalBase.toNat + w.bridgeOffset.toNat

theorem start_eq (w : Window) :
    w.start =
      if w.span.toNat < Register.fileBytes then .error (.spanTooSmall w.span)
      else if UInt64.size ≤ w.target then .error (.badAddress w.physicalBase.toNat)
      else if w.target % 4 ≠ 0 then .error (.badAddress w.target)
      else .ok (.ofNat w.target) := by
  unfold start
  cases hsum : sum? w.physicalBase w.bridgeOffset with
  | none =>
    have hfar : UInt64.size ≤ w.target := sum?_eq_none_iff.1 hsum
    simp only [hfar, if_true]
  | some address =>
    have htarget : address.toNat = w.target := toNat_of_sum? hsum
    have hnear : ¬ UInt64.size ≤ w.target := htarget ▸ Nat.not_le.2 address.toNat_lt
    have haligned : address % 4 = 0 ↔ w.target % 4 = 0 := by
      rw [← UInt64.toNat_inj, UInt64.toNat_mod, htarget]
      rfl
    simp only [haligned, hnear, if_false, ite_not]
    rw [← htarget, UInt64.ofNat_toNat]

theorem toNat_of_start {w : Window} {start : UInt64} (h : w.start = .ok start) :
    start.toNat = w.target := by
  rw [start_eq] at h
  split_ifs at h with hsmall hfar
  cases h
  exact UInt64.toNat_ofNat_of_lt' (Nat.not_le.1 hfar)

theorem mapping_eq (reported : Int64) (w : Window) {page : Nat}
    (hpage : (pageSize reported).toNat = page) :
    w.mapping reported =
      if w.span.toNat < Register.fileBytes then .error (.spanTooSmall w.span)
      else if UInt64.size ≤ w.target then .error (.badAddress w.physicalBase.toNat)
      else if w.target % 4 ≠ 0 ∨ UInt64.size ≤ w.target % page + w.span.toNat ∨
          fileLimit ≤ w.target - w.target % page then .error (.badAddress w.target)
      else .ok (.around page w.target w.span.toNat) := by
  by_cases hsmall : w.span.toNat < Register.fileBytes
  · rw [mapping, start_eq, if_pos hsmall, if_pos hsmall]
    rfl
  by_cases hfar : UInt64.size ≤ w.target
  · rw [mapping, start_eq, if_neg hsmall, if_pos hfar, if_neg hsmall, if_pos hfar]
    rfl
  by_cases hodd : w.target % 4 ≠ 0
  · rw [mapping, start_eq, if_neg hsmall, if_neg hfar, if_pos hodd, if_neg hsmall, if_neg hfar,
      if_pos (.inl hodd)]
    rfl
  -- The address is the word for the target, so that only the pages are left to compare.
  have hword : (UInt64.ofNat w.target).toNat = w.target :=
    UInt64.toNat_ofNat_of_lt' (Nat.not_le.1 hfar)
  have hstart : w.start = .ok (.ofNat w.target) := by
    rw [start_eq, if_neg hsmall, if_neg hfar, if_neg hodd]
  rw [if_neg hsmall, if_neg hfar, mapping, hstart]
  simp only [bind, Except.bind, pages?_eq, hword, hpage]
  by_cases hlarge : UInt64.size ≤ w.target % page + w.span.toNat ∨
      fileLimit ≤ w.target - w.target % page
  · simp only [if_pos hlarge, if_pos (Or.inr hlarge)]
  · simp only [if_neg hlarge, if_neg (not_or.2 ⟨hodd, hlarge⟩)]

end Window

namespace Session

theorem openDevice_run (w : Window) :
    ∃ next, (openDevice w).run = .ask .pageSize next ∧
      ∀ reported : Int64,
        (∀ e, w.mapping reported = .error e →
          next reported = .done (.error (.device (.window e)))) ∧
        ∀ m, w.mapping reported = .ok m →
          ∃ rest, next reported = .ask (.openDevice w.device m) rest := by
  refine ⟨_, rfl, fun reported => ⟨fun e h => ?_, fun m h => ?_⟩⟩
  · change (orFail _ (w.mapping reported) >>= _ : Task Unit).run = _
    rw [h]
    rfl
  · change ∃ rest, (orFail _ (w.mapping reported) >>= _ : Task Unit).run = .ask _ rest
    rw [h]
    exact ⟨_, rfl⟩

end Session

namespace Device

variable {m : Mapping} {r : Register}

theorem word_congr {bytes others : ByteArray} {i : Nat}
    (h : ∀ k < 4, byte bytes (i + k) = byte others (i + k)) : word bytes i = word others i := by
  have hfirst := h 0 (by omega)
  rw [Nat.add_zero] at hfirst
  simp only [word, hfirst, h 1 (by omega), h 2 (by omega), h 3 (by omega)]

theorem byte_putWord_of_ne {bytes : ByteArray} {i j : Nat} {w : UInt32}
    (h : ∀ k < 4, j ≠ i + k) : byte (putWord bytes i w) j = byte bytes j := by
  have hfirst := h 0 (by omega)
  rw [Nat.add_zero] at hfirst
  simp only [putWord, byte_putByte_of_ne hfirst, byte_putByte_of_ne (h 1 (by omega)),
    byte_putByte_of_ne (h 2 (by omega)), byte_putByte_of_ne (h 3 (by omega))]

theorem read_congr (hplace : m.place r + 4 ≤ m.length) {bytes others : ByteArray}
    (h : ∀ i, m.Holds i → byte bytes i = byte others i) : read m r bytes = read m r others :=
  word_congr fun _ hk => h _ (m.holds_of_place hplace hk)

theorem byte_write_of_not_holds (hplace : m.place r + 4 ≤ m.length) {bytes : ByteArray}
    {w : UInt32} {i : Nat} (h : ¬ m.Holds i) : byte (write m r w bytes) i = byte bytes i :=
  byte_putWord_of_ne fun _ hk hi => h (hi ▸ m.holds_of_place hplace hk)

end Device

namespace Session

/-- A window that is too small for the register file, whose address is no word or not aligned, or
around which pages would be too long or begin too far out, is refused before anything is opened.
For any other one whole pages are asked for, and every register lies in them, complete and aligned,
so that what is read comes from these pages and what is written stays in them. The first error is
the one that is told, and nothing wraps around on the way. -/
theorem openDevice_bounded (w : Window) {reported : Int64} {page : Nat}
    (hreported : reported.toInt = page) (hpower : page.isPowerOfTwo) (hfour : 4 ≤ page) :
    let address := w.physicalBase.toNat + w.bridgeOffset.toNat
    let refusal (e : WindowError) : Shell (Except Failure Unit) :=
      .done (.error (.device (.window e)))
    ∃ next, (openDevice w).run = .ask .pageSize next ∧
      (Window.pageSize reported).toNat = page ∧
      (∀ start, w.start = .ok start →
        start.toNat = address ∧ start % Window.pageSize reported ≤ start ∧
          Window.pageStart (Window.pageSize reported) start ≤ start) ∧
      if w.span.toNat < 0x100 then next reported = refusal (.spanTooSmall w.span)
      else if UInt64.size ≤ address then next reported = refusal (.badAddress w.physicalBase.toNat)
      else if address % 4 ≠ 0 ∨ UInt64.size ≤ address % page + w.span.toNat ∨
          0x8000000000000000 ≤ address - address % page then
        next reported = refusal (.badAddress address)
      else
        ∃ m rest, next reported = .ask (.openDevice w.device m) rest ∧
          page ∣ m.base ∧ m.base + m.delta = address ∧ m.delta < page ∧
          m.length = m.delta + w.span.toNat ∧
          ∀ r : Register,
            m.delta + r.offset + 4 ≤ m.length ∧
            (∀ memory, page ∣ memory → 4 ∣ memory + (m.delta + r.offset)) ∧
            (∀ bytes others, (∀ i, m.Holds i → Device.byte bytes i = Device.byte others i) →
              Device.read m r bytes = Device.read m r others) ∧
            ∀ bytes word i, ¬ m.Holds i →
              Device.byte (Device.write m r word bytes) i = Device.byte bytes i := by
  intro address refusal
  have hpage : (Window.pageSize reported).toNat = page :=
    Window.toNat_pageSize hreported (by omega)
  -- The limits are written out here, as they are in the statement.
  have hmapping : w.mapping reported =
      if w.span.toNat < 0x100 then .error (.spanTooSmall w.span)
      else if UInt64.size ≤ address then .error (.badAddress w.physicalBase.toNat)
      else if address % 4 ≠ 0 ∨ UInt64.size ≤ address % page + w.span.toNat ∨
          0x8000000000000000 ≤ address - address % page then .error (.badAddress address)
      else .ok (.around page address w.span.toNat) := w.mapping_eq reported hpage
  obtain ⟨next, hrun, hnext⟩ := openDevice_run w
  obtain ⟨hrefused, hmapped⟩ := hnext reported
  refine ⟨next, hrun, hpage, fun start hstart => ?_, ?_⟩
  · exact ⟨Window.toNat_of_start hstart, Window.mod_le .., Window.pageStart_le ..⟩
  split_ifs at hmapping ⊢ with hsmall hfar hbad
  · exact hrefused _ hmapping
  · exact hrefused _ hmapping
  · exact hrefused _ hmapping
  obtain ⟨rest, hnext⟩ := hmapped _ hmapping
  have haddress : 4 ∣ address := by omega
  have hfourDvd : 4 ∣ page := Mapping.four_dvd_of_isPowerOfTwo hpower hfour
  refine ⟨_, rest, hnext, Mapping.dvd_base_around, Mapping.address_around,
    Nat.mod_lt _ (by omega), rfl, fun r => ?_⟩
  have hplace : (Mapping.around page address w.span.toNat).place r + 4 ≤ _ :=
    Mapping.place_around_le (Nat.not_lt.1 hsmall) r
  refine ⟨hplace, fun memory hmemory => ?_, fun _ _ => Device.read_congr hplace,
    fun _ _ _ => Device.byte_write_of_not_holds hplace⟩
  exact Nat.dvd_add (Nat.dvd_trans hfourDvd hmemory) (Mapping.dvd_place_around hfourDvd haddress r)

/-- The longest window that can be mapped at the last word of the last page that has an offset, and
the refusal of one that is a byte longer. -/
theorem openDevice_bounded_at_limits :
    (4096 : Int64).toInt = (4096 : Nat) ∧ (4096 : Nat).isPowerOfTwo ∧ 4 ≤ 4096 ∧
      let longest : Window :=
        { physicalBase := 0x7FFFFFFFFFFFF000, bridgeOffset := 0xFFC, span := 0xFFFFFFFFFFFFF003 }
      (∃ next rest, (openDevice longest).run = .ask .pageSize next ∧
        next (4096 : Int64) =
          .ask (.openDevice "/dev/mem"
            { base := 0x7FFFFFFFFFFFF000, delta := 0xFFC, length := 0xFFFFFFFFFFFFFFFF }) rest) ∧
      ∃ next,
        (openDevice { longest with span := 0xFFFFFFFFFFFFF004 }).run = .ask .pageSize next ∧
        next (4096 : Int64) =
          .done (.error (.device (.window (.badAddress 0x7FFFFFFFFFFFFFFC)))) := by
  have hreported : (4096 : Int64).toInt = (4096 : Nat) := by decide
  have hpower : (4096 : Nat).isPowerOfTwo := ⟨12, rfl⟩
  refine ⟨hreported, hpower, by decide, ?_, ?_⟩
  · obtain ⟨next, hrun, -, -, hlongest⟩ :=
      openDevice_bounded
        { physicalBase := 0x7FFFFFFFFFFFF000, bridgeOffset := 0xFFC, span := 0xFFFFFFFFFFFFF003 }
        hreported hpower (by decide)
    rw [if_neg (by decide), if_neg (by decide), if_neg (by decide)] at hlongest
    obtain ⟨⟨base, delta, length⟩, rest, hnext, ⟨pages, hbase⟩, haddress, hdelta, hlength, -⟩ :=
      hlongest
    change base + delta = 0x7FFFFFFFFFFFFFFC at haddress
    change length = delta + 0xFFFFFFFFFFFFF003 at hlength
    dsimp only at hbase hdelta
    obtain rfl : base = 0x7FFFFFFFFFFFF000 := by omega
    obtain rfl : delta = 0xFFC := by omega
    obtain rfl : length = 0xFFFFFFFFFFFFFFFF := by omega
    exact ⟨next, rest, hrun, hnext⟩
  · obtain ⟨next, hrun, -, -, hlonger⟩ :=
      openDevice_bounded
        { physicalBase := 0x7FFFFFFFFFFFF000, bridgeOffset := 0xFFC, span := 0xFFFFFFFFFFFFF004 }
        hreported hpower (by decide)
    rw [if_neg (by decide), if_neg (by decide), if_pos (by decide)] at hlonger
    exact ⟨next, hrun, hlonger⟩

end Session

end PulseMill
