import PulseMill.Proofs.BetweenLines
import PulseMill.Proofs.BlockTuples
set_option autoImplicit false

namespace PulseMill

open Assembly (Fault compileBlock)

namespace Motion

/-- The row is the tuple, but for empty arguments at its end that may be left out. -/
def Cut (t : Motion) (row : List String) : Prop :=
  ∃ args k, row = t.axis :: t.mnemonic :: args ∧ t.args = args ++ List.replicate k ""

/-- Tuples one after the other in a row. Only the last one may be cut. -/
inductive InRow : List Motion → List String → Prop where
  | last {t : Motion} {row : List String} : t.Cut row → InRow [t] row
  | cons {t : Motion} {ts : List Motion} {row : List String} :
      InRow ts row → InRow (t :: ts) (t.words ++ row)

theorem InRow.ne_nil {ts : List Motion} {row : List String} (h : InRow ts row) : row ≠ [] := by
  cases h with
  | last hcut =>
    obtain ⟨args, k, rfl, -⟩ := hcut
    exact List.cons_ne_nil _ _
  | cons => exact List.cons_ne_nil _ _

/-- The rows of tokens that a block can be written as. -/
inductive Spelled (ts : List Motion) : List (List String) → Prop where
  | apart {opening closing : String} {rows : List (List String)} :
      Text.sameName opening "begin" → Text.sameName closing "end" →
      List.Forall₂ Cut ts rows → Spelled ts ([opening] :: (rows ++ [[closing]]))
  | enclosed {opening closing : String} {row : List String} :
      Text.sameName opening "begin" → Text.sameName closing "end" →
      InRow ts row → Spelled ts [opening :: (row ++ [closing])]
  | alone {row : List String} : InRow ts row → Spelled ts [row]
  | ended {closing : String} {row : List String} :
      Text.sameName closing "end" → InRow ts row → Spelled ts [row ++ [closing]]

end Motion

def BlockArray.pushSlots (reserve : Reserve) (a : BlockArray Block) (s : Slots) :
    Except Fault (BlockArray Block) := do
  let b ← compileBlock s
  (a.push reserve b).mapError .blockArray

theorem Opcode.ofArgs_append_none {axis : Axis} {m : String} (args : List (Option String))
    (k : Nat) : Opcode.ofArgs axis m (args ++ List.replicate k none) = .ofArgs axis m args := by
  have hget (i : Nat) : (args ++ List.replicate k none)[i]?.join = args[i]?.join := by
    by_cases hi : i < args.length
    · rw [List.getElem?_append_left hi]
    · have hle : args.length ≤ i := by omega
      rw [List.getElem?_append_right hle, List.getElem?_replicate, List.getElem?_eq_none hle]
      split <;> rfl
  simp only [Opcode.ofArgs, hget]

namespace Assembler

variable {reserve : Reserve} {st mid : Assembler} {axis : Axis} {m : String}
  {done : List (Option String)} {args more row : List String} {token opening closing : String}
  {u : Motion} {us ts : List Motion}

theorem readTokens_cons (h : st.readToken reserve token = .ok mid) :
    st.readTokens reserve (token :: more) = mid.readTokens reserve more := by
  rw [readTokens, h]
  rfl

def withSlots (st : Assembler) (slots : Slots) : Assembler := { st with slots, progress := .idle }

def EndsTuple (more : List String) : Prop :=
  ∀ token ∈ more.head?, Keyword.ofSymbol? token = some .closing

theorem endsTuple_closing (h : Keyword.ofSymbol? closing = some .closing) :
    EndsTuple [closing] := fun token htoken => by
  obtain rfl := Option.some.inj htoken
  exact h

theorem readToken_closing (hst : st.progress = .idle)
    (hclosing : Keyword.ofSymbol? closing = some .closing) :
    st.readToken reserve closing = st.endBlock reserve := by
  simp only [readToken, hst, hclosing]

theorem complete_motion {op : Opcode} (h : op.axis.isMotion) :
    st.complete op = .ok (st.withSlots (st.slots.set op.axis op)) :=
  complete_eq_ok.2 (.inr ⟨h, rfl⟩)

theorem readTokens_ended (hst : st.progress = .tuple axis m done) (haxis : axis.isMotion)
    (hroom : done.length < 3) (hmore : EndsTuple more) :
    st.readTokens reserve more =
      (st.withSlots (st.slots.set axis (.ofArgs axis m done))).readTokens reserve more := by
  have hcomplete : st.complete (.ofArgs axis m done) =
      .ok (st.withSlots (st.slots.set axis (.ofArgs axis m done))) := complete_motion haxis
  cases more with
  | nil =>
    simp only [readTokens, endLine, hst]
    rw [if_neg (by omega), hcomplete]
    rfl
  | cons token more =>
    have hk := hmore token rfl
    have hend : st.readToken reserve token =
        (st.withSlots (st.slots.set axis (.ofArgs axis m done))).endBlock reserve := by
      simp only [readToken, hst]
      rw [if_neg (by omega), hk, hcomplete]
      rfl
    rw [readTokens, readTokens, hend, readToken_closing rfl hk]

theorem readTokens_arguments (hst : st.progress = .tuple axis m done) (haxis : axis.isMotion)
    (hdone : done.length < 3) (hplain : ∀ token ∈ args, Keyword.ofSymbol? token = none)
    (hbound : done.length + args.length ≤ 3)
    (hmore : done.length + args.length < 3 → EndsTuple more) :
    st.readTokens reserve (args ++ more) =
      (st.withSlots (st.slots.set axis (.ofArgs axis m (done ++ args.map argument?)))).readTokens
        reserve more := by
  induction args generalizing st done with
  | nil =>
    rw [List.map_nil, List.append_nil, List.nil_append]
    exact readTokens_ended hst haxis hdone (hmore hdone)
  | cons token args ih =>
    obtain ⟨hk, hothers⟩ := List.forall_mem_cons.1 hplain
    rw [List.length_cons] at hbound hmore
    have hread : st.readToken reserve token = _ := feed_argument hst hdone hk
    rw [List.cons_append]
    by_cases hroom : done.length + 1 < 3
    · rw [if_pos hroom] at hread
      rw [readTokens_cons hread, ih rfl (by simpa using hroom) hothers
        (by rw [List.length_append, List.length_singleton]; omega)
        (by rw [List.length_append, List.length_singleton]; exact fun h => hmore (by omega)),
        List.append_assoc]
      rfl
    · obtain rfl := List.length_eq_zero_iff.1 (show args.length = 0 by omega)
      rw [if_neg hroom, complete_motion haxis] at hread
      rw [readTokens_cons hread]
      rfl

theorem readToken_axis (hst : st.progress = .idle) (hopens : st.Opens mid)
    (haxis : (Axis.ofSymbol token).isMotion)
    (hfree : mid.slots.holds (Axis.ofSymbol token) = false) :
    st.readToken reserve token = .ok { mid with progress := .axis (Axis.ofSymbol token) } := by
  have hfeed : st.readToken reserve token = st.startTuple token :=
    feed_axis hst (piece_of_isMotion haxis)
  rw [hfeed]
  exact startTuple_eq_ok.2 (.inr ⟨haxis, mid, hopens, hfree, rfl⟩)

theorem readTokens_tuple (hst : st.progress = .idle) (hopens : st.Opens mid)
    (hfree : mid.slots.holds u.op.axis = false) (hu : u.Proper) (hcut : u.Cut row)
    (hmore : row = u.words ∨ EndsTuple more) :
    st.readTokens reserve (row ++ more) =
      (mid.withSlots (mid.slots.set u.op.axis u.op)).readTokens reserve more := by
  obtain ⟨args, k, rfl, hargs⟩ := hcut
  obtain ⟨n, hn, hpseudo⟩ := hu.mnemonic
  have haxis : u.op.axis.isMotion := hu.axis
  have hop : Opcode.ofArgs (Axis.ofSymbol u.axis) u.mnemonic ([] ++ args.map argument?) = u.op := by
    have hall : u.args.map argument? = args.map argument? ++ List.replicate k none := by
      rw [hargs, List.map_append, List.map_replicate]
      rfl
    rw [Motion.op, hall, Opcode.ofArgs_append_none]
    rfl
  have hselect : st.readToken reserve u.axis = .ok { mid with progress := .axis u.op.axis } :=
    readToken_axis hst hopens haxis hfree
  have hname : ({ mid with progress := .axis u.op.axis } : Assembler).readToken reserve u.mnemonic =
      .ok { mid with progress := .tuple u.op.axis u.mnemonic [] } :=
    (feed_mnemonic rfl).2
      ⟨keyword_of_mnemonic hn, setMnemonic_eq_ok.2 ⟨n, hn, .inr ⟨haxis, hpseudo⟩, rfl⟩⟩
  have hlength : args.length + k = 3 := by
    rw [← List.length_replicate (n := k) (a := ""), ← List.length_append, ← hargs]
    rfl
  have hplain : ∀ token ∈ args, Keyword.ofSymbol? token = none := fun token htoken => by
    refine ofSymbol?_eq_none_iff.2 (hu.plain token ?_)
    rw [hargs]
    exact List.mem_append_left _ htoken
  have hend : ([] : List (Option String)).length + args.length < 3 → EndsTuple more := by
    intro hfew
    rw [List.length_nil] at hfew
    refine hmore.resolve_left fun hwhole => ?_
    have hsame : args = u.args := List.cons_inj_right _ |>.1 (List.cons_inj_right _ |>.1 hwhole)
    have hthree : args.length = 3 := congrArg List.length hsame
    omega
  rw [List.cons_append, List.cons_append, readTokens_cons hselect, readTokens_cons hname,
    readTokens_arguments rfl haxis (by simp) hplain (by simp; omega) hend]
  have haxes : u.op.axis = Axis.ofSymbol u.axis := rfl
  rw [haxes, hop]
  rfl

theorem readTokens_whole (hst : st.progress = .idle) (hopens : st.Opens mid)
    (hfree : mid.slots.holds u.op.axis = false) (hu : u.Proper) :
    st.readTokens reserve (u.words ++ more) =
      (mid.withSlots (mid.slots.set u.op.axis u.op)).readTokens reserve more :=
  readTokens_tuple hst hopens hfree hu ⟨u.args, 0, rfl, by simp⟩ (.inl rfl)

theorem Opens.opened (h : st.Opens mid) : mid.mode ≠ .closed := by
  rcases h with ⟨hopen, rfl⟩ | h
  · exact hopen
  · obtain ⟨-, -, rfl⟩ := openBlock_eq_ok.1 h
    nofun

theorem readTokens_row (hrow : Motion.InRow us row) (hst : st.progress = .idle)
    (hopens : st.Opens mid) (hfits : Fits mid.slots us) (hmore : EndsTuple more) :
    st.readTokens reserve (row ++ more) =
      (mid.withSlots (mid.slots.fill (us.map Motion.op))).readTokens reserve more := by
  induction hrow generalizing st mid with
  | last hcut =>
    obtain ⟨hu, hfree⟩ := hfits.first
    exact readTokens_tuple hst hopens hfree hu hcut (.inr hmore)
  | @cons u us row _ ih =>
    obtain ⟨hu, hfree⟩ := hfits.first
    have hopened : (mid.withSlots (mid.slots.set u.op.axis u.op)).Opens
        (mid.withSlots (mid.slots.set u.op.axis u.op)) := .inl ⟨hopens.opened, rfl⟩
    rw [List.append_assoc, readTokens_whole hst hopens hfree hu, ih (by rfl) hopened hfits.rest]
    rfl

/-- What a block leaves behind that comes to its end on line `n`, if there are so many: nothing of
it is open any more, and it is in the array, or the error is about that line. -/
def appended (reserve : Reserve) (st : Assembler) (slots : Slots) (n : Nat) : Assembler :=
  if n ≤ maxLine then
    match st.blocks.pushSlots reserve slots with
    | .ok blocks => { st with line := n, blocks }.discard
    | .error f => { st with line := n }.stop ⟨some n, f⟩
  else { st with line := maxLine }.stop ⟨none, .lineNumberOverflow⟩

theorem closeBlock_eq :
    st.closeBlock reserve =
      match st.blocks.pushSlots reserve st.slots with
      | .ok blocks => .ok { st with blocks }.discard
      | .error f => st.refuse f := by
  unfold closeBlock BlockArray.pushSlots
  cases compileBlock st.slots with
  | error f => rfl
  | ok b =>
    simp only [bind, Except.bind]
    cases st.blocks.push reserve b with
    | error e => rfl
    | ok blocks => rfl

theorem readTokens_closing (hst : st.progress = .idle) (hopen : st.mode ≠ .closed)
    (hclosing : Keyword.ofSymbol? closing = some .closing) :
    st.readTokens reserve [closing] = st.closeBlock reserve := by
  have hend : st.endBlock reserve = st.closeBlock reserve := if_pos (by simpa [isOpen] using hopen)
  rw [readTokens, readToken_closing hst hclosing, hend, closeBlock_eq]
  cases st.blocks.pushSlots reserve st.slots with
  | error f => rfl
  | ok blocks => rfl

theorem readTokens_lineEnd (hst : st.progress = .idle) (himplicit : st.mode = .implicit) :
    st.readTokens reserve [] = st.closeBlock reserve := by
  simp only [readTokens, endLine, hst]
  exact if_pos himplicit

structure Waiting (st : Assembler) : Prop where
  progress : st.progress = .idle
  closed : st.mode = .closed
  info : st.info.isComplete

def within (st : Assembler) (n : Nat) (mode : Mode) (slots : Slots) : Assembler :=
  { st with line := n, mode, slots, progress := .idle }

theorem within_opens {slots : Slots} {n : Nat} :
    (st.within n .explicit slots).Opens (st.within n .explicit slots) := .inl ⟨nofun, rfl⟩

theorem Waiting.openBlock (h : st.Waiting) (mode : Mode) :
    st.openBlock mode = .ok (st.within st.line mode {}) :=
  openBlock_eq_ok.2 ⟨h.info, h.closed, rfl⟩

theorem Waiting.readTokens_opening (h : st.Waiting)
    (hopening : Keyword.ofSymbol? opening = some .opening) :
    st.readTokens reserve (opening :: more) =
      (st.within st.line .explicit {}).readTokens reserve more := by
  refine readTokens_cons ?_
  simp only [readToken, h.progress, hopening]
  exact h.openBlock .explicit

theorem Waiting.readTokens_row (h : st.Waiting) (hfits : Fits {} us) (hrow : Motion.InRow us row)
    (hmore : EndsTuple more) :
    st.readTokens reserve (row ++ more) =
      (st.within st.line .implicit (Slots.fill {} (us.map Motion.op))).readTokens reserve more :=
  Assembler.readTokens_row hrow h.progress (.inr (h.openBlock .implicit)) hfits hmore

theorem Waiting.readTokens_enclosed (h : st.Waiting) (hfits : Fits {} us)
    (hrow : Motion.InRow us row) (hopening : Keyword.ofSymbol? opening = some .opening)
    (hclosing : Keyword.ofSymbol? closing = some .closing) :
    st.readTokens reserve (opening :: (row ++ [closing])) =
      (st.within st.line .explicit (Slots.fill {} (us.map Motion.op))).closeBlock reserve := by
  rw [h.readTokens_opening hopening, Assembler.readTokens_row hrow rfl within_opens hfits
    (endsTuple_closing hclosing)]
  exact readTokens_closing rfl nofun hclosing

theorem Waiting.readTokens_alone (h : st.Waiting) (hfits : Fits {} us)
    (hrow : Motion.InRow us row) :
    st.readTokens reserve row =
      (st.within st.line .implicit (Slots.fill {} (us.map Motion.op))).closeBlock reserve := by
  have hread : st.readTokens reserve (row ++ []) = _ := h.readTokens_row hfits hrow nofun
  rw [List.append_nil] at hread
  rw [hread]
  exact readTokens_lineEnd rfl rfl

theorem Waiting.readTokens_closed (h : st.Waiting) (hfits : Fits {} us)
    (hrow : Motion.InRow us row) (hclosing : Keyword.ofSymbol? closing = some .closing) :
    st.readTokens reserve (row ++ [closing]) =
      (st.within st.line .implicit (Slots.fill {} (us.map Motion.op))).closeBlock reserve := by
  rw [h.readTokens_row hfits hrow (endsTuple_closing hclosing)]
  exact readTokens_closing rfl nofun hclosing

variable {line : String} {lines : List String} {rows : List (List String)} {mode : Mode}
  {slots : Slots} {n : Nat}

theorem readLine_eq (hst : st.failed = none) (hless : st.line < maxLine)
    (hrow : tokensOf line = row) (hne : row ≠ []) :
    st.readLine reserve line =
      match st.advance.readTokens reserve row with
      | .ok next => next
      | .error (f, mid) => mid.stop ⟨some mid.line, f⟩ := by
  obtain ⟨token, more, rfl⟩ := List.exists_cons_of_ne_nil hne
  have hnot : ¬ st.failed.isSome := by simp [hst]
  simp only [readLine, if_neg hnot, if_neg (Nat.not_le.2 hless), hrow]
  rfl

theorem readLines_uncounted (hst : st.failed = none) (hfull : st.line = maxLine)
    (hne : lines ≠ []) (hn : maxLine < n) :
    st.readLines reserve lines = st.appended reserve slots n := by
  obtain ⟨line, lines, rfl⟩ := List.exists_cons_of_ne_nil hne
  have hnot : ¬ st.failed.isSome := by simp [hst]
  have hread : st.readLine reserve line = st.stop ⟨none, .lineNumberOverflow⟩ := by
    simp only [readLine, if_neg hnot, if_pos (Nat.le_of_eq hfull.symm)]
    rfl
  have hcons : st.readLines reserve (line :: lines) =
      (st.readLine reserve line).readLines reserve lines := rfl
  rw [hcons, hread, failed_readLines rfl, appended, if_neg (Nat.not_le.2 hn), ← hfull]

theorem readLine_closes (hst : st.failed = none) (hless : st.line < maxLine)
    (hrow : tokensOf line = row) (hne : row ≠ [])
    (hread : st.advance.readTokens reserve row =
      (st.within (st.line + 1) mode slots).closeBlock reserve) :
    st.readLine reserve line = st.appended reserve slots (st.line + 1) := by
  have hblocks : (st.within (st.line + 1) mode slots).blocks = st.blocks := rfl
  have hslots : (st.within (st.line + 1) mode slots).slots = slots := rfl
  rw [readLine_eq hst hless hrow hne, hread, closeBlock_eq, appended,
    if_pos (Nat.succ_le_of_lt hless), hblocks, hslots]
  cases st.blocks.pushSlots reserve slots with
  | error f => rfl
  | ok blocks => rfl

theorem readLine_tuple (hst : st.failed = none) (hn : n < maxLine) (hline : tokensOf line = row)
    (hu : u.Proper) (hfree : slots.holds u.op.axis = false) (hcut : u.Cut row) :
    (st.within n .explicit slots).readLine reserve line =
      st.within (n + 1) .explicit (slots.set u.op.axis u.op) := by
  have hne : row ≠ [] := by
    obtain ⟨args, k, rfl, -⟩ := hcut
    exact List.cons_ne_nil _ _
  have hend : EndsTuple [] := nofun
  have hread : (st.within n .explicit slots).advance.readTokens reserve (row ++ []) =
      (st.within (n + 1) .explicit (slots.set u.op.axis u.op)).readTokens reserve [] :=
    readTokens_tuple rfl within_opens hfree hu hcut (.inr hend)
  rw [List.append_nil] at hread
  have hnone : (st.within n .explicit slots).failed = none := hst
  rw [readLine_eq hnone hn hline hne, hread]
  rfl

theorem readLines_apart (hst : st.failed = none)
    (hclosing : Keyword.ofSymbol? closing = some .closing)
    (hrows : List.Forall₂ Motion.Cut us rows)
    (hlines : lines.map tokensOf = rows ++ [[closing]]) (hfits : Fits slots us)
    (hn : n ≤ maxLine) :
    (st.within n .explicit slots).readLines reserve lines =
      st.appended reserve (slots.fill (us.map Motion.op)) (n + lines.length) := by
  induction hrows generalizing slots n lines with
  | nil =>
    obtain ⟨line, rfl, hline⟩ := List.map_eq_singleton_iff.1 hlines
    rcases Nat.lt_or_eq_of_le hn with hless | hfull
    · have hread : (st.within (n + 1) .explicit slots).readTokens reserve [closing] =
          (st.within (n + 1) .explicit slots).closeBlock reserve :=
        readTokens_closing rfl nofun hclosing
      exact readLine_closes hst hless hline (List.cons_ne_nil _ _) hread
    · exact readLines_uncounted hst hfull (List.cons_ne_nil _ _) (by simp; omega)
  | @cons u row us rows hcut hrows ih =>
    obtain ⟨line, lines, rfl, hline, hlines⟩ := List.map_eq_cons_iff.1 hlines
    rcases Nat.lt_or_eq_of_le hn with hless | hfull
    · obtain ⟨hu, hfree⟩ := hfits.first
      have hread : (st.within n .explicit slots).readLine reserve line =
          st.within (n + 1) .explicit (slots.set u.op.axis u.op) :=
        readLine_tuple hst hless hline hu hfree hcut
      have hmore := ih hlines hfits.rest (Nat.succ_le_of_lt hless)
      rw [List.length_cons, Nat.add_comm lines.length, ← Nat.add_assoc]
      rw [← hread] at hmore
      exact hmore
    · exact readLines_uncounted hst hfull (List.cons_ne_nil _ _) (by simp; omega)

theorem AwaitsBlock.waiting (h : st.AwaitsBlock) : st.advance.Waiting where
  progress := h.reachable.settled.progress
  closed := by
    have hclosed : st.mode = .closed := by simpa [isOpen] using h.closed
    exact hclosed
  info := h.info

/-- Each spelling comes to the same end, on the last of its lines. -/
theorem AwaitsBlock.readLines_spelling (h : st.AwaitsBlock) (hfits : Fits {} us)
    (hrows : Motion.Spelled us rows) (hlines : lines.map tokensOf = rows) :
    st.readLines reserve lines =
      st.appended reserve (Slots.fill {} (us.map Motion.op)) (st.line + lines.length) := by
  have hne : lines ≠ [] := by
    rintro rfl
    cases hrows <;> cases hlines
  rcases Nat.lt_or_eq_of_le h.reachable.line_le with hless | hfull
  case inr =>
    have hlength := List.length_pos_iff.2 hne
    exact readLines_uncounted h.failed hfull hne (by omega)
  cases hrows with
  | apart hbegin hend hrows =>
    have hopening := (Keyword.ofSymbol?_eq_some_iff (k := .opening)).2 hbegin
    have hclosing := (Keyword.ofSymbol?_eq_some_iff (k := .closing)).2 hend
    obtain ⟨line, lines, rfl, hline, hlines⟩ := List.map_eq_cons_iff.1 hlines
    have hread : st.readLine reserve line = st.within (st.line + 1) .explicit {} := by
      rw [readLine_eq h.failed hless hline (List.cons_ne_nil _ _),
        h.waiting.readTokens_opening hopening]
      rfl
    have hmore : (st.within (st.line + 1) .explicit {}).readLines reserve lines = _ :=
      readLines_apart h.failed hclosing hrows hlines hfits (Nat.succ_le_of_lt hless)
    rw [List.length_cons, Nat.add_comm lines.length, ← Nat.add_assoc, ← hmore, ← hread]
    rfl
  | enclosed hbegin hend hrow =>
    have hopening := (Keyword.ofSymbol?_eq_some_iff (k := .opening)).2 hbegin
    have hclosing := (Keyword.ofSymbol?_eq_some_iff (k := .closing)).2 hend
    obtain ⟨line, rfl, hline⟩ := List.map_eq_singleton_iff.1 hlines
    exact readLine_closes h.failed hless hline (List.cons_ne_nil _ _)
      (h.waiting.readTokens_enclosed hfits hrow hopening hclosing)
  | alone hrow =>
    obtain ⟨line, rfl, hline⟩ := List.map_eq_singleton_iff.1 hlines
    exact readLine_closes h.failed hless hline hrow.ne_nil (h.waiting.readTokens_alone hfits hrow)
  | ended hend hrow =>
    have hclosing := (Keyword.ofSymbol?_eq_some_iff (k := .closing)).2 hend
    obtain ⟨line, rfl, hline⟩ := List.map_eq_singleton_iff.1 hlines
    exact readLine_closes h.failed hless hline (List.append_ne_nil_of_left_ne_nil hrow.ne_nil _)
      (h.waiting.readTokens_closed hfits hrow hclosing)

/-- However a block is spelled, and in whichever order its tuples are given, it is read alike. Up to
the count of lines it leaves behind what the slots of its tuples are compiled to, or the error of
that. If an argument is no number, the error is about such an argument, and the array stays. -/
theorem readLines_spelled (reserve : Reserve) (hst : st.AwaitsBlock) (hproper : ∀ t ∈ ts, t.Proper)
    (hdistinct : (ts.map fun t => t.op.axis).Nodup) (hperm : us.Perm ts)
    (hrows : Motion.Spelled us rows)
    (hlines : List.Forall₂ (fun line row => Text.Spells line.toList (row.map String.toList)) lines
      rows) :
    let n := st.line + lines.length
    let after := st.readLines reserve lines
    after = st.appended reserve (Slots.fill {} (ts.map Motion.op)) n ∧
      ∀ t ∈ ts, ∀ f, t.Faults f → n ≤ maxLine → ∃ u ∈ ts, ∃ g, u.Faults g ∧
        after.failed = some ⟨some n, g⟩ ∧ after.blocks = st.blocks := by
  intro n after
  have hfits : Fits {} ts := fits_empty hproper hdistinct
  have hus : Fits {} us := by
    refine fits_empty (fun u hu => hproper u (hperm.mem_iff.1 hu)) ?_
    exact (hperm.map _).nodup_iff.2 hdistinct
  have hslots : Slots.fill {} (us.map Motion.op) = Slots.fill {} (ts.map Motion.op) := by
    refine Slots.fill_perm (hperm.map _) ?_ _
    rwa [List.map_map]
  have hafter : after = st.appended reserve (Slots.fill {} (ts.map Motion.op)) n := by
    rw [← hslots]
    exact hst.readLines_spelling hus hrows (forall₂_spells_iff.1 hlines)
  refine ⟨hafter, fun t ht f hf hn => ?_⟩
  cases hblock : compileBlock (Slots.fill {} (ts.map Motion.op)) with
  | ok b => exact absurd hblock (hfits.not_compiled ht hf)
  | error g =>
    obtain ⟨u, hu, hg⟩ := hfits.faults hblock
    have hpush : st.blocks.pushSlots reserve (Slots.fill {} (ts.map Motion.op)) = .error g := by
      rw [BlockArray.pushSlots, hblock]
      rfl
    rw [appended, if_pos hn, hpush] at hafter
    exact ⟨u, hu, g, hg, by rw [hafter]; rfl, by rw [hafter]; rfl⟩

/-- The same block twice, line by line and on one line with its tuples the other way round, and one
that has no number where one is due. -/
theorem readLines_spelled_both_ways :
    let any : Reserve := fun _ => true
    let st := (ofBlocks .empty).readLines any ["INFO, HEADER, 1", "INFO, CONFIG, 4"]
    let x : Motion := ⟨"X", "CW", "5", "", ""⟩
    let y : Motion := ⟨"y", "Dwell", "0x1F", "2", ""⟩
    let z : Motion := ⟨"Z", "CCW", "five", "", ""⟩
    let apart := ["begin", "X, CW, 5, ; to the left", " y, Dwell, 0x1F, 2", "END"]
    let alone := ["y,Dwell,0x1F,2,,X,CW,5"]
    st.AwaitsBlock ∧
      (Motion.Spelled [x, y] (apart.map tokensOf) ∧ Motion.Spelled [y, x] (alone.map tokensOf)) ∧
      (st.readLines any apart).failed = none ∧ (st.readLines any apart).blocks.length = 1 ∧
      (st.readLines any apart).blocks = (st.readLines any alone).blocks ∧
      ∃ f, z.Faults f ∧ (st.readLines any ["Z, CCW, five, end"]).failed = some ⟨some 3, f⟩ := by
  intro any st x y z apart alone
  have hst : st.AwaitsBlock :=
    ⟨(Reachable.start .empty).readLines _, by decide +kernel, by decide +kernel, by decide +kernel⟩
  have hcw : Mnemonic.ofSymbol? "CW" = some .cw := by decide
  have hdwell : Mnemonic.ofSymbol? "Dwell" = some .dwell := by decide
  have hccw : Mnemonic.ofSymbol? "CCW" = some .ccw := by decide
  have hproper : ∀ t ∈ [x, y], t.Proper := by
    have hx : x.Proper := ⟨by decide, ⟨.cw, hcw, rfl⟩, by decide⟩
    have hy : y.Proper := ⟨by decide, ⟨.dwell, hdwell, rfl⟩, by decide⟩
    simp [hx, hy]
  have hz : ∀ t ∈ [z], t.Proper :=
    List.forall_mem_singleton.2 ⟨by decide, ⟨.ccw, hccw, rfl⟩, by decide⟩
  have happart : Motion.Spelled [x, y] (apart.map tokensOf) := by
    have hrows : apart.map tokensOf =
        ["begin"] :: ([["X", "CW", "5", ""], ["y", "Dwell", "0x1F", "2"]] ++ [["END"]]) := by
      decide +kernel
    rw [hrows]
    exact .apart (by decide) (by decide)
      (.cons ⟨["5", ""], 1, rfl, rfl⟩ (.cons ⟨["0x1F", "2"], 1, rfl, rfl⟩ .nil))
  have halone : Motion.Spelled [y, x] (alone.map tokensOf) := by
    have hrow : alone.map tokensOf = [y.words ++ ["X", "CW", "5"]] := by decide +kernel
    rw [hrow]
    exact .alone (.cons (.last ⟨["5"], 2, rfl, rfl⟩))
  have hended : Motion.Spelled [z] (["Z, CCW, five, end"].map tokensOf) := by
    have hrow : ["Z, CCW, five, end"].map tokensOf = [["Z", "CCW", "five"] ++ ["end"]] := by
      decide +kernel
    rw [hrow]
    exact .ended (by decide) (.last ⟨["five"], 2, rfl, rfl⟩)
  obtain ⟨hfirst, -⟩ := readLines_spelled any hst hproper (by decide) (.refl _) happart
    (forall₂_spells_iff.2 rfl)
  obtain ⟨hsecond, -⟩ := readLines_spelled any hst hproper (by decide) (.swap _ _ _)
    halone (forall₂_spells_iff.2 rfl)
  obtain ⟨-, hfault⟩ := readLines_spelled any hst hz (by decide) (.refl _) hended
    (forall₂_spells_iff.2 rfl)
  obtain ⟨u, hu, f, hf, hfailed, -⟩ := hfault z (List.mem_singleton_self _) .malformedNumber
    ⟨"five", by decide, by decide⟩ (by decide +kernel)
  obtain rfl := List.mem_singleton.1 hu
  have hline : st.line = 2 := by decide +kernel
  refine ⟨hst, ⟨happart, halone⟩, by decide +kernel, by decide +kernel, ?_, f, hf, ?_⟩
  · rw [hfirst, hsecond]
    decide +kernel
  · rw [hfailed, hline]
    rfl

/-- Where one more line can be counted, a block has room on one line, and not on three of its
own. -/
theorem readLines_spelled_not_at_last_line :
    let any : Reserve := fun _ => true
    let st := (ofBlocks .empty).readLines any (preamble (maxLine - 3))
    let x : Motion := ⟨"X", "CW", "5", "2", "1"⟩
    let alone := ["X, CW, 5, 2, 1"]
    let apart := ["begin", "X, CW, 5, 2, 1", "end"]
    st.AwaitsBlock ∧ x.Proper ∧
      Motion.Spelled [x] (alone.map tokensOf) ∧ Motion.Spelled [x] (apart.map tokensOf) ∧
      (st.readLines any alone).failed = none ∧ (st.readLines any alone).blocks.length = 1 ∧
      (st.readLines any apart).failed = some ⟨none, .lineNumberOverflow⟩ ∧
      (st.readLines any apart).blocks.length = 0 := by
  intro any st x alone apart
  have hst : st = afterPreamble (maxLine - 3) := readLines_preamble (by decide)
  have hcw : Mnemonic.ofSymbol? "CW" = some .cw := by decide
  have hrow : tokensOf "X, CW, 5, 2, 1" = x.words := by decide +kernel
  have hcut : x.Cut x.words := ⟨x.args, 0, rfl, rfl⟩
  have halone : Motion.Spelled [x] [x.words] := .alone (.last hcut)
  have happart : Motion.Spelled [x] (["begin"] :: ([x.words] ++ [["end"]])) :=
    .apart (by decide) (by decide) (.cons hcut .nil)
  rw [hst]
  refine ⟨awaitsBlock_afterPreamble (by decide), ⟨by decide, ⟨.cw, hcw, rfl⟩, by decide⟩, ?_, ?_,
    by decide +kernel, by decide +kernel, by decide +kernel, by decide +kernel⟩
  · rw [← hrow] at halone
    exact halone
  · have hwords : apart.map tokensOf = ["begin"] :: ([x.words] ++ [["end"]]) := by decide +kernel
    rw [hwords]
    exact happart

end Assembler

end PulseMill
