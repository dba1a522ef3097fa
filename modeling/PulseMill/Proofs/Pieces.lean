import PulseMill.Proofs.AssemblyStep
set_option autoImplicit false

/-!
The pieces of a source text: keywords, line ends and whole tuples. A tuple is taken in word
by word, and here it is shown that the assembler takes it in as a whole.
-/

namespace PulseMill

inductive Lexeme where
  | word (token : String)
  | lineEnd

inductive Piece where
  | blank
  | lineEnd
  | opening
  | closing
  | tuple (op : Opcode)

def IsKeyword (token : String) : Prop :=
  Text.sameName token "begin" ∨ Text.sameName token "end"

instance : DecidablePred IsKeyword := fun _ => inferInstanceAs (Decidable (_ ∨ _))

theorem ofSymbol?_eq_none_iff {token : String} :
    Keyword.ofSymbol? token = none ↔ ¬ IsKeyword token := by
  cases hbegin : Text.sameName token "begin" <;> cases hend : Text.sameName token "end" <;>
    simp [Keyword.ofSymbol?, IsKeyword, hbegin, hend]

/-- What a lexeme is by itself. Other words are parts of tuples. -/
def Lexeme.piece? : Lexeme → Option Piece
  | lineEnd => some .lineEnd
  | word token =>
    if Text.sameName token "begin" then some .opening
    else if Text.sameName token "end" then some .closing
    else if token.isEmpty then some .blank
    else none

def Keyword.piece : Keyword → Piece
  | opening => .opening
  | closing => .closing

theorem piece?_of_keyword {token : String} {k : Keyword} (h : Keyword.ofSymbol? token = some k) :
    (Lexeme.word token).piece? = some k.piece := by
  unfold Keyword.ofSymbol? at h
  unfold Lexeme.piece?
  split at h
  case isTrue hbegin =>
    cases h
    exact if_pos hbegin
  case isFalse hbegin =>
    split at h
    case isTrue hend =>
      cases h
      exact (if_neg hbegin).trans (if_pos hend)
    case isFalse => cases h

theorem piece?_of_plain {token : String} (h : Keyword.ofSymbol? token = none) :
    (Lexeme.word token).piece? = if token.isEmpty then some .blank else none := by
  obtain ⟨hbegin, hend⟩ := not_or.1 (ofSymbol?_eq_none_iff.1 h)
  exact (if_neg hbegin).trans (if_neg hend)

theorem piece?_of_axis {axis : Axis} {token : String} (haxis : axis ∈ Axis.nameable)
    (hname : Text.sameName axis.name token) : (Lexeme.word token).piece? = none := by
  have hsame := Text.sameName_iff.1 hname
  have hname : ∀ axis ∈ Axis.nameable,
      ¬ (Text.folded axis.name = Text.folded "begin" ∨ Text.folded axis.name = Text.folded "end") ∧
        Text.folded axis.name ≠ Text.folded "" := by decide
  obtain ⟨hplain, hne⟩ := hname axis haxis
  rw [hsame] at hplain hne
  have hkeyword : Keyword.ofSymbol? token = none :=
    ofSymbol?_eq_none_iff.2 (by simpa [IsKeyword, Text.sameName_iff] using hplain)
  rw [piece?_of_plain hkeyword, if_neg fun hempty => hne (by rw [String.isEmpty_iff.1 hempty])]

def Lexeme.EndsTuple (l : Lexeme) : Prop :=
  l.piece? = some .lineEnd ∨ l.piece? = some .closing

def argument? (token : String) : Option String := if token.isEmpty then none else some token

/-- Words that are the arguments of a tuple, where there is room for so many. -/
structure ArgumentWords (room : Nat) (args : List String) (rest : List Lexeme) : Prop where
  plain : ∀ token ∈ args, ¬ IsKeyword token
  bound : args.length ≤ room
  ended : args.length < room → ∃ l ∈ rest.head?, l.EndsTuple

theorem ArgumentWords.nil_iff {room : Nat} {rest : List Lexeme} :
    ArgumentWords room [] rest ↔ room = 0 ∨ ∃ l ∈ rest.head?, l.EndsTuple := by
  constructor
  · intro h
    by_cases hroom : room = 0
    · exact .inl hroom
    · exact .inr (h.ended (by simpa using Nat.pos_of_ne_zero hroom))
  · intro h
    refine ⟨by simp, Nat.zero_le _, fun hroom => h.resolve_left ?_⟩
    rw [List.length_nil] at hroom
    omega

theorem ArgumentWords.cons_iff {room : Nat} {token : String} {more : List String}
    {rest : List Lexeme} :
    ArgumentWords (room + 1) (token :: more) rest ↔
      ¬ IsKeyword token ∧ ArgumentWords room more rest := by
  constructor
  · intro hgiven
    obtain ⟨hplain, hbound, hended⟩ := hgiven
    obtain ⟨hk, hmore⟩ := List.forall_mem_cons.1 hplain
    rw [List.length_cons] at hbound hended
    exact ⟨hk, hmore, by omega, fun h => hended (by omega)⟩
  · intro hgiven
    obtain ⟨hk, hmore, hbound, hended⟩ := hgiven
    refine ⟨List.forall_mem_cons.2 ⟨hk, hmore⟩, ?_, ?_⟩ <;> rw [List.length_cons]
    · omega
    · exact fun h => hended (by omega)

inductive Reads : List Lexeme → List Piece → Prop where
  | nil : Reads [] []
  | single {l : Lexeme} {p : Piece} {ls : List Lexeme} {ps : List Piece} :
      l.piece? = some p → Reads ls ps → Reads (l :: ls) (p :: ps)
  | tuple {axis : Axis} {name mnemonic : String} {args : List String} {ls : List Lexeme}
      {ps : List Piece} :
      axis ∈ Axis.nameable → Text.sameName axis.name name → ¬ IsKeyword mnemonic →
      ArgumentWords 3 args ls → Reads ls ps →
      Reads (.word name :: .word mnemonic :: (args.map .word ++ ls))
        (.tuple (.ofArgs axis mnemonic (args.map argument?)) :: ps)

theorem Opcode.names_ofArgs {axis : Axis} {m : String} {args : List (Option String)}
    {n : Mnemonic} : (ofArgs axis m args).Names n ↔ Mnemonic.ofSymbol? m = some n := names_iff

def Opcode.Moves (op : Opcode) : Prop :=
  op.axis.isMotion ∧ ∃ m, op.Names m ∧ m.isPseudo = false

namespace Assembler

variable {reserve : Reserve} {st mid next : Assembler}

def advance (st : Assembler) : Assembler := { st with line := st.line + 1 }

def feed (reserve : Reserve) (st : Assembler) : Lexeme → Step
  | .word token => st.readToken reserve token
  | .lineEnd => do return (← st.endLine reserve).advance

def feedAll (reserve : Reserve) (st : Assembler) : List Lexeme → Step
  | [] => .ok st
  | l :: ls => do (← st.feed reserve l).feedAll reserve ls

/-- What the assembler makes of a piece as a whole. -/
inductive Takes (reserve : Reserve) : Assembler → Piece → Assembler → Prop where
  | blank (st : Assembler) : Takes reserve st .blank st
  | lineEnd {st : Assembler} : st.mode ≠ .implicit → Takes reserve st .lineEnd st.advance
  | endLine {st mid : Assembler} :
      st.mode = .implicit → st.closeBlock reserve = .ok mid → Takes reserve st .lineEnd mid.advance
  | opening {st next : Assembler} :
      st.openBlock .explicit = .ok next → Takes reserve st .opening next
  | closing {st next : Assembler} :
      st.endBlock reserve = .ok next → Takes reserve st .closing next
  | info {st : Assembler} {op : Opcode} {w : AxisWords} {info : Info} :
      op.axis = .info → st.mode = .closed → Assembly.compileOpcode op = .ok w →
      st.info.Adds op info → Takes reserve st (.tuple op) { st with info, progress := .idle }
  | motion {st mid : Assembler} {op : Opcode} :
      op.Moves → st.Opens mid → mid.slots.holds op.axis = false →
      Takes reserve st (.tuple op)
        { mid with slots := mid.slots.set op.axis op, progress := .idle }

inductive TakesAll (reserve : Reserve) : Assembler → List Piece → Assembler → Prop where
  | nil (st : Assembler) : TakesAll reserve st [] st
  | cons {st mid next : Assembler} {p : Piece} {ps : List Piece} :
      Takes reserve st p mid → TakesAll reserve mid ps next → TakesAll reserve st (p :: ps) next

theorem feedAll_cons {l : Lexeme} {ls : List Lexeme} :
    st.feedAll reserve (l :: ls) = .ok next ↔
      ∃ mid, st.feed reserve l = .ok mid ∧ mid.feedAll reserve ls = .ok next := bind_eq_ok

theorem closeBlock_idle (h : st.closeBlock reserve = .ok next) : next.progress = .idle := by
  obtain ⟨block, blocks, -, -, rfl⟩ := closeBlock_eq_ok.1 h
  rfl

theorem complete_idle {op : Opcode} (h : st.complete op = .ok next) : next.progress = .idle := by
  rcases complete_eq_ok.1 h with ⟨-, h⟩ | ⟨-, rfl⟩
  · obtain ⟨w, info, -, -, rfl⟩ := setInfo_eq_ok.1 h
    rfl
  · rfl

theorem Takes.idle {p : Piece} (h : Takes reserve st p next) (hst : st.progress = .idle) :
    next.progress = .idle := by
  cases h with
  | blank => exact hst
  | lineEnd => exact hst
  | endLine _ h =>
    have hmid := closeBlock_idle h
    exact hmid
  | opening h =>
    obtain ⟨-, -, rfl⟩ := openBlock_eq_ok.1 h
    rfl
  | closing h => exact closeBlock_idle (endBlock_eq_ok.1 h).2
  | info => rfl
  | motion => rfl

theorem Takes.nameable {op : Opcode} (h : Takes reserve st (.tuple op) next) :
    op.axis ∈ Axis.nameable := by
  cases h with
  | info haxis =>
    rw [haxis]
    decide
  | motion hmoves => exact Axis.mem_nameable hmoves.1

theorem complete_progress {op : Opcode} (p : Progress) :
    { st with progress := p }.complete op = .ok next ↔ st.complete op = .ok next := by
  simp only [complete_eq_ok, setInfo_eq_ok]

theorem feed_lineEnd_eq (hst : st.progress = .idle) :
    st.feed reserve .lineEnd =
      (if st.mode = .implicit then st.closeBlock reserve else .ok st) >>= fun mid =>
        .ok mid.advance := by
  simp only [feed, endLine, hst]
  rfl

theorem feed_lineEnd (hst : st.progress = .idle) :
    st.feed reserve .lineEnd = .ok next ↔ Takes reserve st .lineEnd next := by
  rw [feed_lineEnd_eq hst, bind_eq_ok]
  constructor
  · intro hgiven
    obtain ⟨mid, hmid, h⟩ := hgiven
    cases h
    split at hmid
    case isTrue hmode => exact .endLine hmode hmid
    case isFalse hmode =>
      cases hmid
      exact .lineEnd hmode
  · intro h
    cases h with
    | lineEnd hmode => exact ⟨st, if_neg hmode, rfl⟩
    | endLine hmode hclose => exact ⟨_, (if_pos hmode).trans hclose, rfl⟩

theorem feed_single {l : Lexeme} {p : Piece} (hst : st.progress = .idle)
    (hp : l.piece? = some p) : st.feed reserve l = .ok next ↔ Takes reserve st p next := by
  cases l with
  | lineEnd =>
    cases hp
    exact feed_lineEnd hst
  | word token =>
    simp only [feed, readToken, hst]
    cases hk : Keyword.ofSymbol? token with
    | none =>
      simp only [piece?_of_plain hk, Option.ite_none_right_eq_some, Option.some.injEq] at hp
      obtain ⟨hblank, rfl⟩ := hp
      rw [if_pos hblank]
      constructor
      · intro h
        cases h
        exact .blank st
      · intro h
        cases h
        rfl
    | some k =>
      obtain rfl : k.piece = p := Option.some.inj ((piece?_of_keyword hk).symm.trans hp)
      cases k with
      | opening =>
        constructor
        · exact .opening
        · intro h
          cases h
          assumption
      | closing =>
        constructor
        · exact .closing
        · intro h
          cases h
          assumption

theorem feed_axis {token : String} (hst : st.progress = .idle)
    (hp : (Lexeme.word token).piece? = none) :
    st.feed reserve (.word token) = st.startTuple token := by
  simp only [feed, readToken, hst]
  cases hk : Keyword.ofSymbol? token with
  | some k =>
    rw [piece?_of_keyword hk] at hp
    cases hp
  | none =>
    simp only [piece?_of_plain hk, ite_eq_right_iff, reduceCtorEq, imp_false] at hp
    exact if_neg hp

theorem endsTuple_word {token : String} :
    (Lexeme.word token).EndsTuple ↔ Keyword.ofSymbol? token = some .closing := by
  unfold Lexeme.EndsTuple
  cases hk : Keyword.ofSymbol? token with
  | none =>
    rw [piece?_of_plain hk]
    cases token.isEmpty <;> simp
  | some k =>
    rw [piece?_of_keyword hk]
    cases k <;> simp [Keyword.piece]

variable {axis : Axis} {m : String} {args : List (Option String)}

theorem feed_end {l : Lexeme} (hst : st.progress = .tuple axis m args) (hroom : args.length < 3)
    (hl : l.EndsTuple) :
    st.feed reserve l = .ok next ↔
      ∃ mid, st.complete (.ofArgs axis m args) = .ok mid ∧ mid.feed reserve l = .ok next := by
  cases l with
  | lineEnd =>
    have hstep : st.feed reserve .lineEnd = st.complete (.ofArgs axis m args) >>= fun mid =>
        (if mid.mode = .implicit then mid.closeBlock reserve else .ok mid) >>= fun mid =>
          .ok mid.advance := by
      simp only [feed, endLine, hst]
      rw [if_neg (by omega), bind_assoc]
      rfl
    rw [hstep, bind_eq_ok]
    refine exists_congr fun mid => and_congr_right fun hmid => ?_
    rw [feed_lineEnd_eq (complete_idle hmid)]
  | word token =>
    have hk := endsTuple_word.1 hl
    have hstep : st.feed reserve (.word token) =
        st.complete (.ofArgs axis m args) >>= fun mid => mid.endBlock reserve := by
      simp only [feed, readToken, hst]
      rw [if_neg (by omega), hk]
    rw [hstep, bind_eq_ok]
    refine exists_congr fun mid => and_congr_right fun hmid => ?_
    simp only [feed, readToken, complete_idle hmid, hk]

theorem feed_argument {token : String} (hst : st.progress = .tuple axis m args)
    (hroom : args.length < 3) (hk : Keyword.ofSymbol? token = none) :
    st.feed reserve (.word token) =
      if args.length + 1 < 3 then
        .ok { st with progress := .tuple axis m (args ++ [argument? token]) }
      else st.complete (.ofArgs axis m (args ++ [argument? token])) := by
  simp only [feed, readToken, hst]
  rw [if_neg (by omega), hk]
  simp only [addArgument, List.length_append, List.length_singleton, argument?]

theorem feed_opening {token : String} (hst : st.progress = .tuple axis m args)
    (hroom : args.length < 3) (hk : Keyword.ofSymbol? token = some .opening) :
    st.feed reserve (.word token) ≠ .ok next := by
  simp only [feed, readToken, hst]
  rw [if_neg (by omega), hk]
  nofun

/-- The tuple gets the arguments that are left, and what follows is read from there on. -/
def Completes (reserve : Reserve) (st : Assembler) (axis : Axis) (m : String)
    (args : List (Option String)) (ls : List Lexeme) (next : Assembler) : Prop :=
  ∃ more rest mid, ls = more.map .word ++ rest ∧ ArgumentWords (3 - args.length) more rest ∧
    st.complete (.ofArgs axis m (args ++ more.map argument?)) = .ok mid ∧
    mid.feedAll reserve rest = .ok next ∧ next.progress = .idle

theorem completes_done {ls : List Lexeme}
    (h : 3 ≤ args.length ∨ ∃ l ∈ ls.head?, l.EndsTuple) :
    Completes reserve st axis m args ls next ↔
      ∃ mid, st.complete (.ofArgs axis m args) = .ok mid ∧ mid.feedAll reserve ls = .ok next ∧
        next.progress = .idle := by
  constructor
  · intro hgiven
    obtain ⟨more, rest, mid, rfl, hargs, hmid, hrest, hidle⟩ := hgiven
    cases more with
    | nil => exact ⟨mid, by simpa using hmid, hrest, hidle⟩
    | cons token more =>
      have hbound := hargs.bound
      rw [List.length_cons] at hbound
      obtain ⟨l, hl, hends⟩ := h.resolve_left (by omega)
      obtain rfl : Lexeme.word token = l := Option.some.inj hl
      have hk := ofSymbol?_eq_none_iff.2 (hargs.plain token (List.mem_cons_self ..))
      rw [endsTuple_word.1 hends] at hk
      cases hk
  · intro hgiven
    obtain ⟨mid, hmid, hrest, hidle⟩ := hgiven
    have hargs : ArgumentWords (3 - args.length) [] ls := by
      refine ArgumentWords.nil_iff.2 (h.imp_left fun hfull => ?_)
      omega
    exact ⟨[], ls, mid, rfl, hargs, by simpa using hmid, hrest, hidle⟩

theorem completes_word {token : String} {ls : List Lexeme} (hroom : args.length < 3)
    (hk : Keyword.ofSymbol? token = none) :
    Completes reserve st axis m args (.word token :: ls) next ↔
      Completes reserve st axis m (args ++ [argument? token]) ls next := by
  obtain ⟨room, hroom⟩ : ∃ room, 3 - args.length = room + 1 := ⟨2 - args.length, by omega⟩
  have hless : 3 - (args ++ [argument? token]).length = room := by simp; omega
  unfold Completes
  rw [hroom, hless]
  constructor
  · intro h
    obtain ⟨more, rest, mid, hls, hargs, hmid, hafter⟩ := h
    cases more with
    | nil =>
      obtain rfl : .word token :: ls = rest := hls
      obtain ⟨l, hl, hends⟩ := (ArgumentWords.nil_iff.1 hargs).resolve_left (by omega)
      obtain rfl : Lexeme.word token = l := Option.some.inj hl
      rw [endsTuple_word.1 hends] at hk
      cases hk
    | cons other more =>
      obtain ⟨hword, rfl⟩ := List.cons_eq_cons.1 hls
      obtain rfl : token = other := Lexeme.word.inj hword
      exact ⟨more, rest, mid, rfl, (ArgumentWords.cons_iff.1 hargs).2, by simpa using hmid, hafter⟩
  · intro h
    obtain ⟨more, rest, mid, rfl, hargs, hmid, hafter⟩ := h
    have hplain := ofSymbol?_eq_none_iff.1 hk
    exact ⟨token :: more, rest, mid, rfl, ArgumentWords.cons_iff.2 ⟨hplain, hargs⟩,
      by simpa using hmid, hafter⟩

theorem completes_progress {ls : List Lexeme} (p : Progress) :
    Completes reserve { st with progress := p } axis m args ls next ↔
      Completes reserve st axis m args ls next := by
  simp only [Completes, complete_progress]

theorem not_completes_opening {token : String} {ls : List Lexeme} (hroom : args.length < 3)
    (hk : Keyword.ofSymbol? token = some .opening) :
    ¬ Completes reserve st axis m args (.word token :: ls) next := by
  intro h
  obtain ⟨more, rest, mid, hls, hargs, -⟩ := h
  cases more with
  | nil =>
    obtain rfl : .word token :: ls = rest := hls
    obtain ⟨l, hl, hends⟩ := (ArgumentWords.nil_iff.1 hargs).resolve_left (by omega)
    obtain rfl : Lexeme.word token = l := Option.some.inj hl
    rw [endsTuple_word.1 hends] at hk
    cases hk
  | cons other more =>
    obtain ⟨hword, -⟩ := List.cons_eq_cons.1 hls
    obtain rfl : token = other := Lexeme.word.inj hword
    rw [ofSymbol?_eq_none_iff.2 (hargs.plain token (List.mem_cons_self ..))] at hk
    cases hk

theorem feedAll_tuple {ls : List Lexeme} (hst : st.progress = .tuple axis m args)
    (hroom : args.length < 3) :
    st.feedAll reserve ls = .ok next ∧ next.progress = .idle ↔
      Completes reserve st axis m args ls next := by
  induction ls generalizing st args with
  | nil =>
    constructor
    · intro hgiven
      obtain ⟨h, hidle⟩ := hgiven
      cases h
      rw [hst] at hidle
      cases hidle
    · intro hgiven
      obtain ⟨more, rest, mid, hls, hargs, -⟩ := hgiven
      obtain ⟨hmore, rfl⟩ := List.append_eq_nil_iff.1 hls.symm
      obtain rfl := List.map_eq_nil_iff.1 hmore
      obtain ⟨l, hl, -⟩ := (ArgumentWords.nil_iff.1 hargs).resolve_left (by omega)
      cases hl
  | cons l ls ih =>
    by_cases hl : l.EndsTuple
    · rw [completes_done (.inr ⟨l, rfl, hl⟩)]
      simp only [feedAll_cons, feed_end hst hroom hl]
      constructor
      · intro hgiven
        obtain ⟨⟨n, ⟨mid, hmid, hn⟩, hls⟩, hidle⟩ := hgiven
        exact ⟨mid, hmid, ⟨n, hn, hls⟩, hidle⟩
      · intro hgiven
        obtain ⟨mid, hmid, ⟨n, hn, hls⟩, hidle⟩ := hgiven
        exact ⟨⟨n, ⟨mid, hmid, hn⟩, hls⟩, hidle⟩
    · cases l with
      | lineEnd => exact absurd (.inl rfl) hl
      | word token =>
        cases hk : Keyword.ofSymbol? token with
        | some k =>
          cases k with
          | closing => exact absurd (endsTuple_word.2 hk) hl
          | opening =>
            refine iff_of_false ?_ (not_completes_opening hroom hk)
            intro hgiven
            obtain ⟨h, -⟩ := hgiven
            obtain ⟨n, hn, -⟩ := feedAll_cons.1 h
            exact feed_opening hst hroom hk hn
        | none =>
          rw [completes_word hroom hk]
          simp only [feedAll_cons, feed_argument hst hroom hk]
          by_cases hmore : args.length + 1 < 3
          · simp only [if_pos hmore, Except.ok.injEq, exists_eq_left']
            rw [ih rfl (by simpa using hmore), completes_progress]
          · simp only [if_neg hmore]
            rw [completes_done (.inl (by simp; omega))]
            constructor
            · intro hgiven
              obtain ⟨⟨n, hn, hls⟩, hidle⟩ := hgiven
              exact ⟨n, hn, hls, hidle⟩
            · intro hgiven
              obtain ⟨n, hn, hls, hidle⟩ := hgiven
              exact ⟨⟨n, hn, hls⟩, hidle⟩

theorem startTuple_progress {token : String} (h : st.startTuple token = .ok next) :
    next.progress = .axis (Axis.ofSymbol token) := by
  rcases startTuple_eq_ok.1 h with ⟨haxis, -, rfl⟩ | ⟨-, mid, -, -, rfl⟩
  · rw [haxis]
  · rfl

theorem feed_mnemonic {token : String} (hst : st.progress = .axis axis) :
    st.feed reserve (.word token) = .ok next ↔
      Keyword.ofSymbol? token = none ∧ st.setMnemonic axis token = .ok next := by
  simp only [feed, readToken, hst]
  cases hk : Keyword.ofSymbol? token with
  | none => simp
  | some k => simp [refuse]

theorem feed_lineEnd_of_axis (hst : st.progress = .axis axis) :
    st.feed reserve .lineEnd ≠ .ok next := by
  simp only [feed, endLine, hst]
  nofun

theorem takes_tuple {token : String} :
    (∃ selected named, st.startTuple token = .ok selected ∧
      selected.setMnemonic (Axis.ofSymbol token) m = .ok named ∧
      named.complete (.ofArgs (Axis.ofSymbol token) m args) = .ok next) ↔
    Takes reserve st (.tuple (.ofArgs (Axis.ofSymbol token) m args)) next := by
  constructor
  · intro hgiven
    obtain ⟨selected, named, hselected, hnamed, hnext⟩ := hgiven
    obtain ⟨n, hn, hpseudo, rfl⟩ := setMnemonic_eq_ok.1 hnamed
    rw [complete_progress] at hnext
    rcases startTuple_eq_ok.1 hselected with
      ⟨hinfo, hmode, rfl⟩ | ⟨hmotion, mid, hopens, hfree, rfl⟩
    · have haxis : (Opcode.ofArgs (Axis.ofSymbol token) m args).axis = .info := hinfo
      rcases complete_eq_ok.1 hnext with ⟨-, hnext⟩ | ⟨hmotion, -⟩
      · obtain ⟨w, info, hw, hadds, rfl⟩ := setInfo_eq_ok.1 hnext
        exact .info haxis hmode hw hadds
      · rw [haxis] at hmotion
        cases hmotion
    · rcases complete_eq_ok.1 hnext with ⟨hinfo, -⟩ | ⟨-, rfl⟩
      · rw [show Axis.ofSymbol token = .info from hinfo] at hmotion
        cases hmotion
      · have hnot : n.isPseudo = false := by
          rcases hpseudo with ⟨hinfo, -⟩ | ⟨-, hnot⟩
          · rw [hinfo] at hmotion
            cases hmotion
          · exact hnot
        exact @Takes.motion reserve st mid _ ⟨hmotion, n, Opcode.names_ofArgs.2 hn, hnot⟩ hopens
          hfree
  · intro h
    cases h with
    | info haxis hmode hw hadds =>
      have hinfo : Axis.ofSymbol token = .info := haxis
      obtain ⟨n, hn, hpseudo⟩ : ∃ n, Mnemonic.ofSymbol? m = some n ∧ n.isPseudo := by
        rcases hadds with ⟨hn, -⟩ | ⟨hn, -⟩ <;> exact ⟨_, Opcode.names_ofArgs.1 hn, rfl⟩
      refine ⟨_, _, startTuple_eq_ok.2 (.inl ⟨hinfo, hmode, rfl⟩),
        setMnemonic_eq_ok.2 ⟨n, hn, .inl ⟨hinfo, hpseudo⟩, rfl⟩, ?_⟩
      rw [complete_progress, complete_progress]
      exact complete_eq_ok.2 (.inl ⟨haxis, setInfo_eq_ok.2 ⟨_, _, hw, hadds, rfl⟩⟩)
    | motion hmoves hopens hfree =>
      obtain ⟨hmotion, n, hn, hpseudo⟩ := hmoves
      refine ⟨_, _, startTuple_eq_ok.2 (.inr ⟨hmotion, _, hopens, hfree, rfl⟩),
        setMnemonic_eq_ok.2 ⟨n, Opcode.names_ofArgs.1 hn, .inr ⟨hmotion, hpseudo⟩, rfl⟩, ?_⟩
      rw [complete_progress, complete_progress]
      exact complete_eq_ok.2 (.inr ⟨hmotion, rfl⟩)

theorem feedAll_of_axis {token : String} {ls : List Lexeme} (hst : st.progress = .idle)
    (hp : (Lexeme.word token).piece? = none) :
    st.feedAll reserve (.word token :: ls) = .ok next ∧ next.progress = .idle ↔
      ∃ m args rest mid, ls = .word m :: (args.map .word ++ rest) ∧
        Keyword.ofSymbol? m = none ∧ ArgumentWords 3 args rest ∧
        Takes reserve st (.tuple (.ofArgs (Axis.ofSymbol token) m (args.map argument?))) mid ∧
        mid.feedAll reserve rest = .ok next ∧ next.progress = .idle := by
  constructor
  · intro hgiven
    obtain ⟨h, hidle⟩ := hgiven
    obtain ⟨selected, hselected, hls⟩ := feedAll_cons.1 h
    rw [feed_axis hst hp] at hselected
    have hprogress := startTuple_progress hselected
    cases ls with
    | nil =>
      cases hls
      rw [hprogress] at hidle
      cases hidle
    | cons l ls =>
      obtain ⟨named, hnamed, hafter⟩ := feedAll_cons.1 hls
      cases l with
      | lineEnd => exact absurd hnamed (feed_lineEnd_of_axis hprogress)
      | word m =>
        obtain ⟨hk, hnamed⟩ := (feed_mnemonic hprogress).1 hnamed
        have htuple : named.progress = .tuple (Axis.ofSymbol token) m [] := by
          obtain ⟨n, -, -, rfl⟩ := setMnemonic_eq_ok.1 hnamed
          rfl
        obtain ⟨args, rest, mid, rfl, hargs, hmid, hrest⟩ :=
          (feedAll_tuple htuple (by simp)).1 ⟨hafter, hidle⟩
        exact ⟨m, args, rest, mid, rfl, hk, hargs, takes_tuple.1 ⟨_, _, hselected, hnamed, hmid⟩,
          hrest⟩
  · intro hgiven
    obtain ⟨m, args, rest, mid, rfl, hk, hargs, htakes, hrest, hidle⟩ := hgiven
    obtain ⟨selected, named, hselected, hnamed, hmid⟩ := takes_tuple.2 htakes
    have hprogress := startTuple_progress hselected
    have htuple : named.progress = .tuple (Axis.ofSymbol token) m [] := by
      obtain ⟨n, -, -, rfl⟩ := setMnemonic_eq_ok.1 hnamed
      rfl
    have hls := ((feedAll_tuple htuple (by simp)).2
      ⟨args, rest, mid, rfl, hargs, hmid, hrest, hidle⟩).1
    refine ⟨feedAll_cons.2 ⟨selected, ?_, ?_⟩, hidle⟩
    · rw [feed_axis hst hp, hselected]
    · exact feedAll_cons.2 ⟨named, (feed_mnemonic hprogress).2 ⟨hk, hnamed⟩, hls⟩

/-- Word by word the assembler does the same as piece by piece. -/
theorem feedAll_iff_takesAll {ls : List Lexeme} (hst : st.progress = .idle) :
    st.feedAll reserve ls = .ok next ∧ next.progress = .idle ↔
      ∃ ps, Reads ls ps ∧ TakesAll reserve st ps next := by
  -- A tuple takes up several lexemes, so the induction is on their number.
  induction hn : ls.length using Nat.strongRecOn generalizing st ls with
  | ind n ih =>
    subst hn
    cases ls with
    | nil =>
      constructor
      · intro h
        obtain ⟨⟨⟩, -⟩ := h
        exact ⟨[], .nil, .nil _⟩
      · intro h
        obtain ⟨ps, hreads, htakes⟩ := h
        cases hreads
        cases htakes
        exact ⟨rfl, hst⟩
    | cons l ls =>
      cases hp : l.piece? with
      | some p =>
        simp only [feedAll_cons, feed_single hst hp]
        constructor
        · intro h
          obtain ⟨⟨mid, htakes, hls⟩, hidle⟩ := h
          obtain ⟨ps, hreads, hall⟩ := (ih _ (by simp) (htakes.idle hst) rfl).1 ⟨hls, hidle⟩
          exact ⟨p :: ps, .single hp hreads, .cons htakes hall⟩
        · intro h
          obtain ⟨ps, hreads, hall⟩ := h
          cases hreads with
          | single hp' hreads =>
            obtain rfl := Option.some.inj (hp.symm.trans hp')
            cases hall with
            | cons htakes hall =>
              obtain ⟨hls, hidle⟩ := (ih _ (by simp) (htakes.idle hst) rfl).2 ⟨_, hreads, hall⟩
              exact ⟨⟨_, htakes, hls⟩, hidle⟩
          | tuple haxis hname =>
            rw [piece?_of_axis haxis hname] at hp
            cases hp
      | none =>
        cases l with
        | lineEnd => cases hp
        | word token =>
          rw [feedAll_of_axis hst hp]
          constructor
          · intro h
            obtain ⟨m, args, rest, mid, rfl, hk, hargs, htakes, hrest⟩ := h
            obtain ⟨ps, hreads, hall⟩ := (ih _ (by simp; omega) (htakes.idle hst) rfl).1 hrest
            have haxis := htakes.nameable
            exact ⟨_, .tuple haxis ((Axis.ofSymbol_eq_iff haxis).1 rfl)
              (ofSymbol?_eq_none_iff.1 hk) hargs hreads, .cons htakes hall⟩
          · intro h
            obtain ⟨ps, hreads, hall⟩ := h
            cases hreads with
            | single hp' =>
              rw [hp] at hp'
              cases hp'
            | tuple haxis hname hplain hargs hreads =>
              obtain rfl := (Axis.ofSymbol_eq_iff haxis).2 hname
              have hk := ofSymbol?_eq_none_iff.2 hplain
              cases hall with
              | cons htakes hall =>
                have hrest := (ih _ (by simp; omega) (htakes.idle hst) rfl).2 ⟨_, hreads, hall⟩
                exact ⟨_, _, _, _, rfl, hk, hargs, htakes, hrest⟩

end Assembler

end PulseMill
