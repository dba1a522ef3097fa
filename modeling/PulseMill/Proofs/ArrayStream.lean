import PulseMill.Proofs.ArrayCalls
import Mathlib.Data.List.Infix
set_option autoImplicit false

namespace PulseMill

variable {α : Type}

/-- The call neither moves the cursor by hand nor clears the array. -/
def ArrayCall.Streams : ArrayCall α → Prop
  | seek _ | rewind | clear => False
  | _ => True

namespace BlockArray

variable {a b c : BlockArray α} {l more : List α} {call : ArrayCall α}
  {calls : List (ArrayCall α)}

/-- The entries that calls for the next one have delivered, in their order. -/
def delivered (a : BlockArray α) (calls : List (ArrayCall α)) : List α :=
  (a.replies calls).filterMap ArrayReply.delivered?

theorem delivered_cons (a : BlockArray α) (call : ArrayCall α) (calls : List (ArrayCall α)) :
    a.delivered (call :: calls) =
      (ArrayReply.delivered? ⟨call, (a.serve call).1⟩).toList ++
        (a.serve call).2.delivered calls := by
  rw [delivered, replies, List.filterMap_cons]
  cases ArrayReply.delivered? ⟨call, (a.serve call).1⟩ <;> rfl

theorem next?_eq (a : BlockArray α) :
    a.next? = (a.peek?, if a.cursor < a.length then a.seek (a.cursor + 1) else a) := by
  have hpeek : a.peek? = a.entries[a.cursor]? := rfl
  rw [next?, hpeek]
  by_cases hless : a.cursor < a.length
  · rw [Array.getElem?_eq_getElem hless, if_pos hless]
    rfl
  · rw [Array.getElem?_eq_none (Nat.not_lt.1 hless), if_neg hless]

theorem next?_fst (a : BlockArray α) : a.next?.1 = a.peek? := by rw [next?_eq]

theorem peek?_eq_none_iff (a : BlockArray α) : a.peek? = none ↔ a.length ≤ a.cursor :=
  Array.getElem?_eq_none_iff

/-- From `a` to `b` these entries were delivered, and others may have been added. -/
structure Streamed (a : BlockArray α) (l : List α) (b : BlockArray α) : Prop where
  kept : a.toList <+: b.toList
  cursor : b.cursor = a.cursor + l.length
  inOrder : l <+: b.toList.drop a.cursor

namespace Streamed

theorem of_same_cursor (hkept : a.toList <+: b.toList) (hcursor : b.cursor = a.cursor) :
    Streamed a [] b :=
  ⟨hkept, hcursor, List.nil_prefix⟩

theorem refl (a : BlockArray α) : Streamed a [] a := .of_same_cursor List.prefix_rfl rfl

theorem trans (h : Streamed a l b) (k : Streamed b more c) : Streamed a (l ++ more) c where
  kept := h.kept.trans k.kept
  cursor := by rw [k.cursor, h.cursor, List.length_append, Nat.add_assoc]
  inOrder := by
    -- What `b` delivers from its own cursor on follows what was delivered before.
    have hbefore : l <+: c.toList.drop a.cursor := h.inOrder.trans (k.kept.drop a.cursor)
    have hafter : more <+: (c.toList.drop a.cursor).drop l.length := by
      rw [List.drop_drop, ← h.cursor]
      exact k.inOrder
    have hboth := (List.prefix_append_right_inj l).2 hafter
    rwa [List.prefix_iff_eq_append.1 hbefore] at hboth

theorem next (a : BlockArray α) : Streamed a a.next?.1.toList a.next?.2 := by
  rw [next?_eq]
  have hpeek : a.peek? = a.toList[a.cursor]? := get?_eq a a.cursor
  by_cases hless : a.cursor < a.length
  · have hlist : a.cursor < a.toList.length := by rwa [length_toList]
    rw [if_pos hless, hpeek, List.getElem?_eq_getElem hlist]
    refine ⟨List.prefix_rfl, rfl, ?_⟩
    change [a.toList[a.cursor]] <+: a.toList.drop a.cursor
    rw [List.drop_eq_getElem_cons hlist]
    exact List.prefix_append [a.toList[a.cursor]] _
  · rw [if_neg hless, (peek?_eq_none_iff a).2 (Nat.not_lt.1 hless)]
    exact refl a

theorem serve (a : BlockArray α) (h : call.Streams) :
    Streamed a (ArrayReply.delivered? ⟨call, (a.serve call).1⟩).toList (a.serve call).2 := by
  cases call with
  | push reserve entry =>
    cases hpush : a.push reserve entry with
    | ok b =>
      rw [serve_push_ok hpush]
      refine of_same_cursor ?_ (push_stores hpush).2.1
      rw [toList_push hpush]
      exact List.prefix_append ..
    | error e =>
      rw [serve_push_error hpush]
      exact refl a
  | next => exact next a
  | get | peek | length | remaining => exact refl a
  | seek | rewind | clear => cases h

theorem run (a : BlockArray α) (h : ∀ call ∈ calls, call.Streams) :
    Streamed a (a.delivered calls) (a.run calls) := by
  induction calls generalizing a with
  | nil => exact refl a
  | cons call calls ih =>
    obtain ⟨hfirst, hmore⟩ := List.forall_mem_cons.1 h
    rw [delivered_cons]
    exact (serve a hfirst).trans (ih (a.serve call).2 hmore)

theorem get? (h : Streamed a l b) {k : Nat} (hk : k < l.length) :
    b.get? (a.cursor + k) = some l[k] := by
  rw [get?_eq, ← List.getElem?_drop]
  exact List.prefix_iff_getElem?.1 h.inOrder k hk

theorem cursor_le (h : Streamed a l b) : b.cursor ≤ max a.cursor b.length := by
  have hcursor := h.cursor
  have hlength := h.inOrder.length_le
  rw [List.length_drop, length_toList] at hlength
  omega

end Streamed

theorem length_toList_peek? (a : BlockArray α) :
    a.peek?.toList.length = if a.cursor < a.length then 1 else 0 := by
  cases hpeek : a.peek? with
  | none => rw [if_neg (Nat.not_lt.2 ((peek?_eq_none_iff a).1 hpeek))]; rfl
  | some entry =>
    have hless : a.cursor < a.length := by
      rw [← Nat.not_le, ← peek?_eq_none_iff, hpeek]
      nofun
    rw [if_pos hless]
    rfl

theorem length_delivered_replicate (a : BlockArray α) (n : Nat) :
    (a.delivered (List.replicate n .next)).length = min n a.remaining := by
  induction n generalizing a with
  | zero => rw [Nat.zero_min]; rfl
  | succ n ih =>
    have hfound : ArrayReply.delivered? ⟨.next, (a.serve .next).1⟩ = a.peek? := next?_fst a
    have hleft : (a.serve .next).2 = if a.cursor < a.length then a.seek (a.cursor + 1) else a :=
      congrArg Prod.snd (next?_eq a)
    rw [List.replicate_succ, delivered_cons, List.length_append, ih, hfound, hleft,
      length_toList_peek?]
    by_cases hless : a.cursor < a.length
    · have hmoved : (a.seek (a.cursor + 1)).remaining = a.length - (a.cursor + 1) := rfl
      rw [if_pos hless, if_pos hless, hmoved, remaining]
      omega
    · rw [if_neg hless, if_neg hless, remaining]
      omega

theorem Streamed.awaits (h : Streamed a [] b) {entry : α} (hentry : b.get? a.cursor = some entry) :
    b.next?.1 = some entry := by
  rw [next?_fst, peek?, h.cursor, List.length_nil, Nat.add_zero, hentry]

theorem toNat_succ_of_lt {i : UInt64} (hindex : a.length ≤ maxIndex) (h : i.toNat < a.length) :
    (i + 1).toNat = i.toNat + 1 := by
  have hword : i.toNat + 1 < 2 ^ 64 :=
    Nat.lt_of_le_of_lt (Nat.le_trans (Nat.succ_le_of_lt h) hindex) (by decide)
  rw [UInt64.toNat_add, UInt64.toNat_one, Nat.mod_eq_of_lt hword]

/-- However pushes and reads are mixed, what calls for the next entry deliver are the entries from
the old cursor on, each of them once and in its place, and the cursor has moved by as many. At
each point on the way there is no next entry just when the cursor is at the end or beyond. Then
it stays, and an entry that comes to stand there is delivered by the next call. A peek shows what
a call for the next entry would deliver, and as many are said to remain as such calls would
deliver. From any machine word as the cursor, such a call leads to the same or the next word, and
this is never a lower one. -/
theorem run_delivers (a : BlockArray α) (calls : List (ArrayCall α))
    (h : ∀ call ∈ calls, call.Streams) :
    let b := a.run calls
    let entries := a.delivered calls
    (∀ k (hk : k < entries.length), b.get? (a.cursor + k) = some entries[k]) ∧
    b.cursor = a.cursor + entries.length ∧
    (b.next?.1 = none ↔ b.length ≤ b.cursor) ∧
    (b.next?.1 = none → b.next?.2 = b ∧
      ∀ later : List (ArrayCall α), (∀ call ∈ later, call.Streams) → b.delivered later = [] →
        ∀ entry, (b.run later).get? b.cursor = some entry →
          (b.run later).next?.1 = some entry) ∧
    (b.serve .peek = (b.next?.1, b)) ∧
    (∀ n, (b.delivered (List.replicate n .next)).length = min n b.remaining) ∧
    (a.cursor ≤ maxIndex → b.length ≤ maxIndex → b.cursor ≤ maxIndex) ∧
    (b.length ≤ maxIndex → ∀ i : UInt64,
      let moved := (b.seek i.toNat).next?.2.cursor
      moved = (if i.toNat < b.length then i + 1 else i).toNat ∧ i.toNat ≤ moved) := by
  intro b entries
  have hstream : Streamed a entries b := .run a h
  refine ⟨fun k hk => hstream.get? hk, hstream.cursor, ?_, fun hnone => ⟨?_, ?_⟩, ?_,
    length_delivered_replicate b, fun hcursor hlength => ?_, fun hindex i => ?_⟩
  · rw [next?_fst, peek?_eq_none_iff]
  · rw [next?_fst, peek?_eq_none_iff] at hnone
    rw [next?_eq, if_neg (Nat.not_lt.2 hnone)]
  · intro later hlater hnothing entry hentry
    have hwaits : Streamed b [] (b.run later) := hnothing ▸ Streamed.run b hlater
    exact hwaits.awaits hentry
  · rw [next?_fst]
    rfl
  · exact Nat.le_trans hstream.cursor_le (Nat.max_le.2 ⟨hcursor, hlength⟩)
  · intro moved
    have hmoved : moved = if i.toNat < b.length then i.toNat + 1 else i.toNat := by
      change (b.seek i.toNat).next?.2.cursor = _
      rw [next?_eq]
      exact apply_ite cursor (i.toNat < b.length) ((b.seek i.toNat).seek (i.toNat + 1)) _
    by_cases hless : i.toNat < b.length
    · rw [hmoved, if_pos hless, if_pos hless, toNat_succ_of_lt hindex hless]
      exact ⟨rfl, Nat.le_succ _⟩
    · rw [hmoved, if_neg hless, if_neg hless]
      exact ⟨rfl, Nat.le_refl _⟩

/-- The second of two entries is read, then nothing is left, and the array is full. An entry for
which there is no memory at first is delivered once it is pushed with success. -/
theorem run_delivers_past_end :
    let a : BlockArray Nat :=
      { entries := #[7, 8], capacity := 2, increment := 1, cursor := 1, growths := 0 }
    let early : List (ArrayCall Nat) := [.next, .next, .push (fun _ => false) 9]
    let late : List (ArrayCall Nat) := [.peek, .push (fun _ => true) 9, .peek, .length]
    (∀ call ∈ early, call.Streams) ∧ (∀ call ∈ late, call.Streams) ∧
      a.delivered early = [8] ∧ (a.run early).get? 1 = some 8 ∧ (a.run early).cursor = 2 ∧
      (a.run early).next?.1 = none ∧ ((a.run early).run late).next?.1 = some 9 := by
  intro a early late
  have hearly : ∀ call ∈ early, call.Streams := by simp [early, ArrayCall.Streams]
  have hlate : ∀ call ∈ late, call.Streams := by simp [late, ArrayCall.Streams]
  have hread : a.delivered early = [8] := by decide
  have hnothing : (a.run early).delivered late = [] := by decide
  have hadded : ((a.run early).run late).get? 2 = some 9 := by decide
  obtain ⟨hplaces, hcursor, hend, hwaits, -⟩ := run_delivers a early hearly
  rw [hread] at hcursor
  have hplace : (a.run early).get? 1 = some 8 := by
    simpa [hread] using hplaces 0 (by rw [hread]; decide)
  have hnone : (a.run early).next?.1 = none := hend.2 (by rw [hcursor]; decide)
  exact ⟨hearly, hlate, hread, hplace, hcursor, hnone,
    (hwaits hnone).2 late hlate hnothing 9 (by rw [hcursor]; exact hadded)⟩

end BlockArray

end PulseMill
