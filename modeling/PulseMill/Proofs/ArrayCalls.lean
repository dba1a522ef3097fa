import PulseMill.BlockArray
set_option autoImplicit false

namespace PulseMill

variable {α : Type}

/-- A push comes with the memory that can be had at the time. -/
inductive ArrayCall (α : Type) where
  | push (reserve : Reserve) (entry : α)
  | get (i : Nat)
  | peek
  | next
  | seek (i : Nat)
  | rewind
  | clear
  | length
  | remaining

namespace ArrayCall

def Answer : ArrayCall α → Type
  | push .. => Except OutOfMemory Unit
  | get _ | peek | next => Option α
  | seek _ | rewind | clear => Unit
  | length | remaining => Nat

end ArrayCall

abbrev ArrayReply (α : Type) := (call : ArrayCall α) × call.Answer

namespace ArrayReply

/-- What is stored after a call, going by what it returned. -/
def stored (before : List α) : ArrayReply α → List α
  | ⟨.push _ entry, .ok ()⟩ => before ++ [entry]
  | ⟨.clear, _⟩ => []
  | _ => before

def delivered? : ArrayReply α → Option α
  | ⟨.next, found⟩ => found
  | _ => none

end ArrayReply

namespace BlockArray

variable {a b : BlockArray α} {reserve : Reserve} {entry : α}

/-- A push that fails returns no array, and leaves the one it found. -/
def serve (a : BlockArray α) : (call : ArrayCall α) → call.Answer × BlockArray α
  | .push reserve entry =>
    match a.push reserve entry with
    | .ok b => (.ok (), b)
    | .error e => (.error e, a)
  | .get i => (a.get? i, a)
  | .peek => (a.peek?, a)
  | .next => a.next?
  | .seek i => ((), a.seek i)
  | .rewind => ((), a.rewind)
  | .clear => ((), a.clear)
  | .length => (a.length, a)
  | .remaining => (a.remaining, a)

def run (a : BlockArray α) (calls : List (ArrayCall α)) : BlockArray α :=
  calls.foldl (fun a call => (a.serve call).2) a

def replies : BlockArray α → List (ArrayCall α) → List (ArrayReply α)
  | _, [] => []
  | a, call :: calls => ⟨call, (a.serve call).1⟩ :: (a.serve call).2.replies calls

@[simp] theorem run_nil (a : BlockArray α) : a.run [] = a := rfl

@[simp] theorem run_cons (a : BlockArray α) (call : ArrayCall α) (calls : List (ArrayCall α)) :
    a.run (call :: calls) = (a.serve call).2.run calls := rfl

/-- All that a push can do. Only a full array grows. -/
theorem push_eq (a : BlockArray α) (reserve : Reserve) (entry : α) :
    a.push reserve entry =
      if a.length < a.capacity then .ok { a with entries := a.entries.push entry }
      else if maxIndex < a.capacity + a.increment then .error ⟨a.capacity⟩
      else if reserve (a.capacity + a.increment) then
        .ok { a with
          entries := a.entries.push entry
          capacity := a.capacity + a.increment
          growths := a.growths + 1 }
      else .error ⟨a.capacity + a.increment⟩ := by
  by_cases hroom : a.length < a.capacity
  · rw [push_of_lt hroom, if_pos hroom]
  · have hfull : a.length ≥ a.capacity := Nat.not_lt.1 hroom
    rw [push, if_pos hfull, if_neg hroom, grow]
    by_cases hmax : maxIndex < a.capacity + a.increment
    · rw [if_pos hmax, if_pos hmax]
      rfl
    · rw [if_neg hmax, if_neg hmax]
      cases reserve (a.capacity + a.increment) <;> rfl

theorem push_stores (h : a.push reserve entry = .ok b) :
    b.entries = a.entries.push entry ∧ b.cursor = a.cursor ∧ b.increment = a.increment := by
  rw [push_eq] at h
  split at h
  · cases h
    exact ⟨rfl, rfl, rfl⟩
  · split at h
    · cases h
    · split at h
      · cases h
        exact ⟨rfl, rfl, rfl⟩
      · cases h

theorem push_eq_error_iff {e : OutOfMemory} :
    a.push reserve entry = .error e ↔
      a.capacity ≤ a.length ∧
        (maxIndex < a.capacity + a.increment ∧ e = ⟨a.capacity⟩ ∨
          a.capacity + a.increment ≤ maxIndex ∧ reserve (a.capacity + a.increment) = false ∧
            e = ⟨a.capacity + a.increment⟩) := by
  rw [push_eq]
  constructor
  · intro h
    split at h
    case isTrue => cases h
    case isFalse hroom =>
      refine ⟨Nat.not_lt.1 hroom, ?_⟩
      split at h
      case isTrue hmax => exact .inl ⟨hmax, (Except.error.inj h).symm⟩
      case isFalse hmax =>
        split at h
        case isTrue => cases h
        case isFalse hreserve =>
          exact .inr ⟨Nat.not_lt.1 hmax, Bool.eq_false_iff.2 hreserve, (Except.error.inj h).symm⟩
  · rintro ⟨hfull, ⟨hmax, rfl⟩ | ⟨hmax, hreserve, rfl⟩⟩
    · rw [if_neg (Nat.not_lt.2 hfull), if_pos hmax]
    · rw [if_neg (Nat.not_lt.2 hfull), if_neg (Nat.not_lt.2 hmax), hreserve]
      rfl

theorem serve_push_ok (h : a.push reserve entry = .ok b) :
    a.serve (.push reserve entry) = (.ok (), b) := by
  rw [serve, h]

theorem serve_push_error {e : OutOfMemory} (h : a.push reserve entry = .error e) :
    a.serve (.push reserve entry) = (.error e, a) := by
  rw [serve, h]

theorem serve_push_eq_error_iff {e : OutOfMemory} :
    (a.serve (.push reserve entry)).1 = Except.error e ↔ a.push reserve entry = .error e := by
  cases hpush : a.push reserve entry with
  | ok b =>
    rw [serve_push_ok hpush]
    exact iff_of_false nofun nofun
  | error e' =>
    rw [serve_push_error hpush]
    exact ⟨fun h => congrArg _ (Except.error.inj h), fun h => congrArg _ (Except.error.inj h)⟩

theorem length_toList (a : BlockArray α) : a.toList.length = a.length := Array.length_toList

theorem get?_eq (a : BlockArray α) (i : Nat) : a.get? i = a.toList[i]? := by
  rw [get?, toList, Array.getElem?_toList]

theorem toList_serve (a : BlockArray α) (call : ArrayCall α) :
    (a.serve call).2.toList = ArrayReply.stored a.toList ⟨call, (a.serve call).1⟩ := by
  cases call with
  | push reserve entry =>
    rw [serve]
    cases hpush : a.push reserve entry with
    | ok b => exact toList_push hpush
    | error e => rfl
  | next =>
    have hsame : a.next?.2.toList = a.toList := by
      rw [next?]
      cases a.peek? <;> rfl
    exact hsame
  | _ => rfl

/-- The entries are those that were pushed with success since the array was cleared. -/
theorem toList_run (a : BlockArray α) (calls : List (ArrayCall α)) :
    (a.run calls).toList = (a.replies calls).foldl ArrayReply.stored a.toList := by
  induction calls generalizing a with
  | nil => rfl
  | cons call calls ih => rw [run_cons, ih, toList_serve, replies, List.foldl_cons]

end BlockArray

end PulseMill
