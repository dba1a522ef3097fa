import PulseMill.Block
set_option autoImplicit false

namespace PulseMill

structure OutOfMemory where
  entries : Nat
  deriving DecidableEq, Repr

def OutOfMemory.message (e : OutOfMemory) : String :=
  s!"could not grow the block array past {e.entries} entries"

class EntrySize (α : Type) where
  bytes : Nat

instance : EntrySize UInt32 := ⟨4⟩
instance : EntrySize Block := ⟨64⟩

/-- Whether memory for so many entries in all can be had. -/
abbrev Reserve := Nat → Bool

def Reserve.upTo (α : Type) [EntrySize α] (bytes : Nat) : Reserve :=
  fun entries => entries * EntrySize.bytes α ≤ bytes

/-- More than any machine grants in one piece. -/
def memoryBytes : Nat := 1 <<< 60 - 1

def Reserve.machine (α : Type) [EntrySize α] : Reserve := Reserve.upTo α memoryBytes

def maxIndex : Nat := UInt64.size - 1

structure BlockArray (α : Type) where
  entries : Array α
  capacity : Nat
  increment : Nat
  cursor : Nat
  growths : Nat
  deriving DecidableEq, Repr

namespace BlockArray

variable {α : Type}

def withCapacity (reserve : Reserve) (initial increment : Nat) :
    Except OutOfMemory (BlockArray α) :=
  if reserve initial then
    .ok { entries := #[], capacity := initial, increment := max increment 1
          cursor := 0, growths := 0 }
  else .error ⟨initial⟩

def empty : BlockArray α :=
  { entries := #[], capacity := 16, increment := 16, cursor := 0, growths := 0 }

theorem withCapacity_default {reserve : Reserve} (h : reserve 16) :
    withCapacity reserve 16 16 = .ok (empty : BlockArray α) := by
  simp [withCapacity, h, empty]

def length (a : BlockArray α) : Nat := a.entries.size

def toList (a : BlockArray α) : List α := a.entries.toList

def get? (a : BlockArray α) (i : Nat) : Option α := a.entries[i]?

def grow (reserve : Reserve) (a : BlockArray α) : Except OutOfMemory (BlockArray α) :=
  let capacity := a.capacity + a.increment
  if capacity > maxIndex then .error ⟨a.capacity⟩
  else if reserve capacity then .ok { a with capacity, growths := a.growths + 1 }
  else .error ⟨capacity⟩

def push (reserve : Reserve) (a : BlockArray α) (entry : α) :
    Except OutOfMemory (BlockArray α) := do
  let a ← if a.length ≥ a.capacity then a.grow reserve else pure a
  return { a with entries := a.entries.push entry }

def seek (a : BlockArray α) (i : Nat) : BlockArray α := { a with cursor := i }

def rewind (a : BlockArray α) : BlockArray α := a.seek 0

def remaining (a : BlockArray α) : Nat := a.length - a.cursor

def rest (a : BlockArray α) : List α := a.toList.drop a.cursor

def peek? (a : BlockArray α) : Option α := a.get? a.cursor

/-- The entry under the cursor, which moves past it. At the end it stays. -/
def next? (a : BlockArray α) : Option α × BlockArray α :=
  match a.peek? with
  | some entry => (some entry, { a with cursor := a.cursor + 1 })
  | none => (none, a)

def clear (a : BlockArray α) : BlockArray α := { a with entries := #[], cursor := 0 }

def extend (reserve : Reserve) (a : BlockArray α) : List α → Except OutOfMemory (BlockArray α)
  | [] => .ok a
  | entry :: more => do (← a.push reserve entry).extend reserve more

theorem length_rest (a : BlockArray α) : a.rest.length = a.remaining := by
  simp [rest, remaining, toList, length]

theorem peek?_eq_head? (a : BlockArray α) : a.peek? = a.rest.head? := by
  simp [peek?, get?, rest, toList, List.head?_drop]

theorem push_of_lt {reserve : Reserve} {a : BlockArray α} {entry : α} (h : a.length < a.capacity) :
    a.push reserve entry = .ok { a with entries := a.entries.push entry } := by
  have h : ¬ a.length ≥ a.capacity := by omega
  simp [push, h, bind, Except.bind, pure, Except.pure]

theorem toList_push {reserve : Reserve} {a b : BlockArray α} {entry : α}
    (h : a.push reserve entry = .ok b) : b.toList = a.toList ++ [entry] := by
  by_cases hc : a.length ≥ a.capacity
  · simp only [push, hc, if_true, grow] at h
    split at h
    · cases h
    · split at h
      · cases h; simp [toList]
      · cases h
  · rw [push_of_lt (by omega)] at h
    cases h; simp [toList]

end BlockArray

end PulseMill
