import Mathlib.Data.List.Basic

/-!
# Streams that arrive in pieces

A stream is the list of the pieces in which it arrives. A read takes at most one piece, and what it has no room for is
read next.
-/

namespace TickPlatform.Streams

variable {α : Type}

/-- Read until there are `size` elements or the stream ends: what was read, and what is left. -/
def readFull (size : Nat) : List (List α) → List α × List (List α)
  | [] => ([], [])
  | piece :: pieces =>
    if size ≤ piece.length then (piece.take size, piece.drop size :: pieces)
    else
      let next := readFull (size - piece.length) pieces
      (piece ++ next.1, next.2)

@[simp] theorem readFull_fst (size : Nat) (pieces : List (List α)) :
    (readFull size pieces).1 = pieces.flatten.take size := by
  induction pieces generalizing size with
  | nil => simp [readFull]
  | cons piece pieces ih =>
    rw [readFull, List.flatten_cons]
    split
    next h => rw [List.take_append_of_le_length h]
    next h =>
      rw [List.take_append, List.take_of_length_le (Nat.le_of_not_le h), ← ih]

@[simp] theorem readFull_snd (size : Nat) (pieces : List (List α)) :
    (readFull size pieces).2.flatten = pieces.flatten.drop size := by
  induction pieces generalizing size with
  | nil => simp [readFull]
  | cons piece pieces ih =>
    rw [readFull, List.flatten_cons]
    split
    next h => rw [List.flatten_cons, List.drop_append_of_le_length h]
    next h => rw [List.drop_append, List.drop_eq_nil_of_le (Nat.le_of_not_le h), List.nil_append, ih]

end TickPlatform.Streams
