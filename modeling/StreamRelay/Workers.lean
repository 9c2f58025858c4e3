/-!
# Workers

Threads that were started and are to be joined when they have finished. A sweep looks at the places
of the list in turn; a finished entry is taken out and joined, and the last entry moves to its
place, which is then looked at again.
-/

namespace StreamRelay.Workers

variable {α : Type}

/-- Take out the entry at a place. The last entry moves there. -/
def swapRemove (xs : List α) (i : Nat) : List α :=
  match xs.getLast? with
  | some last => (xs.set i last).dropLast
  | none => []

theorem length_swapRemove (xs : List α) (i : Nat) :
    (swapRemove xs i).length = xs.length - 1 := by
  unfold swapRemove
  split
  · simp
  · rename_i h
    simp [List.getLast?_eq_none_iff.1 h]

/-- Sweep the places from `i` on. Gives what is left, and what was joined in order. -/
def sweepFrom (finished : α → Bool) (i : Nat) (xs : List α) : List α × List α :=
  if h : i < xs.length then
    if finished xs[i] then
      let (left, joined) := sweepFrom finished i (swapRemove xs i)
      (left, xs[i] :: joined)
    else sweepFrom finished (i + 1) xs
  else (xs, [])
termination_by xs.length - i
decreasing_by
  · rw [length_swapRemove]
    omega
  · omega

def sweep (finished : α → Bool) (xs : List α) : List α × List α := sweepFrom finished 0 xs

end StreamRelay.Workers
