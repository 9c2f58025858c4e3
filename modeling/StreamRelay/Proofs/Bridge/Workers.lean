import Mathlib.Data.List.Perm.Basic
import StreamRelay.Workers

/-!
# Sweeps

A sweep only sorts its workers out: those that have finished are joined, and the others are left. It
goes by the places of the workers, so it does not matter by what they are known.
-/

namespace StreamRelay.Workers

variable {α β : Type}

/-- Taking an entry out leaves the other ones. -/
theorem swapRemove_perm {xs : List α} {i : Nat} {y : α} (hy : xs[i]? = some y) :
    (y :: swapRemove xs i).Perm xs := by
  obtain ⟨hi, hget⟩ := List.getElem?_eq_some_iff.mp hy
  obtain ⟨front, last, rfl⟩ : ∃ front last, xs = front ++ [last] :=
    ⟨_, _, (List.dropLast_append_getLast (List.ne_nil_of_length_pos (Nat.zero_lt_of_lt hi))).symm⟩
  have hlast : (front ++ [last]).getLast? = some last := List.getLast?_concat
  rw [swapRemove, hlast]
  dsimp only
  by_cases hfront : i < front.length
  · have hget' : front[i] = y := (List.getElem_append_left hfront).symm.trans hget
    have hsplit : front = front.take i ++ y :: front.drop (i + 1) := by
      rw [← hget', ← List.drop_eq_getElem_cons hfront, List.take_append_drop]
    have hset : front.set i last = front.take i ++ last :: front.drop (i + 1) := by
      rw [List.set_eq_take_append_cons_drop, if_pos hfront]
    rw [List.set_append_left _ _ hfront, List.dropLast_concat, hset]
    calc (y :: (front.take i ++ last :: front.drop (i + 1))).Perm
          (y :: last :: (front.take i ++ front.drop (i + 1))) := List.perm_middle.cons y
      List.Perm _ (last :: y :: (front.take i ++ front.drop (i + 1))) := .swap _ _ _
      List.Perm _ (last :: (front.take i ++ y :: front.drop (i + 1))) :=
        List.perm_middle.symm.cons last
      List.Perm _ (front ++ [last]) := by
        rw [← hsplit]
        exact (List.perm_append_singleton last front).symm
  · obtain rfl : i = front.length := by
      rw [List.length_append, List.length_singleton] at hi
      omega
    obtain rfl : last = y := List.getElem_concat_length rfl hi ▸ hget
    rw [List.set_append_right _ _ (Nat.le_refl _), Nat.sub_self, List.set_cons_zero,
      List.dropLast_concat]
    exact (List.perm_append_singleton last front).symm

theorem mem_swapRemove {xs : List α} {i : Nat} {x y : α} (hy : xs[i]? = some y) (hx : x ∈ xs) :
    x = y ∨ x ∈ swapRemove xs i :=
  List.mem_cons.mp ((swapRemove_perm hy).mem_iff.mpr hx)

theorem swapRemove_map (f : α → β) (xs : List α) (i : Nat) :
    swapRemove (xs.map f) i = (swapRemove xs i).map f := by
  unfold swapRemove
  rw [List.getLast?_map]
  cases xs.getLast? with
  | none => rfl
  | some last =>
    dsimp only [Option.map_some]
    rw [List.map_dropLast, List.map_set]

/-- Every worker is left or joined. -/
theorem sweepFrom_perm (finished : α → Bool) (i : Nat) (xs : List α) :
    ((sweepFrom finished i xs).1 ++ (sweepFrom finished i xs).2).Perm xs := by
  induction i, xs using sweepFrom.induct finished with
  | case1 i xs h hfinished left joined hrest ih =>
    rw [sweepFrom, dif_pos h, if_pos hfinished, hrest]
    rw [hrest] at ih
    have htaken := swapRemove_perm (List.getElem?_eq_getElem h)
    exact (List.perm_middle.trans (ih.cons _)).trans htaken
  | case2 i xs h hfinished ih =>
    rw [sweepFrom, dif_pos h, if_neg hfinished]
    exact ih
  | case3 i xs h =>
    rw [sweepFrom, dif_neg h]
    exact .of_eq (List.append_nil xs)

/-- What stands in front of an entry stays when the entry is taken out. -/
theorem take_swapRemove {xs : List α} {i : Nat} (hi : i < xs.length) :
    (swapRemove xs i).take i = xs.take i := by
  unfold swapRemove
  split
  · rw [List.dropLast_eq_take, List.take_take, List.length_set, Nat.min_eq_left (by omega),
      List.take_set_of_le (Nat.le_refl i)]
  · rename_i hnone
    rw [List.getLast?_eq_none_iff.mp hnone] at hi
    contradiction

/-- Whoever is joined has finished. -/
theorem finished_of_joined {finished : α → Bool} {i : Nat} {xs : List α} {x : α}
    (hx : x ∈ (sweepFrom finished i xs).2) : finished x = true := by
  induction i, xs using sweepFrom.induct finished with
  | case1 i xs h hfinished left joined hrest ih =>
    rw [sweepFrom, dif_pos h, if_pos hfinished, hrest] at hx
    rw [hrest] at ih
    rcases List.mem_cons.mp hx with rfl | hx
    · exact hfinished
    · exact ih hx
  | case2 i xs h hfinished ih =>
    rw [sweepFrom, dif_pos h, if_neg hfinished] at hx
    exact ih hx
  | case3 i xs h =>
    rw [sweepFrom, dif_neg h] at hx
    contradiction

/-- Whoever is left has not finished, if that is so of those that were passed before. -/
theorem not_finished_of_left {finished : α → Bool} {i : Nat} {xs : List α} {x : α}
    (hpassed : ∀ x ∈ xs.take i, finished x = false) (hx : x ∈ (sweepFrom finished i xs).1) :
    finished x = false := by
  induction i, xs using sweepFrom.induct finished with
  | case1 i xs h hfinished left joined hrest ih =>
    rw [sweepFrom, dif_pos h, if_pos hfinished, hrest] at hx
    rw [hrest, take_swapRemove h] at ih
    exact ih hpassed hx
  | case2 i xs h hfinished ih =>
    rw [sweepFrom, dif_pos h, if_neg hfinished] at hx
    refine ih ?_ hx
    rw [List.take_succ_eq_append_getElem h]
    intro y hy
    rcases List.mem_append.mp hy with hy | hy
    · exact hpassed y hy
    · obtain rfl := List.mem_singleton.mp hy
      exact Bool.eq_false_iff.mpr hfinished
  | case3 i xs h =>
    rw [sweepFrom, dif_neg h] at hx
    rw [List.take_of_length_le (Nat.le_of_not_lt h)] at hpassed
    exact hpassed x hx

/-- A sweep joins those that have finished, each once, and leaves the others. -/
theorem sweep_perm_filter (finished : α → Bool) (xs : List α) :
    (sweep finished xs).2.Perm (xs.filter finished) ∧
      (sweep finished xs).1.Perm (xs.filter fun x => !finished x) := by
  have hperm := sweepFrom_perm finished 0 xs
  have hjoined : ∀ x ∈ (sweepFrom finished 0 xs).2, finished x = true :=
    fun _ => finished_of_joined
  have hleft : ∀ x ∈ (sweepFrom finished 0 xs).1, finished x = false :=
    fun _ => not_finished_of_left (by simp)
  unfold sweep
  constructor
  · have hfilter := hperm.filter finished
    rw [List.filter_append, List.filter_eq_self.mpr hjoined,
      List.filter_eq_nil_iff.mpr (by simpa using hleft)] at hfilter
    exact hfilter
  · have hfilter := hperm.filter fun x => !finished x
    rw [List.filter_append, List.filter_eq_self.mpr (by simpa using hleft),
      List.filter_eq_nil_iff.mpr (by simpa using hjoined), List.append_nil] at hfilter
    exact hfilter

/-- Workers known by something else are swept alike. -/
theorem sweepFrom_map (f : α → β) {finished : α → Bool} {finished' : β → Bool} (i : Nat)
    (xs : List α) (hf : ∀ x ∈ xs, finished' (f x) = finished x) :
    sweepFrom finished' i (xs.map f) =
      ((sweepFrom finished i xs).1.map f, (sweepFrom finished i xs).2.map f) := by
  induction i, xs using sweepFrom.induct finished with
  | case1 i xs h hfinished left joined hrest ih =>
    have hlength : i < (xs.map f).length := by
      rwa [List.length_map]
    have hhere : finished' (xs.map f)[i] = true := by
      rw [List.getElem_map, hf _ (List.getElem_mem h), hfinished]
    have hsame : ∀ x ∈ swapRemove xs i, finished' (f x) = finished x := fun x hx =>
      hf x ((swapRemove_perm (List.getElem?_eq_getElem h)).subset (List.mem_cons_of_mem _ hx))
    have hmapped := ih hsame
    rw [sweepFrom, dif_pos hlength, if_pos hhere, swapRemove_map, hmapped, List.getElem_map,
      sweepFrom.eq_def finished i xs, dif_pos h, if_pos hfinished]
    rfl
  | case2 i xs h hfinished ih =>
    have hlength : i < (xs.map f).length := by
      rwa [List.length_map]
    have hhere : ¬ finished' (xs.map f)[i] = true := by
      rw [List.getElem_map, hf _ (List.getElem_mem h)]
      exact hfinished
    rw [sweepFrom, dif_pos hlength, if_neg hhere, ih hf, sweepFrom.eq_def finished i xs,
      dif_pos h, if_neg hfinished]
  | case3 i xs h =>
    have hlength : ¬ i < (xs.map f).length := by
      rwa [List.length_map]
    rw [sweepFrom, dif_neg hlength, sweepFrom, dif_neg h]
    rfl

end StreamRelay.Workers
