import Mathlib.Data.Finset.Card
import Mathlib.Data.List.Sort
import StreamRelay.Proofs.Region.Order

/-!
# Ids in ascending order

Any list of ids, put in ascending order with each id once, is the one ascending list with these ids.
So it does not matter in which order the ids come and how often.
-/

namespace StreamRelay.StreamId

variable {ids ids' : List StreamId}

def Ascends (ids : List StreamId) : Prop := ids.Pairwise fun a b => a.bytes < b.bytes

theorem Ascends.nodup (h : Ascends ids) : ids.Nodup := by
  refine List.Pairwise.imp ?_ h
  rintro a b hab rfl
  exact List.lt_irrefl a.bytes hab

/-- Ascending lists with the same ids are the same. -/
theorem Ascends.eq_of_mem_iff (h : Ascends ids) (h' : Ascends ids')
    (hmem : ∀ id, id ∈ ids ↔ id ∈ ids') : ids = ids' := by
  have hperm : ids.Perm ids' := (List.perm_ext_iff_of_nodup h.nodup h'.nodup).mpr hmem
  refine hperm.eq_of_pairwise ?_ h h'
  intro a b _ _ hab hba
  exact absurd (List.lt_trans hab hba) (List.lt_irrefl a.bytes)

def unrepeated (ids : List StreamId) : List StreamId :=
  ids.foldr (fun id rest => if rest.head? = some id then rest else id :: rest) []

theorem unrepeated_cons (x : StreamId) (ids : List StreamId) :
    unrepeated (x :: ids) =
      if (unrepeated ids).head? = some x then unrepeated ids else x :: unrepeated ids := rfl

theorem mem_unrepeated {id : StreamId} : id ∈ unrepeated ids ↔ id ∈ ids := by
  induction ids with
  | nil => rfl
  | cons x ids ih =>
    rw [unrepeated_cons]
    split
    · rename_i hhead
      rw [ih, List.mem_cons]
      constructor
      · exact .inr
      · rintro (rfl | h)
        · exact ih.mp (List.mem_of_mem_head? hhead)
        · exact h
    · rw [List.mem_cons, List.mem_cons, ih]

/-- Repetitions stand side by side in an ordered list. -/
theorem ascends_unrepeated (h : ids.Pairwise fun a b => a.le b = true) :
    Ascends (unrepeated ids) := by
  induction ids with
  | nil => exact .nil
  | cons x ids ih =>
    obtain ⟨hx, hids⟩ := List.pairwise_cons.mp h
    have hrest := ih hids
    rw [unrepeated_cons]
    split
    · exact hrest
    · rename_i hhead
      refine List.pairwise_cons.mpr ⟨?_, hrest⟩
      intro y hy
      have hle := le_iff.mp (hx y (mem_unrepeated.mp hy))
      refine Std.lt_of_le_of_ne hle ?_
      -- an id equal to `x` would be the first one, since `x` is before all of them
      intro hbytes
      obtain rfl := eq_of_bytes hbytes
      cases hkept : unrepeated ids with
      | nil =>
        rw [hkept] at hy
        contradiction
      | cons z rest =>
        rw [hkept] at hy hhead hrest
        have hz : x.le z = true := hx z (mem_unrepeated.mp (hkept ▸ List.mem_cons_self))
        rcases List.mem_cons.mp hy with rfl | hy
        · exact hhead rfl
        · have hlt := List.rel_of_pairwise_cons hrest hy
          exact absurd hlt (le_iff.mp hz)

theorem mem_ascending {id : StreamId} : id ∈ ascending ids ↔ id ∈ ids :=
  mem_unrepeated.trans (List.mergeSort_perm ids le).mem_iff

theorem ascends_ascending (ids : List StreamId) : Ascends (ascending ids) := by
  refine ascends_unrepeated (List.pairwise_mergeSort ?_ ?_ ids)
  · intro a b c
    exact le_trans
  · intro a b
    by_cases h : a.le b = true
    · rw [h, Bool.true_or]
    · rw [le_of_not_le h, Bool.or_true]

/-- The ids in ascending order depend on nothing but which ids there are. -/
theorem ascending_congr (h : ∀ id, id ∈ ids ↔ id ∈ ids') : ascending ids = ascending ids' := by
  refine (ascends_ascending ids).eq_of_mem_iff (ascends_ascending ids') ?_
  intro id
  rw [mem_ascending, mem_ascending]
  exact h id

theorem length_ascending (ids : List StreamId) : (ascending ids).length = ids.toFinset.card := by
  rw [← List.toFinset_card_of_nodup (ascends_ascending ids).nodup]
  congr 1
  ext id
  rw [List.mem_toFinset, List.mem_toFinset, mem_ascending]

end StreamRelay.StreamId
