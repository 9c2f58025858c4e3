import Mathlib.Data.List.Basic
import Mathlib.Data.List.TakeWhile
import StreamRelay.Proofs.Text.Numerals
import StreamRelay.Text.Blank
import StreamRelay.Text.Split

/-!
# Parts of texts

What is left of a text without the blanks at its ends, what stands before and behind a separator, and
what stands before an ending: each is the one way to write the text as such parts.
-/

namespace StreamRelay.Text

variable {s inner front back left right : List Char} {p : Char → Bool} {separator : Char}

theorem Stops.dropWhile (p : Char → Bool) (s : List Char) : Stops p (s.dropWhile p) := by
  intro c hc
  have h := List.head?_dropWhile_not p s
  rw [Option.mem_def.mp hc] at h
  simpa using h

theorem Stops.append (h : Stops p s) (hs : s ≠ []) (rest : List Char) : Stops p (s ++ rest) := by
  intro c hc
  rw [List.head?_append_of_ne_nil _ hs] at hc
  exact h c hc

theorem Stops.of_append (h : Stops p (s ++ back)) : Stops p s := by
  intro c hc
  refine h c ?_
  rw [List.head?_append, Option.mem_def.mp hc]
  rfl

structure IsTrimmed (s : List Char) : Prop where
  front : Stops isBlank s
  back : Stops isBlank s.reverse

theorem trim_blank (h : ∀ c ∈ s, isBlank c = true) : trim s = [] := by
  have hs : s.dropWhile isBlank = [] := List.dropWhile_eq_nil_iff.mpr h
  rw [trim, hs]
  rfl

theorem trim_append (h : IsTrimmed inner) (hf : ∀ c ∈ front, isBlank c = true)
    (hb : ∀ c ∈ back, isBlank c = true) : trim (front ++ (inner ++ back)) = inner := by
  by_cases hinner : inner = []
  · rw [hinner]
    apply trim_blank
    simpa [or_imp, forall_and] using ⟨hf, hb⟩
  · have hstart := (h.front.append hinner back).dropWhile_append hf
    have hblank : ∀ c ∈ back.reverse, isBlank c = true := by
      intro c hc
      exact hb c (List.mem_reverse.mp hc)
    have hend := h.back.dropWhile_append hblank
    rw [trim, hstart, List.reverse_append, hend, List.reverse_reverse]

theorem isTrimmed_trim (s : List Char) : IsTrimmed (trim s) := by
  have hback : Stops isBlank (trim s).reverse := by
    rw [trim, List.reverse_reverse]
    exact .dropWhile _ _
  refine ⟨?_, hback⟩
  -- what trimming keeps is a front of what is behind the blanks in front
  have hparts : trim s ++ ((s.dropWhile isBlank).reverse.takeWhile isBlank).reverse =
      s.dropWhile isBlank := by
    rw [trim, ← List.reverse_append, List.takeWhile_append_dropWhile, List.reverse_reverse]
  exact Stops.of_append (hparts ▸ Stops.dropWhile isBlank s)

/-- A text is what trimming leaves, with blanks around it. -/
theorem exists_trim (s : List Char) : ∃ front back, s = front ++ (trim s ++ back) ∧
    (∀ c ∈ front, isBlank c = true) ∧ ∀ c ∈ back, isBlank c = true := by
  refine ⟨s.takeWhile isBlank, ((s.dropWhile isBlank).reverse.takeWhile isBlank).reverse,
    ?_, ?_, ?_⟩
  · rw [trim, ← List.reverse_append, List.takeWhile_append_dropWhile, List.reverse_reverse,
      List.takeWhile_append_dropWhile]
  · intro c hc
    exact List.all_eq_true.mp List.all_takeWhile c hc
  · intro c hc
    exact List.all_eq_true.mp List.all_takeWhile c (List.mem_reverse.mp hc)

/-- Trimming leaves the one part with blanks around it that has none at its ends. -/
theorem trim_eq_iff : trim s = inner ↔
    IsTrimmed inner ∧ ∃ front back, s = front ++ (inner ++ back) ∧
      (∀ c ∈ front, isBlank c = true) ∧ ∀ c ∈ back, isBlank c = true := by
  constructor
  · rintro rfl
    exact ⟨isTrimmed_trim s, exists_trim s⟩
  · rintro ⟨hinner, front, back, rfl, hf, hb⟩
    exact trim_append hinner hf hb

/-- A text is cut at a separator with none in front of it. -/
theorem splitFirst?_eq_some_iff :
    splitFirst? separator s = some (left, right) ↔
      s = left ++ separator :: right ∧ separator ∉ left := by
  induction s generalizing left with
  | nil => simp [splitFirst?]
  | cons c s ih =>
    rw [splitFirst?]
    by_cases hc : c = separator
    · rw [if_pos hc]
      constructor
      · intro h
        cases h
        exact ⟨by rw [hc]; rfl, List.not_mem_nil⟩
      · rintro ⟨h, hleft⟩
        cases left with
        | nil =>
          cases h
          rfl
        | cons d left =>
          cases h
          exact absurd hc (Ne.symm fun he => hleft (he ▸ List.mem_cons_self))
    · rw [if_neg hc, Option.map_eq_some_iff]
      constructor
      · rintro ⟨⟨left', right'⟩, h, he⟩
        cases he
        obtain ⟨rfl, hleft⟩ := ih.mp h
        refine ⟨rfl, ?_⟩
        rw [List.mem_cons, not_or]
        exact ⟨Ne.symm hc, hleft⟩
      · rintro ⟨h, hleft⟩
        cases left with
        | nil =>
          cases h
          contradiction
        | cons d left =>
          cases h
          rw [List.mem_cons, not_or] at hleft
          exact ⟨_, ih.mpr ⟨rfl, hleft.2⟩, rfl⟩

/-- An ending is dropped where the text has it. -/
theorem dropEnd?_eq_some_iff {ending : List Char} :
    dropEnd? ending s = some front ↔ s = front ++ ending := by
  unfold dropEnd?
  split
  · rename_i h
    obtain ⟨rest, rfl⟩ := List.isSuffixOf_iff_suffix.mp h
    rw [List.length_append, Nat.add_sub_cancel, List.take_left, Option.some_inj,
      List.append_left_inj]
  · rename_i h
    constructor
    · intro h
      contradiction
    · rintro rfl
      exact absurd (List.isSuffixOf_iff_suffix.mpr (List.suffix_append front ending)) h

end StreamRelay.Text
