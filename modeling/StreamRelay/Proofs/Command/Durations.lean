import StreamRelay.Command.Run
import StreamRelay.Proofs.Text.Parts

/-!
# Durations on the command line

A duration is a number with a unit and blanks around both. Which texts these are is said by a
grammar; they are read as what they measure, and every other text is a mistake in the use of the
program.
-/

namespace StreamRelay

namespace Duration

/-- How a unit is written, and its milliseconds. Without a unit seconds are meant. -/
inductive IsUnit : List Char → Nat → Prop
  | millis : IsUnit ['m', 's'] 1
  | seconds : IsUnit ['s'] 1000
  | omitted : IsUnit [] 1000

/-- A number of units, with nothing around it. There may be a plus sign, and leading zeros. -/
inductive Measures : List Char → Nat → Nat → Prop
  | mk {sign digits unit : List Char} {millis : Nat} (hsign : sign = [] ∨ sign = ['+'])
    (hne : digits ≠ []) (hdigits : ∀ c ∈ digits, c.isDigit = true) (hunit : IsUnit unit millis) :
    Measures (sign ++ (digits ++ unit)) (Nat.ofDigitChars 10 digits 0) millis

inductive Written : List Char → Nat → Nat → Prop
  | mk {front inner back : List Char} {n millis : Nat} (hf : ∀ c ∈ front, Text.isBlank c = true)
    (h : Measures inner n millis) (hb : ∀ c ∈ back, Text.isBlank c = true) :
    Written (front ++ (inner ++ back)) n millis

variable {s number unit : List Char} {n millis : Nat} {d : Duration}

/-- What is taken for the unit is one. -/
theorem exists_unit (s : List Char) :
    ∃ unit, s = (splitUnit s).1 ++ unit ∧ IsUnit unit (splitUnit s).2 := by
  unfold splitUnit
  split
  · rename_i hms
    exact ⟨_, Text.dropEnd?_eq_some_iff.mp hms, .millis⟩
  · rename_i hs
    exact ⟨_, Text.dropEnd?_eq_some_iff.mp hs, .seconds⟩
  · exact ⟨[], (List.append_nil s).symm, .omitted⟩

/-- What ends with a digit is told from the unit behind it. -/
theorem splitUnit_append (hnumber : ∀ c ∈ number.getLast?, c.isDigit = true)
    (hunit : IsUnit unit millis) : splitUnit (number ++ unit) = (number, millis) := by
  have hno : ∀ {letter : Char}, letter.isDigit = false → ∀ front, number ≠ front ++ [letter] := by
    rintro letter hletter front rfl
    rw [hnumber letter List.getLast?_concat] at hletter
    contradiction
  have hnone : ∀ {s ending : List Char}, (∀ front, s ≠ front ++ ending) →
      Text.dropEnd? ending s = none := by
    intro s ending h
    apply Option.eq_none_iff_forall_ne_some.mpr
    intro front hfront
    exact h front (Text.dropEnd?_eq_some_iff.mp hfront)
  cases hunit with
  | millis =>
    have hms : Text.dropEnd? ['m', 's'] (number ++ ['m', 's']) = some number :=
      Text.dropEnd?_eq_some_iff.mpr rfl
    rw [splitUnit, hms]
  | seconds =>
    have hs : Text.dropEnd? ['s'] (number ++ ['s']) = some number :=
      Text.dropEnd?_eq_some_iff.mpr rfl
    have hms : Text.dropEnd? ['m', 's'] (number ++ ['s']) = none := by
      apply hnone
      intro front h
      have hm : number ++ ['s'] = (front ++ ['m']) ++ ['s'] := by
        rw [h, List.append_assoc]
        rfl
      exact hno rfl front (List.append_cancel_right hm)
    rw [splitUnit, hms, hs]
  | omitted =>
    have hs : Text.dropEnd? ['s'] number = none := hnone (hno rfl)
    have hms : Text.dropEnd? ['m', 's'] number = none := by
      apply hnone
      intro front h
      have hletter : 's'.isDigit = false := rfl
      refine hno hletter (front ++ ['m']) ?_
      rw [h, List.append_assoc]
      rfl
    rw [List.append_nil, splitUnit, hms, hs]

theorem isBlank_of_isDigit {c : Char} (h : c.isDigit = true) : Text.isBlank c = false := by
  have hread : ∀ m < 58, (Char.ofNat m).isDigit = true → Text.isBlank (Char.ofNat m) = false := by
    decide
  have hc : c.toNat < 58 := by
    simp only [Char.isDigit, Bool.and_eq_true, decide_eq_true_eq] at h
    exact Nat.lt_succ_of_le (UInt32.le_iff_toNat_le.mp h.2)
  have hblank := hread c.toNat hc
  rw [Char.ofNat_toNat] at hblank
  exact hblank h

/-- There is no blank in a number of units. -/
theorem Measures.isBlank_of_mem (h : Measures s n millis) {c : Char} (hc : c ∈ s) :
    Text.isBlank c = false := by
  cases h with
  | mk hsign _ hdigits hunit =>
    rw [List.mem_append, List.mem_append] at hc
    rcases hc with hc | hc | hc
    · rcases hsign with rfl | rfl
      · contradiction
      · obtain rfl := List.mem_singleton.mp hc
        rfl
    · exact isBlank_of_isDigit (hdigits c hc)
    · have hletter : c = 'm' ∨ c = 's' := by
        cases hunit <;> simp_all
      rcases hletter with rfl | rfl <;> rfl

theorem Measures.isTrimmed (h : Measures s n millis) : Text.IsTrimmed s := by
  constructor
  · intro c hc
    exact h.isBlank_of_mem (List.mem_of_mem_head? hc)
  · intro c hc
    exact h.isBlank_of_mem (List.mem_reverse.mp (List.mem_of_mem_head? hc))

theorem written_iff : Written s n millis ↔ Measures (Text.trim s) n millis := by
  constructor
  · rintro ⟨hf, h, hb⟩
    rwa [Text.trim_append h.isTrimmed hf hb]
  · intro h
    obtain ⟨front, back, hs, hf, hb⟩ := Text.exists_trim s
    rw [hs]
    exact .mk hf h hb

/-- A text is read as the value of its number, in milliseconds. -/
theorem ofTrimmed_eq_ok_iff : ofTrimmed s = .ok d ↔
    ∃ n millis, Measures s n millis ∧ 0 < n ∧ n < Text.wordSize ∧ d = ⟨n * millis⟩ := by
  constructor
  · intro h
    obtain ⟨unit, hs, hunit⟩ := exists_unit s
    unfold ofTrimmed at h
    split at h
    · contradiction
    · dsimp only at h
      split at h
      · contradiction
      · contradiction
      · rename_i n hpos hn
        obtain ⟨sign, digits, hnumber, hsign, hne, hdigits, rfl, hlt⟩ :=
          Text.unsigned?_eq_some_iff.mp hn
        rw [hnumber, List.append_assoc] at hs
        rw [hs]
        refine ⟨_, _, .mk hsign hne hdigits hunit, Nat.pos_of_ne_zero hpos, hlt, ?_⟩
        injection h with h
        exact h.symm
  · rintro ⟨n, millis, h, hpos, hlt, rfl⟩
    cases h with
    | @mk sign digits unit _ hsign hne hdigits hunit =>
      have hlast : ∀ c ∈ (sign ++ digits).getLast?, c.isDigit = true := by
        intro c hc
        rw [List.getLast?_append_of_ne_nil _ hne] at hc
        exact hdigits c (List.mem_of_getLast? hc)
      have hsplit := splitUnit_append hlast hunit
      have hvalue : Text.unsigned? Text.wordSize (sign ++ digits) =
          some (Nat.ofDigitChars 10 digits 0) :=
        Text.unsigned?_eq_some_iff.mpr ⟨sign, digits, rfl, hsign, hne, hdigits, rfl, hlt⟩
      rw [List.append_assoc] at hsplit
      unfold ofTrimmed
      rw [if_neg (by simp [hne]), hsplit]
      dsimp only
      rw [hvalue]
      split
      · contradiction
      · rename_i hzero
        exact absurd (Option.some.inj hzero) (Nat.ne_of_gt hpos)
      · rename_i hn
        rw [Option.some.inj hn]

theorem ofText_eq_ok_iff {text : String} : ofText text = .ok d ↔
    ∃ n millis, Written text.toList n millis ∧ 0 < n ∧ n < Text.wordSize ∧ d = ⟨n * millis⟩ := by
  simp only [ofText, ofTrimmed_eq_ok_iff, written_iff]

theorem IsUnit.le (h : IsUnit unit millis) : millis ≤ 1000 := by
  cases h <;> decide

theorem Written.unit_le (h : Written s n millis) : millis ≤ 1000 := by
  cases h with
  | mk _ h _ =>
    cases h with
    | mk _ _ _ hunit => exact hunit.le

end Duration

namespace Command

open Duration (Written)

variable {text : String} {d : Duration}

theorem duration_eq_ok_iff : duration text = .ok d ↔ ∃ n millis, Written text.toList n millis ∧
    1 ≤ n ∧ n ≤ 2 ^ 64 - 1 ∧ d.millis = n * millis := by
  have hok : duration text = .ok d ↔ Duration.ofText text = .ok d := by
    unfold duration
    cases Duration.ofText text <;> simp [Except.mapError]
  have hword : ∀ n, n < Text.wordSize ↔ n ≤ 2 ^ 64 - 1 := by
    intro n
    change n < 2 ^ 64 ↔ n ≤ 2 ^ 64 - 1
    omega
  have hmillis : ∀ k, d = ⟨k⟩ ↔ d.millis = k := by
    intro k
    rw [Duration.mk.injEq]
  simp only [hok, Duration.ofText_eq_ok_iff, hword, hmillis, Nat.succ_le_iff]

theorem duration_cases (text : String) :
    (∃ d, duration text = .ok d) ∨ ∃ message, duration text = .error ⟨Exit.usage, message⟩ := by
  unfold duration
  cases Duration.ofText text with
  | ok d => exact .inl ⟨d, rfl⟩
  | error fault => exact .inr ⟨fault.message, rfl⟩

/-- A duration is read from exactly the texts that write one of at least one unit and of at most as
many as a word holds, as the milliseconds that it lasts; its seconds fit a word too. Every other text
is refused as a mistake in the use of the program. -/
theorem duration_exact (text : String) :
    (∀ d, duration text = .ok d ↔ ∃ n millis, Written text.toList n millis ∧ 1 ≤ n ∧
      n ≤ 2 ^ 64 - 1 ∧ d.millis = n * millis) ∧
    (∀ d, duration text = .ok d → d.millis / 1000 ≤ 2 ^ 64 - 1) ∧
    ((¬ ∃ n millis, Written text.toList n millis ∧ 1 ≤ n ∧ n ≤ 2 ^ 64 - 1) →
      ∃ message, duration text = .error ⟨Exit.usage, message⟩) := by
  refine ⟨fun d => duration_eq_ok_iff, ?_, ?_⟩
  · intro d hd
    obtain ⟨n, millis, hwritten, _, hn, hmillis⟩ := duration_eq_ok_iff.mp hd
    calc d.millis / 1000 = n * millis / 1000 := by rw [hmillis]
      _ ≤ n * 1000 / 1000 := Nat.div_le_div_right (Nat.mul_le_mul_left n hwritten.unit_le)
      _ = n := Nat.mul_div_cancel n (by decide)
      _ ≤ 2 ^ 64 - 1 := hn
  · intro hnone
    rcases duration_cases text with ⟨d, hd⟩ | hrefused
    · obtain ⟨n, millis, hwritten, hpos, hn, _⟩ := duration_eq_ok_iff.mp hd
      exact absurd ⟨n, millis, hwritten, hpos, hn⟩ hnone
    · exact hrefused

example : duration "\u3000+0250ms\n" = .ok ⟨250⟩ := by decide

example : duration "2 s" = .error ⟨Exit.usage, "invalid duration value: 2 s"⟩ := by decide

end Command

end StreamRelay
