import Mathlib.Data.Nat.Digits.Defs
import StreamRelay.Net.Address

/-!
# Numerals

What a numeral says to whoever reads it digit by digit: the number for which it was written, and
nothing of what stands behind it. Only the number nothing is written with a leading zero.
-/

namespace StreamRelay.Text

def Stops (p : Char → Bool) (s : List Char) : Prop := ∀ c ∈ s.head?, p c = false

namespace Stops

variable {p : Char → Bool} {run rest : List Char}

@[simp] theorem nil : Stops p [] := by
  intro c hc
  contradiction

@[simp] theorem cons_iff {c : Char} : Stops p (c :: rest) ↔ p c = false := by
  simp [Stops]

theorem takeWhile_eq (h : Stops p rest) : rest.takeWhile p = [] := by
  cases rest with
  | nil => rfl
  | cons c rest => simp [cons_iff.mp h]

theorem dropWhile_eq (h : Stops p rest) : rest.dropWhile p = rest := by
  cases rest with
  | nil => rfl
  | cons c rest => simp [cons_iff.mp h]

theorem takeWhile_append (h : Stops p rest) (hrun : ∀ c ∈ run, p c = true) :
    (run ++ rest).takeWhile p = run := by
  rw [List.takeWhile_append_of_pos hrun, h.takeWhile_eq, List.append_nil]

theorem dropWhile_append (h : Stops p rest) (hrun : ∀ c ∈ run, p c = true) :
    (run ++ rest).dropWhile p = rest := by
  rw [List.dropWhile_append_of_pos hrun, h.dropWhile_eq]

end Stops

structure Reads (base : Nat) (digit? : Char → Option Nat) : Prop where
  one_lt : 1 < base
  digit_eq : ∀ d < base, digit? d.digitChar = some d

theorem reads_decimal : Reads 10 decimalDigit? := ⟨by decide, by decide⟩

theorem reads_hexadecimal : Reads 16 hexDigit? := ⟨by decide, by decide⟩

namespace Reads

variable {base : Nat} {digit? : Char → Option Nat}

/-- A numeral is a digit, or a numeral of something with a digit behind it. -/
theorem induct (h : Reads base digit?) {P : Nat → List Char → Prop}
    (digit : ∀ d < base, P d [d.digitChar])
    (more : ∀ n d, 0 < n → d < base → P n (base.toDigits n) →
      P (base * n + d) (base.toDigits n ++ [d.digitChar])) (n : Nat) : P n (base.toDigits n) := by
  have hone := h.one_lt
  induction n using Nat.strong_induction_on with
  | _ n ih =>
    rw [Nat.toDigits_eq_if hone]
    split
    · rename_i hn
      exact digit n hn
    · rename_i hn
      have hpos : 0 < n / base := Nat.div_pos (by omega) (by omega)
      have hlast : n % base < base := Nat.mod_lt _ (by omega)
      have hstep := more _ _ hpos hlast (ih _ (Nat.div_lt_self (by omega) hone))
      rwa [Nat.div_add_mod] at hstep

theorem isSome_of_mem (h : Reads base digit?) {n : Nat} {c : Char} (hc : c ∈ base.toDigits n) :
    (digit? c).isSome = true := by
  have hdigit : ∀ d < base, (digit? d.digitChar).isSome = true := by
    intro d hd
    rw [h.digit_eq d hd]
    rfl
  induction n using h.induct with
  | digit d hd =>
    obtain rfl := List.mem_singleton.mp hc
    exact hdigit d hd
  | more n d _ hd ih =>
    rcases List.mem_append.mp hc with hc | hc
    · exact ih hc
    · obtain rfl := List.mem_singleton.mp hc
      exact hdigit d hd

/-- Each digit multiplies what stands before it. -/
theorem foldl_toDigits (h : Reads base digit?) (n : Nat) :
    (base.toDigits n).foldl (fun m c => base * m + (digit? c).getD 0) 0 = n := by
  induction n using h.induct with
  | digit d hd => simp [h.digit_eq d hd]
  | more n d _ hd ih =>
    rw [List.foldl_append, ih]
    simp [h.digit_eq d hd]

theorem foldlM_toDigits (h : Reads base digit?) (n : Nat) :
    (base.toDigits n).foldlM (fun m c => (digit? c).map (base * m + ·)) 0 = some n := by
  induction n using h.induct with
  | digit d hd => simp [h.digit_eq d hd]
  | more n d _ hd ih =>
    rw [List.foldlM_append, ih]
    simp [h.digit_eq d hd]

/-- A numeral that starts with a zero is the one for nothing. -/
theorem eq_zero_of_head? (h : Reads base digit?) {n : Nat}
    (hn : (base.toDigits n).head? = some '0') : n = 0 := by
  induction n using h.induct with
  | digit d hd => simpa using hn
  | more n d hpos hd ih =>
    rw [List.head?_append, Option.or_of_isSome (by simp [Nat.toDigits_ne_nil])] at hn
    have := ih hn
    omega

theorem digitRun_toDigits (h : Reads base digit?) (n : Nat) {rest : List Char}
    (hrest : Stops (fun c => (digit? c).isSome) rest) :
    digitRun base digit? (base.toDigits n ++ rest) = (n, base.toDigits n, rest) := by
  have hrun : ∀ c ∈ base.toDigits n, (digit? c).isSome = true := fun c => h.isSome_of_mem
  simp only [digitRun, hrest.takeWhile_append hrun, hrest.dropWhile_append hrun,
    h.foldl_toDigits n]

end Reads

/-- A word is read as it is written. -/
theorem unsigned?_toDigits {bound n : Nat} (hn : n < bound) :
    unsigned? bound (Nat.toDigits 10 n) = some n := by
  have hdigits : digitsValue? (Nat.toDigits 10 n) = some n := reads_decimal.foldlM_toDigits n
  cases hs : Nat.toDigits 10 n with
  | nil => exact absurd hs Nat.toDigits_ne_nil
  | cons c rest =>
    have hmem : c ∈ Nat.toDigits 10 n := hs ▸ List.mem_cons_self
    have hc : (decimalDigit? c).isSome = true := reads_decimal.isSome_of_mem hmem
    have hplus : c ≠ '+' := by
      rintro rfl
      contradiction
    rw [hs] at hdigits
    simp [unsigned?, hplus, hdigits, hn]

theorem decimalDigit?_eq (c : Char) :
    decimalDigit? c = if c.isDigit then some (c.toNat - '0'.toNat) else none := by
  have hdigit : c.isDigit = true ↔ '0' ≤ c ∧ c ≤ '9' := by
    rw [Char.isDigit, Bool.and_eq_true, decide_eq_true_eq, decide_eq_true_eq]
    rfl
  simp only [decimalDigit?, hdigit]

/-- Only digits have a value, whatever was read before them. -/
theorem foldlM_digits_eq_some_iff {s : List Char} {m n : Nat} :
    s.foldlM (fun n c => (decimalDigit? c).map (10 * n + ·)) m = some n ↔
      (∀ c ∈ s, c.isDigit = true) ∧ Nat.ofDigitChars 10 s m = n := by
  induction s generalizing m with
  | nil => simp
  | cons c s ih =>
    rw [List.foldlM_cons, decimalDigit?_eq, List.forall_mem_cons, Nat.ofDigitChars_cons]
    cases hc : c.isDigit with
    | true => simpa using ih
    | false => simp

theorem digitsValue?_eq_some_iff {s : List Char} {n : Nat} :
    digitsValue? s = some n ↔ (∀ c ∈ s, c.isDigit = true) ∧ Nat.ofDigitChars 10 s 0 = n :=
  foldlM_digits_eq_some_iff

/-- A number below a bound is read from digits, with or without a plus sign in front of them. -/
theorem unsigned?_eq_some_iff {bound n : Nat} {s : List Char} :
    unsigned? bound s = some n ↔ ∃ sign digits, s = sign ++ digits ∧ (sign = [] ∨ sign = ['+']) ∧
      digits ≠ [] ∧ (∀ c ∈ digits, c.isDigit = true) ∧ Nat.ofDigitChars 10 digits 0 = n ∧
      n < bound := by
  have hread : ∀ digits, (if digits.isEmpty then none
      else (digitsValue? digits).filter (· < bound)) = some n ↔
      digits ≠ [] ∧ (∀ c ∈ digits, c.isDigit = true) ∧ Nat.ofDigitChars 10 digits 0 = n ∧
        n < bound := by
    intro digits
    cases digits with
    | nil => simp
    | cons c digits =>
      rw [List.isEmpty_cons, if_neg Bool.false_ne_true, Option.filter_eq_some_iff,
        digitsValue?_eq_some_iff]
      simp [and_assoc]
  constructor
  · intro h
    unfold unsigned? at h
    split at h
    · rename_i rest
      exact ⟨['+'], rest, rfl, .inr rfl, (hread rest).mp h⟩
    · exact ⟨[], s, rfl, .inl rfl, (hread s).mp h⟩
  · rintro ⟨sign, digits, rfl, rfl | rfl, h⟩
    · obtain ⟨c, rest, rfl⟩ := List.exists_cons_of_ne_nil h.1
      have hplus : c ≠ '+' := by
        rintro rfl
        exact absurd (h.2.1 '+' List.mem_cons_self) (by decide)
      unfold unsigned?
      split
      · rename_i heq
        cases heq
        contradiction
      · exact (hread _).mpr h
    · exact (hread digits).mpr h

end StreamRelay.Text
