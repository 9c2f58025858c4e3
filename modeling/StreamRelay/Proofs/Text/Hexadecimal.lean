import Mathlib.Data.List.Lex
import StreamRelay.Text.Number

/-!
# Hexadecimal digits

A byte is written as two lower-case digits, and a digit is read in either case as the one that is
written. The digits stand in the order of their values, so written bytes are ordered as texts the
way they are ordered as bytes.
-/

namespace StreamRelay.Text

/-- Only characters of the first half of a byte have a lower-case form there. -/
theorem toNat_lt_of_toLower {c : Char} (h : c.toLower.toNat < 128) : c.toNat < 128 := by
  unfold Char.toLower at h
  split at h
  · rename_i hupper
    have hz : c.toNat ≤ 'Z'.toNat := hupper.2
    exact Nat.lt_of_le_of_lt hz (by decide)
  · exact h

/-- A character that is no lower-case letter is the lower-case form of itself only. -/
theorem eq_of_toLower {c d : Char} (h : c.toLower = d) (hd : ¬ ('a' ≤ d ∧ d ≤ 'z')) : c = d := by
  unfold Char.toLower at h
  split at h
  · rename_i hupper
    obtain ⟨ha, hz⟩ := hupper
    subst h
    rw [UInt32.le_iff_toNat_le] at hz
    simp only [Char.le_def, UInt32.le_iff_toNat_le, ge_iff_le] at ha hd
    simp at ha hz hd
    omega
  · exact h

theorem hexDigit_toNat_lt : ∀ n < 16, (hexDigit n).toNat < 128 := by
  decide

/-- A digit is the one that is written for its value, in either case. -/
theorem hexDigit?_eq_some_iff {c : Char} {n : Nat} :
    hexDigit? c = some n ↔ n < 16 ∧ c.toLower = hexDigit n := by
  have hread : ∀ m < 128, ∀ n ∈ hexDigit? (Char.ofNat m),
      n < 16 ∧ (Char.ofNat m).toLower = hexDigit n := by
    decide
  have hwrite : ∀ n < 16, ∀ m < 128, (Char.ofNat m).toLower = hexDigit n →
      hexDigit? (Char.ofNat m) = some n := by
    decide
  constructor
  · intro h
    have hc : c.toNat < 128 := by
      unfold hexDigit? at h
      split at h
      · rename_i hdigit
        exact Nat.lt_of_le_of_lt (show c.toNat ≤ '9'.toNat from hdigit.2) (by decide)
      · split at h
        · rename_i hlower
          exact Nat.lt_of_le_of_lt (show c.toNat ≤ 'f'.toNat from hlower.2) (by decide)
        · split at h
          · rename_i hupper
            exact Nat.lt_of_le_of_lt (show c.toNat ≤ 'F'.toNat from hupper.2) (by decide)
          · contradiction
    have hvalue := hread c.toNat hc n
    rw [Char.ofNat_toNat] at hvalue
    exact hvalue h
  · rintro ⟨hn, h⟩
    have hc : c.toNat < 128 := toNat_lt_of_toLower (h ▸ hexDigit_toNat_lt n hn)
    have hvalue := hwrite n hn c.toNat hc
    rw [Char.ofNat_toNat] at hvalue
    exact hvalue h

/-- The two halves of a byte. -/
theorem halves_lt (b : UInt8) : b.toNat / 16 < 16 ∧ b.toNat % 16 < 16 := by
  have hb : b.toNat < 256 := b.toNat_lt
  omega

/-- Two digits are read as the byte for which they are written. -/
theorem hexByte_eq_iff {b : UInt8} {c d : Char} :
    [c.toLower, d.toLower] = hexByte b ↔
      hexDigit? c = some (b.toNat / 16) ∧ hexDigit? d = some (b.toNat % 16) := by
  obtain ⟨hhigh, hlow⟩ := halves_lt b
  rw [hexDigit?_eq_some_iff, hexDigit?_eq_some_iff, hexByte]
  simp [hhigh, hlow]

theorem hexDigit_lt_iff : ∀ m < 16, ∀ n < 16, (hexDigit m < hexDigit n ↔ m < n) := by
  decide

theorem hexDigit_inj : ∀ m < 16, ∀ n < 16, (hexDigit m = hexDigit n ↔ m = n) := by
  decide

/-- Of two texts that begin with written bytes, the first bytes decide, then the rest. -/
theorem hexByte_append_lt_iff {a b : UInt8} {s t : List Char} :
    hexByte a ++ s < hexByte b ++ t ↔ a < b ∨ a = b ∧ s < t := by
  obtain ⟨hah, hal⟩ := halves_lt a
  obtain ⟨hbh, hbl⟩ := halves_lt b
  simp only [hexByte, List.cons_append, List.nil_append, List.cons_lt_cons_iff,
    hexDigit_lt_iff _ hah _ hbh, hexDigit_lt_iff _ hal _ hbl, hexDigit_inj _ hah _ hbh,
    hexDigit_inj _ hal _ hbl, UInt8.lt_iff_toNat_lt, ← UInt8.toNat_inj]
  constructor
  · rintro (h | ⟨hh, h | ⟨hl, h⟩⟩)
    · left
      omega
    · left
      omega
    · right
      exact ⟨by omega, h⟩
  · rintro (h | ⟨he, h⟩)
    · by_cases hh : a.toNat / 16 = b.toNat / 16
      · exact .inr ⟨hh, .inl (by omega)⟩
      · exact .inl (by omega)
    · exact .inr ⟨by omega, .inr ⟨by omega, h⟩⟩

/-- Written bytes are ordered as the bytes are. -/
theorem flatMap_hexByte_lt_iff {a b : List UInt8} :
    a.flatMap hexByte < b.flatMap hexByte ↔ a < b := by
  induction a generalizing b with
  | nil =>
    cases b with
    | nil => simp
    | cons y b => simp [hexByte]
  | cons x a ih =>
    cases b with
    | nil => simp
    | cons y b =>
      rw [List.flatMap_cons, List.flatMap_cons, hexByte_append_lt_iff, ih, List.cons_lt_cons_iff]

/-- Of two texts whose fronts are of one length, the fronts decide, then what is behind them. -/
theorem append_lt_append_iff {s t u v : List Char} (h : s.length = t.length) :
    s ++ u < t ++ v ↔ s < t ∨ s = t ∧ u < v := by
  induction s generalizing t with
  | nil =>
    obtain rfl := List.eq_nil_of_length_eq_zero h.symm
    simp
  | cons c s ih =>
    cases t with
    | nil => contradiction
    | cons d t =>
      have hs := ih (Nat.succ.inj h)
      simp only [List.cons_append, List.cons_lt_cons_iff, hs, List.cons.injEq]
      tauto

end StreamRelay.Text
