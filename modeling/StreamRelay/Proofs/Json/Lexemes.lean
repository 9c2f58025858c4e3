import StreamRelay.Json.Record
import StreamRelay.Json.Value
import StreamRelay.Proofs.Json.Grammar
import StreamRelay.Proofs.Text.Numerals

/-!
# Reading lexemes

The readers of blanks, numbers and strings take all that looks as the grammar has it, and nothing of
what stands behind. A number goes as far as it can, so what stands behind it must be no part of a
number, as it is behind every value. Words and strings are read as they are written.
-/

namespace StreamRelay.Json
open Text (Stops)

variable {s t rest : List Char} {c : Char}

@[simp] theorem blank_nil : Blank [] := by
  intro c hc
  contradiction

def isEnd (c : Char) : Bool := isSpace c || c = ',' || c = ']' || c = '}'

def Ends (s : List Char) : Prop := ∀ c ∈ s.head?, isEnd c = true

@[simp] theorem ends_cons_iff : Ends (c :: s) ↔ isEnd c = true := by
  simp [Ends]

theorem Ends.blank_append (h : Ends rest) (hs : Blank s) : Ends (s ++ rest) := by
  cases s with
  | nil => exact h
  | cons c s => simp [isEnd, hs c]

theorem isEnd_eq (h : isEnd c = true) :
    c = ' ' ∨ c = '\n' ∨ c = '\t' ∨ c = '\r' ∨ c = ',' ∨ c = ']' ∨ c = '}' := by
  simpa [isEnd, isSpace, or_assoc] using h

/-- No part of a number ends a value. -/
theorem Ends.stops {p : Char → Bool} (h : Ends s)
    (hp : ([' ', '\n', '\t', '\r', ',', ']', '}'].any p) = false) : Stops p s := by
  intro c hc
  have hmem : c ∈ [' ', '\n', '\t', '\r', ',', ']', '}'] := by simpa using isEnd_eq (h c hc)
  exact Bool.eq_false_iff.mpr (List.any_eq_false.mp hp c hmem)

theorem Ends.stops_digit (h : Ends s) : Stops isDigit s := h.stops rfl

theorem isSpace_of_isDigit (h : isDigit c = true) : isSpace c = false := by
  cases hc : isSpace c with
  | false => rfl
  | true =>
    have hend : isEnd c = true := by simp [isEnd, hc]
    rcases isEnd_eq hend with rfl | rfl | rfl | rfl | rfl | rfl | rfl <;> contradiction

theorem skipSpace_append (hs : Blank s) (rest : List Char) :
    skipSpace (s ++ rest) = skipSpace rest :=
  List.dropWhile_append_of_pos hs

theorem skipSpace_cons (hc : isSpace c = false) (s : List Char) : skipSpace (c :: s) = c :: s := by
  simp [skipSpace, hc]

/-- Blanks are skipped up to a mark. -/
theorem skipSpace_mark (hs : Blank s) (hc : isSpace c = false) (rest : List Char) :
    skipSpace (s ++ c :: rest) = c :: rest := by
  rw [skipSpace_append hs, skipSpace_cons hc]

theorem keyword_append (expected rest : List Char) :
    keyword expected (expected ++ rest) = .ok ((), rest) := by
  induction expected with
  | nil => rfl
  | cons c expected ih => simp [keyword, ih]

theorem IsDigits.exists_cons (h : IsDigits s) : ∃ c t, s = c :: t ∧ isDigit c = true := by
  cases s with
  | nil => exact absurd rfl h.ne_nil
  | cons c t => exact ⟨c, t, rfl, h.all c List.mem_cons_self⟩

theorem digits_append (atEnd : Fault) (hs : IsDigits s) (hrest : Stops isDigit rest) :
    digits atEnd (s ++ rest) = .ok (s, rest) := by
  obtain ⟨c, t, rfl, hc⟩ := hs.exists_cons
  have ht : ∀ c ∈ t, isDigit c = true := fun c h => hs.all c (List.mem_cons_of_mem _ h)
  simp only [List.cons_append, digits, hc, if_true, hrest.takeWhile_append ht,
    hrest.dropWhile_append ht]

theorem exponentPart_of_stops (atEnd : Fault) (h : Stops (fun c => c = 'e' || c = 'E') s) :
    exponentPart atEnd s = .ok (none, s) := by
  unfold exponentPart
  split
  · simp at h
  · simp at h
  · rfl

theorem fractionPart_of_stops (atEnd : Fault) (h : Stops (· = '.') s) :
    fractionPart atEnd s = .ok ([], s) := by
  unfold fractionPart
  split
  · simp at h
  · rfl

theorem exponentPart_append (atEnd : Fault) (hs : IsExponent s) (hrest : Ends rest) :
    ∃ x, exponentPart atEnd (s ++ rest) = .ok (x, rest) := by
  cases hs with
  | none => exact ⟨_, exponentPart_of_stops atEnd (hrest.stops rfl)⟩
  | @some e sign ds he hsign hds =>
    have hread := digits_append atEnd hds hrest.stops_digit
    obtain ⟨c, t, rfl, hc⟩ := hds.exists_cons
    have hplus : c ≠ '+' := by
      rintro rfl
      contradiction
    have hminus : c ≠ '-' := by
      rintro rfl
      contradiction
    rcases he with rfl | rfl <;> rcases hsign with rfl | rfl | rfl <;>
      simp_all [exponentPart, Except.map]

theorem fractionPart_append (atEnd : Fault) (hs : IsFraction s) (hdigit : Stops isDigit rest)
    (hdot : Stops (· = '.') rest) : ∃ x, fractionPart atEnd (s ++ rest) = .ok (x, rest) := by
  cases hs with
  | none => exact ⟨_, fractionPart_of_stops atEnd hdot⟩
  | some hds => exact ⟨_, digits_append atEnd hds hdigit⟩

theorem IsExponent.stops {p : Char → Bool} (hs : IsExponent s) (he : p 'e' = false)
    (hE : p 'E' = false) (hrest : Stops p rest) : Stops p (s ++ rest) := by
  cases hs with
  | none => exact hrest
  | some h _ _ =>
    rcases h with rfl | rfl
    · exact Stops.cons_iff.mpr he
    · exact Stops.cons_iff.mpr hE

theorem IsFraction.stops (hs : IsFraction s) (hrest : Stops isDigit rest) :
    Stops isDigit (s ++ rest) := by
  cases hs with
  | none => exact hrest
  | some _ => exact Stops.cons_iff.mpr rfl

/-- A number behind its sign is taken as a whole. -/
theorem numeral_append (atEnd : Fault) (hs : IsNumeral s) (hrest : Ends rest) :
    ∃ x, numeral atEnd (s ++ rest) = .ok (x, rest) := by
  obtain @⟨whole, _, _, hw, hzero, hf, he⟩ := hs
  have hdigit := he.stops rfl rfl hrest.stops_digit
  have hdot := he.stops rfl rfl (hrest.stops (p := (· = '.')) rfl)
  have hwhole := digits_append atEnd hw (hf.stops hdigit)
  obtain ⟨fraction, hfraction⟩ := fractionPart_append atEnd hf hdigit hdot
  obtain ⟨exponent, hexponent⟩ := exponentPart_append atEnd he hrest
  simp only [List.append_assoc]
  refine ⟨⟨whole, fraction, exponent⟩, ?_⟩
  simp only [numeral, hwhole, bind, Except.bind, hfraction, hexponent, pure, Except.pure]
  rw [if_neg]
  rintro ⟨hhead, hlength⟩
  exact hlength (hzero hhead)

theorem isDigits_toDigits (n : Nat) : IsDigits (Nat.toDigits 10 n) :=
  ⟨Nat.toDigits_ne_nil, fun _ => Text.reads_decimal.isSome_of_mem⟩

theorem numeral_toDigits (atEnd : Fault) (n : Nat) (hrest : Ends rest) :
    numeral atEnd (Nat.toDigits 10 n ++ rest) = .ok ({ whole := Nat.toDigits 10 n }, rest) := by
  have hwhole := digits_append atEnd (isDigits_toDigits n) hrest.stops_digit
  have hfraction := fractionPart_of_stops atEnd (hrest.stops rfl)
  have hexponent := exponentPart_of_stops atEnd (hrest.stops rfl)
  simp only [numeral, hwhole, bind, Except.bind, hfraction, hexponent, pure, Except.pure]
  rw [if_neg]
  rintro ⟨hhead, hlength⟩
  rw [Text.reads_decimal.eq_zero_of_head? hhead] at hlength
  exact hlength rfl

theorem word?_toDigits {n : Nat} (hn : n < Text.wordSize) :
    Numeral.word? { whole := Nat.toDigits 10 n } = some n := by
  simp [Numeral.word?, Text.unsigned?_toDigits hn]

theorem finiteNumeral_toDigits {n : Nat} (hn : n < Text.wordSize) (hrest : Ends rest) :
    finiteNumeral (Nat.toDigits 10 n ++ rest) = .ok ({ whole := Nat.toDigits 10 n }, rest) := by
  simp [finiteNumeral, numeral_toDigits .ended n hrest, word?_toDigits hn, bind, Except.bind, pure,
    Except.pure]

/-- A word is read as it is written. -/
theorem word_toDigits {n : Nat} (hn : n < Text.wordSize) (hs : Blank s) (hrest : Ends rest) :
    word (s ++ (Nat.toDigits 10 n ++ rest)) = .ok (n, rest) := by
  have hnumeral := finiteNumeral_toDigits hn hrest
  have hword := word?_toDigits hn
  obtain ⟨c, t, hdigits, hc⟩ := (isDigits_toDigits n).exists_cons
  rw [hdigits] at hnumeral hword ⊢
  unfold word
  rw [skipSpace_append hs, List.cons_append, skipSpace_cons (isSpace_of_isDigit hc)]
  rw [List.cons_append] at hnumeral
  simp [hc, hnumeral, hword, bind, Except.bind]

theorem hexUnit_append {n : Nat} (hs : IsUnit s n) (rest : List Char) :
    hexUnit (s ++ rest) = .ok (n, rest) := by
  obtain ⟨ha, hb, hc, hd⟩ := hs
  simp [hexUnit, ha, hb, hc, hd]

theorem ne_of_shortEscape? {e : Char} (h : (shortEscape? e).isSome = true) : e ≠ 'u' := by
  rintro rfl
  contradiction

theorem stringRest_plain (hc : IsPlain c) (s : List Char) :
    stringRest (c :: s) = (stringRest s).map fun p => (c :: p.1, p.2) := by
  rw [stringRest]
  · rw [if_neg (by simp [hc.not_control])]
  · exact hc.ne_quote
  · exact hc.ne_backslash

theorem stringRest_escape (h : escape s = .ok (c, rest)) :
    stringRest ('\\' :: s) = (stringRest rest).map fun p => (c :: p.1, p.2) := by
  rw [stringRest]
  split
  · rename_i heq
    rw [h] at heq
    contradiction
  · rename_i heq
    rw [h] at heq
    cases heq
    rfl

/-- A string is read as what it spells. -/
theorem Spells.stringRest_append (h : Spells s t) (rest : List Char) :
    stringRest (s ++ '"' :: rest) = .ok (t, rest) := by
  induction h with
  | nil => rw [List.nil_append, stringRest]
  | plain hc _ ih =>
    rw [List.cons_append, stringRest_plain hc, ih]
    rfl
  | @short e c s text he _ ih =>
    have hescape : escape (e :: (s ++ '"' :: rest)) = .ok (c, s ++ '"' :: rest) := by
      simp [escape, ne_of_shortEscape? (Option.isSome_of_eq_some he), he]
    rw [List.cons_append, List.cons_append, stringRest_escape hescape, ih]
    rfl
  | @unit u s text n hu hl ht _ ih =>
    have hescape : escape ('u' :: (u ++ (s ++ '"' :: rest))) =
        .ok (Char.ofNat n, s ++ '"' :: rest) := by
      simp [escape, unicodeEscape, hexUnit_append hu, hl, ht]
    rw [List.cons_append, List.cons_append, List.append_assoc, stringRest_escape hescape, ih]
    rfl
  | @pair u v s text n m hu hl hv ht _ ih =>
    have hleading : isTrailing n = false := by
      simp only [isLeading, isTrailing, Bool.and_eq_true, decide_eq_true_eq] at hl ⊢
      simp
      omega
    have hescape : escape ('u' :: (u ++ '\\' :: 'u' :: (v ++ (s ++ '"' :: rest)))) =
        .ok (Char.ofNat (0x10000 + (n - 0xd800) * 0x400 + (m - 0xdc00)), s ++ '"' :: rest) := by
      simp [escape, unicodeEscape, hexUnit_append hu, hleading, hl, hexUnit_append hv, ht]
    simp only [List.cons_append, List.append_assoc]
    rw [stringRest_escape hescape, ih]
    rfl

theorem skipStringRest_plain (hc : IsPlain c) (s : List Char) :
    skipStringRest (c :: s) = skipStringRest s := by
  have hbackslash : ∀ {p : Prop}, c = '\\' → p := fun h => absurd h hc.ne_backslash
  rw [skipStringRest]
  · rw [if_neg (by simp [hc.not_control])]
  · exact hc.ne_quote
  · exact fun _ => hbackslash
  · exact fun _ _ => hbackslash
  · exact hbackslash

theorem skipStringRest_short {e : Char} (he : (shortEscape? e).isSome = true) (s : List Char) :
    skipStringRest ('\\' :: e :: s) = skipStringRest s := by
  rw [skipStringRest]
  · rw [if_pos he]
  · exact ne_of_shortEscape? he

theorem skipStringRest_unit {u : List Char} {n : Nat} (hu : IsUnit u n) (s : List Char) :
    skipStringRest ('\\' :: 'u' :: (u ++ s)) = skipStringRest s := by
  have hunit := hexUnit_append hu []
  obtain ⟨ha, hb, hc, hd⟩ := hu
  rw [List.append_nil] at hunit
  simp only [List.cons_append, List.nil_append]
  rw [skipStringRest, hunit]

/-- A string is passed over to its end. -/
theorem IsText.skipStringRest_append (h : IsText s) (rest : List Char) :
    skipStringRest (s ++ '"' :: rest) = .ok ((), rest) := by
  induction h with
  | nil => rw [List.nil_append, skipStringRest]
  | plain hc _ ih => rw [List.cons_append, skipStringRest_plain hc, ih]
  | short he _ ih => rw [List.cons_append, List.cons_append, skipStringRest_short he, ih]
  | unit hu _ ih =>
    rw [List.cons_append, List.cons_append, List.append_assoc, skipStringRest_unit hu, ih]

theorem hexDigit?_hexDigit : ∀ n < 16, Text.hexDigit? (Text.hexDigit n) = some n := by
  decide

/-- A control character is written as the unit of its number. -/
theorem isUnit_control (hc : isControl c = true) :
    IsUnit ['0', '0', Text.hexDigit (c.toNat / 16), Text.hexDigit (c.toNat % 16)] c.toNat := by
  have hlt : c.toNat < 32 := by simpa [isControl] using hc
  have hunit : IsUnit ['0', '0', Text.hexDigit (c.toNat / 16), Text.hexDigit (c.toNat % 16)]
      (((0 * 16 + 0) * 16 + c.toNat / 16) * 16 + c.toNat % 16) :=
    .mk rfl rfl (hexDigit?_hexDigit _ (by omega)) (hexDigit?_hexDigit _ (by omega))
  have hvalue : ((0 * 16 + 0) * 16 + c.toNat / 16) * 16 + c.toNat % 16 = c.toNat := by omega
  rwa [hvalue] at hunit

/-- What is written for a text spells it. -/
theorem spells_escaped (text : List Char) : Spells (text.flatMap Value.escaped) text := by
  induction text with
  | nil => exact .nil
  | cons c text ih =>
    rw [List.flatMap_cons]
    unfold Value.escaped
    split
    · exact .short rfl ih
    · exact .short rfl ih
    · exact .short rfl ih
    · exact .short rfl ih
    · exact .short rfl ih
    · exact .short rfl ih
    · exact .short rfl ih
    · rename_i hquote hbackslash _ _ _ _ _
      split
      · rename_i hcontrol
        have hlt : c.toNat < 32 := by simpa [isControl] using hcontrol
        have hunit := Spells.unit (isUnit_control hcontrol) (by simp [isLeading]; omega)
          (by simp [isTrailing]; omega) ih
        rw [Char.ofNat_toNat] at hunit
        exact hunit
      · rename_i hcontrol
        exact .plain ⟨Bool.eq_false_iff.mpr hcontrol, hquote, hbackslash⟩ ih

theorem quote_eq (text : String) :
    Value.quote text = '"' :: (text.toList.flatMap Value.escaped ++ ['"']) := rfl

/-- A string in quotes is read as what it spells. -/
theorem string_append {text : List Char} (ht : Spells t text) (hs : Blank s) (rest : List Char) :
    string (s ++ '"' :: (t ++ '"' :: rest)) = .ok (String.ofList text, rest) := by
  unfold string
  rw [skipSpace_append hs, skipSpace_cons rfl]
  change (stringRest (t ++ '"' :: rest)).map _ = _
  rw [ht.stringRest_append]
  rfl

/-- A text is read as it is written. -/
theorem string_quote (text : String) (hs : Blank s) (rest : List Char) :
    string (s ++ (Value.quote text ++ rest)) = .ok (text, rest) := by
  have hread := string_append (spells_escaped text.toList) hs rest
  rw [String.ofList_toList] at hread
  rw [quote_eq, List.cons_append, List.append_assoc]
  exact hread

theorem parsed_quote {α : Type} {parse : String → Option α} {text : String} {a : α}
    (h : parse text = some a) (hs : Blank s) (rest : List Char) :
    parsed parse (s ++ (Value.quote text ++ rest)) = .ok (a, rest) := by
  simp [parsed, string_quote text hs, bind, Except.bind, h]

theorem choice_quote {α : Type} {names : List (String × α)} {name : String} {a : α}
    (h : names.lookup name = some a) (hs : Blank s) (rest : List Char) :
    choice names (s ++ (Value.quote name ++ rest)) = .ok (a, rest) := by
  have hread : parsed (fun t => names.lookup t) ([] ++ (Value.quote name ++ rest)) =
      .ok (a, rest) := parsed_quote h blank_nil rest
  rw [List.nil_append, quote_eq, List.cons_append] at hread
  unfold choice
  rw [skipSpace_append hs, quote_eq, List.cons_append, skipSpace_cons rfl]
  exact hread

end StreamRelay.Json
