import StreamRelay.Proofs.Json.Skipping

/-!
# Values are read as they are written

What is written for a value is JSON and has no control character in it, so it stays on one line
whatever texts are in it, and it is read back as the value. The numbers of the value must be words,
and it must not be nested deeper than is read at all.
-/

namespace StreamRelay.Json.Value

inductive Readable : Nat → Value → Prop
  | null {depth : Nat} : Readable depth .null
  | bool {depth : Nat} (b : Bool) : Readable depth (.bool b)
  | word {depth n : Nat} (hn : n < Text.wordSize) : Readable depth (.number (.word n))
  | string {depth : Nat} (text : String) : Readable depth (.string text)
  | list {depth : Nat} {items : List Value} (h : ∀ v ∈ items, Readable depth v) :
    Readable (depth + 1) (.list items)
  | object {depth : Nat} {members : List (String × Value)}
    (h : ∀ m ∈ members, Readable depth m.2) : Readable (depth + 1) (.object members)

variable {depth bound : Nat} {v : Value} {vs : List Value} {ms : List (String × Value)}
variable {s rest : List Char} {c : Char}

theorem itemChars_cons (v : Value) (h : vs ≠ []) :
    itemChars (v :: vs) = v.chars ++ ',' :: itemChars vs := by
  rw [itemChars]
  exact h

theorem memberChars_cons (m : String × Value) (h : ms ≠ []) :
    memberChars (m :: ms) = quote m.1 ++ ':' :: (m.2.chars ++ ',' :: memberChars ms) := by
  rw [memberChars]
  · simp
  · exact h

theorem memberChars_singleton (m : String × Value) :
    memberChars [m] = quote m.1 ++ ':' :: m.2.chars := by
  rw [memberChars]

def Printable (s : List Char) : Prop := ∀ c ∈ s, isControl c = false

@[simp] theorem printable_nil : Printable [] := by
  intro c hc
  contradiction

@[simp] theorem printable_cons_iff : Printable (c :: s) ↔ isControl c = false ∧ Printable s :=
  List.forall_mem_cons

@[simp] theorem printable_append_iff : Printable (s ++ rest) ↔ Printable s ∧ Printable rest :=
  List.forall_mem_append

theorem printable_escaped (c : Char) : Printable (escaped c) := by
  unfold escaped
  split
  case h_8 =>
    split
    · rename_i hcontrol
      have hdigit : ∀ n < 16, isControl (Text.hexDigit n) = false := by
        decide
      have hfront : isControl '\\' = false ∧ isControl 'u' = false ∧ isControl '0' = false :=
        ⟨rfl, rfl, rfl⟩
      have hlt : c.toNat < 32 := by
        simpa [isControl] using hcontrol
      have hhigh := hdigit (c.toNat / 16) (by omega)
      have hlow := hdigit (c.toNat % 16) (by omega)
      simp [hfront, hhigh, hlow]
    · rename_i hplain
      simpa using hplain
  -- The characters with a letter of their own behind the backslash.
  all_goals simp [isControl]

theorem printable_quote (text : String) : Printable (quote text) := by
  have htext : Printable (text.toList.flatMap escaped) := by
    intro c hc
    obtain ⟨d, _, hd⟩ := List.mem_flatMap.mp hc
    exact printable_escaped d c hd
  have hquote : isControl '"' = false := rfl
  simp [quote, htext, hquote]

theorem printable_toDigits (n : Nat) : Printable (Nat.toDigits 10 n) := by
  have hdigit : ∀ d < 10, isControl d.digitChar = false := by
    decide
  induction n using Text.reads_decimal.induct with
  | digit d hd => simpa using hdigit d hd
  | more n d _ hd ih => simpa [ih] using hdigit d hd

theorem printable_itemChars (h : ∀ v ∈ vs, Printable v.chars) : Printable (itemChars vs) := by
  induction vs with
  | nil =>
    rw [itemChars]
    exact printable_nil
  | cons v vs ih =>
    obtain ⟨hv, hvs⟩ := List.forall_mem_cons.mp h
    by_cases hne : vs = []
    · rw [hne, itemChars]
      exact hv
    · rw [itemChars_cons v hne]
      have hcomma : isControl ',' = false := rfl
      simp [hv, ih hvs, hcomma]

theorem printable_memberChars (h : ∀ m ∈ ms, Printable m.2.chars) :
    Printable (memberChars ms) := by
  induction ms with
  | nil =>
    rw [memberChars]
    exact printable_nil
  | cons m ms ih =>
    obtain ⟨hm, hms⟩ := List.forall_mem_cons.mp h
    have hcolon : isControl ':' = false := rfl
    have hcomma : isControl ',' = false := rfl
    by_cases hne : ms = []
    · rw [hne, memberChars_singleton]
      simp [printable_quote, hm, hcolon]
    · rw [memberChars_cons m hne]
      simp [printable_quote, hm, ih hms, hcolon, hcomma]

theorem Readable.printable (h : Readable depth v) : Printable v.chars := by
  induction h with
  | null => simp [chars, isControl]
  | bool b => cases b <;> simp [chars, isControl]
  | word hn => exact printable_toDigits _
  | string text => exact printable_quote text
  | list h ih =>
    have hends : isControl '[' = false ∧ isControl ']' = false := ⟨rfl, rfl⟩
    simp [chars, printable_itemChars ih, hends]
  | object h ih =>
    have hends : isControl '{' = false ∧ isControl '}' = false := ⟨rfl, rfl⟩
    simp [chars, printable_memberChars ih, hends]

/-- What spells a text is the inside of a string. -/
theorem isText_of_spells {text : List Char} (h : Spells s text) : IsText s := by
  induction h with
  | nil => exact .nil
  | plain hc _ ih => exact .plain hc ih
  | short he _ ih => exact .short (Option.isSome_of_eq_some he) ih
  | unit hu _ _ _ ih => exact .unit hu ih
  | pair hu _ hv _ _ ih => exact .unit hu (.unit hv ih)

theorem isText_escaped (text : String) : IsText (text.toList.flatMap escaped) :=
  isText_of_spells (spells_escaped text.toList)

theorem isNumeral_toDigits (n : Nat) : IsNumeral (Nat.toDigits 10 n) := by
  have hzero : (Nat.toDigits 10 n).head? = some '0' → (Nat.toDigits 10 n).length = 1 := by
    intro h
    rw [Text.reads_decimal.eq_zero_of_head? h]
    rfl
  have hnumeral := IsNumeral.mk (isDigits_toDigits n) hzero .none .none
  rwa [List.append_nil, List.append_nil] at hnumeral

theorem derives_item (h : IsValue s) : Derives .item s := by
  have hitem := Derives.item blank_nil h blank_nil
  rwa [List.nil_append, List.append_nil] at hitem

theorem derives_member (key : String) (h : IsValue s) :
    Derives .member (quote key ++ ':' :: s) := by
  have hmember := Derives.member blank_nil (isText_escaped key) blank_nil (derives_item h)
  rw [List.nil_append, List.nil_append] at hmember
  rw [quote_eq, List.cons_append, List.append_assoc]
  exact hmember

theorem derives_itemChars (hne : vs ≠ []) (h : ∀ v ∈ vs, IsValue v.chars) :
    Derives .items (itemChars vs) := by
  induction vs with
  | nil => contradiction
  | cons v vs ih =>
    obtain ⟨hv, hvs⟩ := List.forall_mem_cons.mp h
    by_cases hlast : vs = []
    · rw [hlast, itemChars]
      exact .lastItem (derives_item hv)
    · rw [itemChars_cons v hlast]
      exact .moreItems (derives_item hv) (ih hlast hvs)

theorem derives_memberChars (hne : ms ≠ []) (h : ∀ m ∈ ms, IsValue m.2.chars) :
    Derives .members (memberChars ms) := by
  induction ms with
  | nil => contradiction
  | cons m ms ih =>
    obtain ⟨hm, hms⟩ := List.forall_mem_cons.mp h
    by_cases hlast : ms = []
    · rw [hlast, memberChars_singleton]
      exact .lastMember (derives_member m.1 hm)
    · have hmore := Derives.moreMembers (derives_member m.1 hm) (ih hlast hms)
      rw [List.append_assoc, List.cons_append] at hmore
      rw [memberChars_cons m hlast]
      exact hmore

theorem Readable.isValue (h : Readable depth v) : IsValue v.chars := by
  induction h with
  | null => exact .null
  | bool b =>
    cases b with
    | false => exact .false
    | true => exact .true
  | word hn => exact .number (.positive (isNumeral_toDigits _))
  | string text =>
    rw [chars, quote_eq]
    exact .string (isText_escaped text)
  | @list depth items h ih =>
    rw [chars]
    by_cases hne : items = []
    · rw [hne, itemChars]
      exact .emptyList blank_nil
    · exact .list (derives_itemChars hne ih)
  | @object depth members h ih =>
    rw [chars]
    by_cases hne : members = []
    · rw [hne, memberChars]
      exact .emptyObject blank_nil
    · exact .object (derives_memberChars hne ih)

theorem read_keyword (letters : List Char)
    (h : ∀ s, read depth (bound + 1) (c :: s) = (keyword letters s).map fun p => (v, p.2))
    (rest : List Char) : read depth (bound + 1) (c :: (letters ++ rest)) = .ok (v, rest) := by
  rw [h, keyword_append]
  rfl

theorem read_digit (hc : isDigit c = true) (s : List Char) :
    read depth (bound + 1) (c :: s) = readNumber [] (c :: s) := by
  rw [read, skipSpace_cons (isSpace_of_isDigit hc)]
  split
  case h_9 heq =>
    cases heq
    exact if_pos hc
  all_goals
    rename_i heq
    cases heq
    try contradiction

theorem readNumber_toDigits {n : Nat} (hn : n < Text.wordSize) (hrest : Ends rest) :
    readNumber [] (Nat.toDigits 10 n ++ rest) = .ok (nat n, rest) := by
  simp [readNumber, finiteNumeral_toDigits hn hrest, word?_toDigits hn, bind, Except.bind]

theorem read_toDigits {n : Nat} (hn : n < Text.wordSize) (hrest : Ends rest) :
    read depth (bound + 1) (Nat.toDigits 10 n ++ rest) = .ok (nat n, rest) := by
  have hread := readNumber_toDigits hn hrest
  obtain ⟨c, t, hdigits, hc⟩ := (isDigits_toDigits n).exists_cons
  rw [hdigits, List.cons_append] at hread ⊢
  rw [read_digit hc, hread]

theorem read_quote (text : String) (rest : List Char) :
    read depth (bound + 1) (quote text ++ rest) = .ok (.string text, rest) := by
  have hopen := skipSpace_cons (c := '"') rfl (text.toList.flatMap escaped ++ '"' :: rest)
  rw [quote_eq, List.cons_append, List.append_assoc]
  change read depth (bound + 1) ('"' :: (text.toList.flatMap escaped ++ '"' :: rest)) = _
  rw [read, hopen]
  simp [(spells_escaped text.toList).stringRest_append, Except.map]

theorem readItems_close (first : Bool) (rest : List Char) :
    readItems depth (bound + 1) first (']' :: rest) = .ok ([], rest) := by
  have hclose : skipSpace (']' :: rest) = ']' :: rest := skipSpace_cons rfl rest
  simp [readItems, hclose]

/-- An item, alone behind the opening bracket or behind a comma. -/
theorem readItems_item (first : Bool) (hbegins : Begins v.chars)
    (hread : read depth bound (v.chars ++ rest) = .ok (v, rest)) :
    readItems depth (bound + 1) first ((if first then [] else [',']) ++ (v.chars ++ rest)) =
      (readItems depth bound false rest).map fun p => (v :: p.1, p.2) := by
  cases first with
  | false =>
    have hcomma := skipSpace_cons (c := ',') rfl (v.chars ++ rest)
    rw [if_neg Bool.false_ne_true]
    simp [readItems, hcomma, hread, bind, Except.bind, pure, Except.pure, Except.map]
  | true =>
    obtain ⟨c, t, hchars, hc, hne, _⟩ := hbegins
    have hstart := skipSpace_cons hc (t ++ rest)
    rw [hchars, List.cons_append] at hread ⊢
    rw [if_pos rfl, List.nil_append]
    simp [readItems, hstart, hread, bind, Except.bind, pure, Except.pure, Except.map]

theorem readMembers_close (first : Bool) (rest : List Char) :
    readMembers depth (bound + 1) first ('}' :: rest) = .ok ([], rest) := by
  have hclose : skipSpace ('}' :: rest) = '}' :: rest := skipSpace_cons rfl rest
  simp [readMembers, hclose]

/-- A member, alone behind the opening brace or behind a comma. -/
theorem readMembers_member (first : Bool) (key : String)
    (hread : read depth bound (v.chars ++ rest) = .ok (v, rest)) :
    readMembers depth (bound + 1) first
        ((if first then [] else [',']) ++ (quote key ++ ':' :: (v.chars ++ rest))) =
      (readMembers depth bound false rest).map fun p => ((key, v) :: p.1, p.2) := by
  have hopen := skipSpace_cons (c := '"') rfl
    (key.toList.flatMap escaped ++ '"' :: ':' :: (v.chars ++ rest))
  have hcomma := skipSpace_cons (c := ',') rfl
    ('"' :: (key.toList.flatMap escaped ++ '"' :: ':' :: (v.chars ++ rest)))
  have hcolon := skipSpace_cons (c := ':') rfl (v.chars ++ rest)
  have hkey := (spells_escaped key.toList).stringRest_append (':' :: (v.chars ++ rest))
  rw [quote_eq]
  cases first <;>
  · simp [readMembers, hopen, hcomma, hcolon, hkey, hread, bind, Except.bind, pure, Except.pure,
      Except.map]

/-- Whatever is written is there. -/
theorem exists_succ_of_begins (h : Begins s) (hs : s.length ≤ bound) : ∃ n, bound = n + 1 := by
  obtain ⟨c, t, rfl, _⟩ := h
  exact Nat.exists_eq_succ_of_ne_zero (Nat.ne_zero_of_lt hs)

/-- Items up to the closing bracket. Only the first one has no comma before it. -/
theorem readItems_itemChars (hbegins : ∀ v ∈ vs, Begins v.chars)
    (hread : ∀ v ∈ vs, ∀ {bound rest}, v.chars.length ≤ bound + 1 → Ends rest →
      read depth (bound + 1) (v.chars ++ rest) = .ok (v, rest))
    (first : Bool) (hfirst : vs = [] → first = true) (hbound : (itemChars vs).length < bound)
    (rest : List Char) :
    readItems depth bound first ((if first then [] else [',']) ++ (itemChars vs ++ ']' :: rest)) =
      .ok (vs, rest) := by
  induction vs generalizing first bound with
  | nil =>
    obtain ⟨bound, rfl⟩ := Nat.exists_eq_succ_of_ne_zero (Nat.ne_zero_of_lt hbound)
    rw [hfirst rfl, if_pos rfl, itemChars, List.nil_append, List.nil_append, readItems_close]
  | cons v vs ih =>
    obtain ⟨bound, rfl⟩ := Nat.exists_eq_succ_of_ne_zero (Nat.ne_zero_of_lt hbound)
    obtain ⟨hv, hvs⟩ := List.forall_mem_cons.mp hread
    obtain ⟨hbegin, hbegins⟩ := List.forall_mem_cons.mp hbegins
    by_cases hne : vs = []
    · subst hne
      rw [itemChars] at hbound ⊢
      have hlength := Nat.le_of_lt_succ hbound
      obtain ⟨bound, rfl⟩ := exists_succ_of_begins hbegin hlength
      have hends : Ends (']' :: rest) := ends_cons_iff.mpr rfl
      have hitem := hv hlength hends
      rw [readItems_item first hbegin hitem, readItems_close]
      rfl
    · rw [itemChars_cons v hne] at hbound ⊢
      rw [List.length_append, List.length_cons] at hbound
      have hleft : (itemChars vs).length < bound := by
        omega
      have hlength : v.chars.length ≤ bound := by
        omega
      have hmore := ih hbegins hvs false (absurd · hne) hleft
      obtain ⟨bound, rfl⟩ := exists_succ_of_begins hbegin hlength
      have hends : Ends (',' :: (itemChars vs ++ ']' :: rest)) := ends_cons_iff.mpr rfl
      have hitem := hv hlength hends
      rw [if_neg Bool.false_ne_true] at hmore
      rw [List.append_assoc, List.cons_append, readItems_item first hbegin hitem]
      exact congrArg (Except.map _) hmore

/-- Members up to the closing brace. -/
theorem readMembers_memberChars
    (hread : ∀ m ∈ ms, ∀ {bound rest}, m.2.chars.length ≤ bound + 1 → Ends rest →
      read depth (bound + 1) (m.2.chars ++ rest) = .ok (m.2, rest))
    (first : Bool) (hfirst : ms = [] → first = true) (hbound : (memberChars ms).length < bound)
    (rest : List Char) :
    readMembers depth bound first
        ((if first then [] else [',']) ++ (memberChars ms ++ '}' :: rest)) = .ok (ms, rest) := by
  induction ms generalizing first bound with
  | nil =>
    obtain ⟨bound, rfl⟩ := Nat.exists_eq_succ_of_ne_zero (Nat.ne_zero_of_lt hbound)
    rw [hfirst rfl, if_pos rfl, memberChars, List.nil_append, List.nil_append, readMembers_close]
  | cons m ms ih =>
    obtain ⟨hm, hms⟩ := List.forall_mem_cons.mp hread
    by_cases hne : ms = []
    · subst hne
      rw [memberChars_singleton] at hbound ⊢
      rw [List.length_append, List.length_cons] at hbound
      obtain ⟨bound, rfl⟩ : ∃ n, bound = n + 2 := ⟨bound - 2, by omega⟩
      have hlength : m.2.chars.length ≤ bound + 1 := by
        omega
      have hends : Ends ('}' :: rest) := ends_cons_iff.mpr rfl
      have hmember := hm hlength hends
      rw [List.append_assoc, List.cons_append, readMembers_member first m.1 hmember,
        readMembers_close]
      rfl
    · rw [memberChars_cons m hne] at hbound ⊢
      simp only [List.length_append, List.length_cons] at hbound
      obtain ⟨bound, rfl⟩ : ∃ n, bound = n + 2 := ⟨bound - 2, by omega⟩
      have hlength : m.2.chars.length ≤ bound + 1 := by
        omega
      have hleft : (memberChars ms).length < bound + 1 := by
        omega
      have hends : Ends (',' :: (memberChars ms ++ '}' :: rest)) := ends_cons_iff.mpr rfl
      have hmember := hm hlength hends
      have hmore := ih hms false (absurd · hne) hleft
      rw [if_neg Bool.false_ne_true] at hmore
      simp only [List.append_assoc, List.cons_append]
      rw [readMembers_member first m.1 hmember]
      exact congrArg (Except.map _) hmore

/-- A value is read from what is written for it, and nothing of what stands behind it is. Every level
of the reading is paid for by a character. -/
theorem Readable.read_append (h : Readable depth v) (hbound : v.chars.length ≤ bound + 1)
    (hrest : Ends rest) : read depth (bound + 1) (v.chars ++ rest) = .ok (v, rest) := by
  induction h generalizing bound rest with
  | null => exact read_keyword ['u', 'l', 'l'] (fun _ => rfl) rest
  | bool b =>
    cases b with
    | false => exact read_keyword ['a', 'l', 's', 'e'] (fun _ => rfl) rest
    | true => exact read_keyword ['r', 'u', 'e'] (fun _ => rfl) rest
  | word hn => exact read_toDigits hn hrest
  | string text => exact read_quote text rest
  | @list depth items h ih =>
    rw [chars] at hbound ⊢
    have hlength : (itemChars items).length < bound := by
      simp only [List.length_cons, List.length_append, List.length_nil] at hbound
      omega
    have hitems := readItems_itemChars (fun v hv => (h v hv).isValue.begins) ih true (fun _ => rfl)
      hlength rest
    have hopen := skipSpace_cons (c := '[') rfl (itemChars items ++ ']' :: rest)
    rw [if_pos rfl, List.nil_append] at hitems
    simp [read, hopen, hitems, Except.map]
  | @object depth members h ih =>
    rw [chars] at hbound ⊢
    have hlength : (memberChars members).length < bound := by
      simp only [List.length_cons, List.length_append, List.length_nil] at hbound
      omega
    have hmembers := readMembers_memberChars ih true (fun _ => rfl) hlength rest
    have hopen := skipSpace_cons (c := '{') rfl (memberChars members ++ '}' :: rest)
    rw [if_pos rfl, List.nil_append] at hmembers
    simp [read, hopen, hmembers, Except.map]

/-- The text of a value is read back as the value. -/
theorem Readable.ofText_render (h : Readable maxDepth v) : ofText v.render = .ok v := by
  have hends : Ends [] := by
    intro c hc
    contradiction
  have hlength : v.chars.length ≤ 2 * v.chars.length + 1 + 1 := by
    omega
  have hread := h.read_append hlength hends
  rw [List.append_nil] at hread
  unfold ofText render
  simp [hread, skipSpace, bind, Except.bind]

end StreamRelay.Json.Value
