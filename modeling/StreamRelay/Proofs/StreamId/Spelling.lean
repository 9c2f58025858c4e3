import StreamRelay.CommandLine.Invocation
import StreamRelay.Proofs.Json.Records
import StreamRelay.Proofs.Region.Operations
import StreamRelay.Proofs.Text.Hexadecimal
import StreamRelay.Proofs.Text.Parts
import StreamRelay.Region.Json

/-!
# The spellings of a stream id

Four spellings say which id is meant: its digits, its text, and the text in braces or behind
`urn:uuid:`. They are read in either case and with blanks around them, nothing else is read, and
each is read as its id. The texts of ids stand in the order of the ids.
-/

namespace StreamRelay

namespace StreamId

def digits (id : StreamId) : List Char := id.bytes.flatMap Text.hexByte

def spellings (id : StreamId) : List (List Char) :=
  [id.digits, id.text, '{' :: (id.text ++ ['}']), scheme ++ id.text]

/-- A text is one of the spellings of an id, in either case and with blanks around it. -/
def Spells (s : List Char) (id : StreamId) : Prop :=
  ∃ front inner back, s = front ++ (inner ++ back) ∧ (∀ c ∈ front, Text.isBlank c = true) ∧
    (∀ c ∈ back, Text.isBlank c = true) ∧ inner.map Char.toLower ∈ id.spellings

variable {s t rest inner : List Char} {id : StreamId}

theorem hexBytes?_cons_eq_some_iff {hi lo : Char} {b : Bytes} :
    hexBytes? (hi :: lo :: s) = some b ↔ ∃ x rest,
      b = x :: rest ∧ [hi.toLower, lo.toLower] = Text.hexByte x ∧ hexBytes? s = some rest := by
  simp only [Text.hexByte_eq_iff, hexBytes?, Option.bind_eq_bind, Option.bind_eq_some_iff,
    Option.pure_def, Option.some_inj]
  constructor
  · rintro ⟨h, hh, l, hl, rest, hrest, rfl⟩
    have hhigh := (Text.hexDigit?_eq_some_iff.mp hh).1
    have hlow := (Text.hexDigit?_eq_some_iff.mp hl).1
    have hx : (UInt8.ofNat (16 * h + l)).toNat = 16 * h + l := by
      rw [UInt8.toNat_ofNat']
      omega
    refine ⟨_, rest, rfl, ⟨?_, ?_⟩, hrest⟩
    · rw [hx, hh]
      congr 1
      omega
    · rw [hx, hl]
      congr 1
      omega
  · rintro ⟨x, rest, rfl, ⟨hh, hl⟩, hrest⟩
    refine ⟨_, hh, _, hl, rest, hrest, ?_⟩
    rw [Nat.div_add_mod, UInt8.ofNat_toNat]

theorem hexBytes?_eq_some_iff {b : Bytes} :
    hexBytes? s = some b ↔ s.map Char.toLower = b.flatMap Text.hexByte := by
  induction s using hexBytes?.induct generalizing b with
  | case1 =>
    cases b with
    | nil => simp [hexBytes?]
    | cons x b => simp [hexBytes?, Text.hexByte]
  | case2 hi lo rest ih =>
    rw [hexBytes?_cons_eq_some_iff]
    cases b with
    | nil => simp
    | cons x b => simp [ih, Text.hexByte, and_assoc]
  | case3 c =>
    cases b with
    | nil => simp [hexBytes?]
    | cons x b => simp [hexBytes?, Text.hexByte]

theorem ofDigits?_eq_some_iff : ofDigits? s = some id ↔ s.map Char.toLower = id.digits := by
  rw [digits, ← hexBytes?_eq_some_iff, ofDigits?]
  cases hb : hexBytes? s with
  | none => simp
  | some b =>
    by_cases hlength : b.length = 16
    · simp only [Option.bind_eq_bind, Option.bind_some, dif_pos hlength, Option.some_inj]
      constructor
      · rintro rfl
        rfl
      · intro h
        exact eq_of_bytes h
    · simp only [Option.bind_eq_bind, Option.bind_some, dif_neg hlength, Option.some_inj]
      constructor
      · intro h
        contradiction
      · rintro rfl
        exact absurd id.length_eq hlength

theorem length_flatMap_hexByte (b : Bytes) : (b.flatMap Text.hexByte).length = 2 * b.length := by
  induction b with
  | nil => rfl
  | cons x b ih =>
    rw [List.flatMap_cons, List.length_append, ih, Text.hexByte, List.length_cons,
      List.length_cons]
    simp
    omega

@[simp] theorem length_digits (id : StreamId) : id.digits.length = 32 := by
  rw [digits, length_flatMap_hexByte, id.length_eq]

def hyphenated : List Nat → List Char → List Char
  | [], s => s
  | [_], s => s
  | n :: m :: ns, s => s.take n ++ '-' :: hyphenated (m :: ns) (s.drop n)

theorem joinGroups?_eq_some_iff {n : Nat} {ns : List Nat} :
    joinGroups? (n :: ns) s = some t ↔
      t.length = (n :: ns).sum ∧ s = hyphenated (n :: ns) t := by
  induction ns generalizing n s t with
  | nil =>
    rw [joinGroups?, hyphenated, List.sum_singleton]
    grind
  | cons m ns ih =>
    rw [hyphenated, List.sum_cons, joinGroups?.eq_def]
    dsimp only
    constructor
    · intro h
      split at h
      · rename_i rest hrest
        obtain ⟨t', ht', rfl⟩ := Option.map_eq_some_iff.mp h
        obtain ⟨hlength, rfl⟩ := ih.mp ht'
        have hn : n < s.length := by
          by_contra hn
          rw [List.drop_eq_nil_of_le (Nat.not_lt.mp hn)] at hrest
          contradiction
        have hfront : (s.take n).length = n := List.length_take_of_le hn.le
        refine ⟨by rw [List.length_append, hfront, hlength], ?_⟩
        rw [List.take_left' hfront, List.drop_left' hfront, ← hrest, List.take_append_drop]
      · contradiction
    · rintro ⟨hlength, rfl⟩
      have hfront : (t.take n).length = n := List.length_take_of_le (by omega)
      have hback : joinGroups? (m :: ns) (hyphenated (m :: ns) (t.drop n)) = some (t.drop n) :=
        ih.mpr ⟨by rw [List.length_drop, hlength, Nat.add_sub_cancel_left], rfl⟩
      rw [List.drop_left' hfront, List.take_left' hfront]
      simp [hback]

theorem length_hyphenated (n : Nat) (ns : List Nat) (s : List Char) :
    (hyphenated (n :: ns) s).length = s.length + ns.length := by
  induction ns generalizing n s with
  | nil => rfl
  | cons m ns ih =>
    have hs : (s.take n).length + (s.drop n).length = s.length := by
      rw [← List.length_append, List.take_append_drop]
    rw [hyphenated, List.length_append, List.length_cons, ih, List.length_cons]
    omega

/-- A change of the digits that keeps hyphens does not move them. -/
theorem map_hyphenated {f : Char → Char} (hf : f '-' = '-') (n : Nat) (ns : List Nat)
    (s : List Char) : (hyphenated (n :: ns) s).map f = hyphenated (n :: ns) (s.map f) := by
  induction ns generalizing n s with
  | nil => rfl
  | cons m ns ih =>
    rw [hyphenated, hyphenated, List.map_append, List.map_cons, ih, hf, List.map_take,
      List.map_drop]

theorem exists_of_map_eq_hyphenated {f : Char → Char} (hf : ∀ c, f c = '-' → c = '-') {n : Nat}
    {ns : List Nat} (ht : t.length = (n :: ns).sum) (h : s.map f = hyphenated (n :: ns) t) :
    ∃ u, s = hyphenated (n :: ns) u ∧ u.map f = t := by
  induction ns generalizing n s t with
  | nil => exact ⟨s, rfl, h⟩
  | cons m ns ih =>
    rw [hyphenated] at h
    rw [List.sum_cons] at ht
    obtain ⟨front, back, rfl, hfront, hback⟩ := List.map_eq_append_iff.mp h
    obtain ⟨c, back, rfl, hc, hback⟩ := List.map_eq_cons_iff.mp hback
    have hdrop : (t.drop n).length = (m :: ns).sum := by
      rw [List.length_drop, ht, Nat.add_sub_cancel_left]
    obtain ⟨u, rfl, hu⟩ := ih hdrop hback
    have hlength : front.length = n := by
      rw [← List.length_map f, hfront, List.length_take_of_le (by omega)]
    refine ⟨front ++ u, ?_, ?_⟩
    · rw [hyphenated, List.take_left' hlength, List.drop_left' hlength, hf c hc]
    · rw [List.map_append, hfront, hu, List.take_append_drop]

/-- Of as many digits in the same groups, the first difference decides with and without hyphens. -/
theorem hyphenated_lt_iff {n : Nat} {ns : List Nat} (h : s.length = t.length) :
    hyphenated (n :: ns) s < hyphenated (n :: ns) t ↔ s < t := by
  induction ns generalizing n s t with
  | nil => rfl
  | cons m ns ih =>
    have hfront : (s.take n).length = (t.take n).length := by
      rw [List.length_take, List.length_take, h]
    have hback : (s.drop n).length = (t.drop n).length := by
      rw [List.length_drop, List.length_drop, h]
    have hsplit := Text.append_lt_append_iff (u := s.drop n) (v := t.drop n) hfront
    rw [List.take_append_drop, List.take_append_drop] at hsplit
    rw [hyphenated, hyphenated, Text.append_lt_append_iff hfront, List.cons_lt_cons_iff, ih hback,
      hsplit]
    simp

theorem take_flatMap_hexByte (b : Bytes) (n : Nat) :
    (b.flatMap Text.hexByte).take (2 * n) = (b.take n).flatMap Text.hexByte := by
  induction b generalizing n with
  | nil => simp
  | cons x b ih =>
    cases n with
    | zero => simp
    | succ n => simp [Text.hexByte, Nat.mul_succ, ih]

theorem drop_flatMap_hexByte (b : Bytes) (n : Nat) :
    (b.flatMap Text.hexByte).drop (2 * n) = (b.drop n).flatMap Text.hexByte := by
  induction b generalizing n with
  | nil => simp
  | cons x b ih =>
    cases n with
    | zero => simp
    | succ n => simp [Text.hexByte, Nat.mul_succ, ih]

/-- The text of an id is its digits in five groups. -/
theorem text_eq_hyphenated (id : StreamId) : id.text = hyphenated [8, 4, 4, 4, 12] id.digits := by
  have htake8 (b : Bytes) := take_flatMap_hexByte b 4
  have htake4 (b : Bytes) := take_flatMap_hexByte b 2
  have hdrop8 (b : Bytes) := drop_flatMap_hexByte b 4
  have hdrop4 (b : Bytes) := drop_flatMap_hexByte b 2
  simp only [Nat.reduceMul] at htake8 htake4 hdrop8 hdrop4
  simp [text, hyphenated, digits, htake8, htake4, hdrop8, hdrop4]

theorem length_text (id : StreamId) : id.text.length = 36 := by
  rw [text_eq_hyphenated, length_hyphenated, length_digits]
  rfl

theorem ofHyphenated?_eq_some_iff :
    ofHyphenated? s = some id ↔ s.map Char.toLower = id.text := by
  rw [ofHyphenated?, text_eq_hyphenated, Option.bind_eq_some_iff]
  constructor
  · rintro ⟨t, ht, hid⟩
    obtain ⟨_, rfl⟩ := joinGroups?_eq_some_iff.mp ht
    rw [map_hyphenated rfl, ofDigits?_eq_some_iff.mp hid]
  · intro h
    obtain ⟨t, rfl, ht⟩ :=
      exists_of_map_eq_hyphenated (fun _ hc => Text.eq_of_toLower hc (by decide))
      (length_digits id) h
    have hlength : t.length = 32 := by
      rw [← List.length_map Char.toLower, ht, length_digits]
    exact ⟨t, joinGroups?_eq_some_iff.mpr ⟨hlength, rfl⟩, ofDigits?_eq_some_iff.mpr ht⟩

theorem stripScheme?_eq_some_iff {lead : List Char} :
    stripScheme? lead s = some rest ↔
      ∃ front, s = front ++ rest ∧ front.map Char.toLower = lead := by
  induction lead generalizing s with
  | nil => simp [stripScheme?, eq_comm]
  | cons l lead ih =>
    cases s with
    | nil => simp [stripScheme?]
    | cons c s =>
      rw [stripScheme?]
      constructor
      · intro h
        split at h
        · rename_i hc
          obtain ⟨front, rfl, rfl⟩ := ih.mp h
          exact ⟨c :: front, rfl, by rw [List.map_cons, hc]⟩
        · contradiction
      · rintro ⟨front, hs, hlead⟩
        obtain ⟨d, front, rfl, hd, hfront⟩ := List.map_eq_cons_iff.mp hlead
        cases hs
        rw [if_pos hd]
        exact ih.mpr ⟨front, rfl, hfront⟩

theorem unbrace?_eq_some_iff : unbrace? s = some inner ↔ s = '{' :: (inner ++ ['}']) := by
  unfold unbrace?
  split
  · rename_i rest
    split
    · rename_i hlast
      obtain ⟨front, rfl⟩ := List.getLast?_eq_some_iff.mp hlast
      simp [eq_comm]
    · rename_i hlast
      constructor
      · intro h
        contradiction
      · intro h
        cases h
        simp at hlast
  · rename_i hs
    constructor
    · intro h
      contradiction
    · rintro rfl
      exact absurd rfl (hs _)

def alphabet : List Char := '{' :: '}' :: "-0123456789:abcdefinru".toList

theorem mem_or_eq_of_mem_hyphenated {c : Char} {n : Nat} {ns : List Nat}
    (h : c ∈ hyphenated (n :: ns) s) : c = '-' ∨ c ∈ s := by
  induction ns generalizing n s with
  | nil => exact .inr h
  | cons m ns ih =>
    rw [hyphenated, List.mem_append, List.mem_cons] at h
    rcases h with h | h | h
    · exact .inr (List.mem_of_mem_take h)
    · exact .inl h
    · exact (ih h).imp_right List.mem_of_mem_drop

theorem mem_alphabet_of_mem_digits {c : Char} (h : c ∈ id.digits) : c ∈ alphabet := by
  have hdigit : ∀ n < 16, Text.hexDigit n ∈ alphabet := by
    decide
  obtain ⟨x, _, hc⟩ := List.mem_flatMap.mp h
  obtain ⟨hhigh, hlow⟩ := Text.halves_lt x
  rw [Text.hexByte, List.mem_cons, List.mem_singleton] at hc
  rcases hc with rfl | rfl
  · exact hdigit _ hhigh
  · exact hdigit _ hlow

theorem mem_alphabet_of_mem_text {c : Char} (h : c ∈ id.text) : c ∈ alphabet := by
  rw [text_eq_hyphenated] at h
  rcases mem_or_eq_of_mem_hyphenated h with rfl | h
  · decide
  · exact mem_alphabet_of_mem_digits h

theorem mem_alphabet {c : Char} (hs : s ∈ id.spellings) (hc : c ∈ s) : c ∈ alphabet := by
  simp only [spellings, List.mem_cons, List.not_mem_nil, or_false] at hs
  rcases hs with rfl | rfl | rfl | rfl
  · exact mem_alphabet_of_mem_digits hc
  · exact mem_alphabet_of_mem_text hc
  · simp only [List.mem_cons, List.mem_append, List.not_mem_nil, or_false] at hc
    rcases hc with rfl | hc | rfl
    · decide
    · exact mem_alphabet_of_mem_text hc
    · decide
  · rcases List.mem_append.mp hc with hc | hc
    · have hscheme : scheme.all (· ∈ alphabet) = true := by
        decide
      exact of_decide_eq_true (List.all_eq_true.mp hscheme c hc)
    · exact mem_alphabet_of_mem_text hc

/-- A character whose lower-case form may stand in a spelling: it is a byte, no blank and no equals
sign. -/
theorem of_toLower_mem_alphabet {c : Char} (h : c.toLower ∈ alphabet) :
    c.toNat < 128 ∧ Text.isBlank c = false ∧ c ≠ '=' := by
  have hbyte : alphabet.all (·.toNat < 128) = true := by
    decide
  have hall : ∀ n < 128, (Char.ofNat n).toLower ∈ alphabet →
      Text.isBlank (Char.ofNat n) = false ∧ Char.ofNat n ≠ '=' := by
    decide +kernel
  have hlower : c.toLower.toNat < 128 := of_decide_eq_true (List.all_eq_true.mp hbyte _ h)
  have hc : c.toNat < 128 := Text.toNat_lt_of_toLower hlower
  have hn := hall c.toNat hc
  rw [Char.ofNat_toNat] at hn
  exact ⟨hc, hn h⟩

theorem of_mem_of_spelling {c : Char} (hs : s.map Char.toLower ∈ id.spellings) (hc : c ∈ s) :
    c.toNat < 128 ∧ Text.isBlank c = false ∧ c ≠ '=' :=
  of_toLower_mem_alphabet (mem_alphabet hs (List.mem_map_of_mem hc))

theorem utf8Length_eq_length (h : ∀ c ∈ s, c.toNat < 128) : utf8Length s = s.length := by
  induction s with
  | nil => rfl
  | cons c s ih =>
    have hc : c.utf8Size = 1 :=
      Char.utf8Size_eq_one_iff.mpr (Nat.le_of_lt_succ (h c List.mem_cons_self))
    have hs : utf8Length s = s.length := ih fun d hd => h d (List.mem_cons_of_mem c hd)
    rw [utf8Length, List.foldr_cons, ← utf8Length, hs, hc, List.length_cons, Nat.add_comm]

/-- The length of a text tells which spelling it can be. -/
theorem spelled?_eq_some_iff : spelled? s = some id ↔ s.map Char.toLower ∈ id.spellings := by
  simp only [spellings, List.mem_cons, List.not_mem_nil, or_false]
  constructor
  · intro h
    unfold spelled? at h
    split at h
    · exact .inl (ofDigits?_eq_some_iff.mp h)
    · obtain ⟨inside, hinside, hid⟩ := Option.bind_eq_some_iff.mp h
      have htext := ofHyphenated?_eq_some_iff.mp hid
      unfold hyphenatedPart? at hinside
      split at hinside
      · cases hinside
        exact .inr (.inl htext)
      · rw [unbrace?_eq_some_iff.mp hinside]
        refine .inr (.inr (.inl ?_))
        rw [List.map_cons, List.map_append, htext]
        rfl
      · obtain ⟨front, rfl, hfront⟩ := stripScheme?_eq_some_iff.mp hinside
        refine .inr (.inr (.inr ?_))
        rw [List.map_append, hfront, htext]
      · contradiction
  · intro h
    have hmem : s.map Char.toLower ∈ id.spellings := by
      simpa [spellings] using h
    have hlength : utf8Length s = (s.map Char.toLower).length := by
      rw [utf8Length_eq_length fun c hc => (of_mem_of_spelling hmem hc).1, List.length_map]
    unfold spelled? hyphenatedPart?
    rcases h with h | h | h | h
    · have h32 : utf8Length s = 32 := by rw [hlength, h, length_digits]
      rw [if_pos h32]
      exact ofDigits?_eq_some_iff.mpr h
    · have h36 : utf8Length s = 36 := by rw [hlength, h, length_text]
      simp only [h36]
      exact ofHyphenated?_eq_some_iff.mpr h
    · have h38 : utf8Length s = 38 := by
        rw [hlength, h, List.length_cons, List.length_append, length_text]
        rfl
      obtain ⟨c, _, rfl, hc, hrest⟩ := List.map_eq_cons_iff.mp h
      obtain ⟨inner, _, rfl, hinner, hlast⟩ := List.map_eq_append_iff.mp hrest
      obtain ⟨d, _, rfl, hd, hnil⟩ := List.map_eq_cons_iff.mp hlast
      obtain rfl := List.map_eq_nil_iff.mp hnil
      obtain rfl := Text.eq_of_toLower hc (by decide)
      obtain rfl := Text.eq_of_toLower hd (by decide)
      simp only [h38, unbrace?_eq_some_iff.mpr rfl]
      exact ofHyphenated?_eq_some_iff.mpr hinner
    · have h45 : utf8Length s = 45 := by
        rw [hlength, h, List.length_append, length_text]
        rfl
      obtain ⟨front, rest, rfl, hfront, hrest⟩ := List.map_eq_append_iff.mp h
      simp only [h45, stripScheme?_eq_some_iff.mpr ⟨front, rfl, hfront⟩]
      exact ofHyphenated?_eq_some_iff.mpr hrest

theorem spells_iff : Spells s id ↔ (Text.trim s).map Char.toLower ∈ id.spellings := by
  constructor
  · rintro ⟨front, inner, back, rfl, hf, hb, h⟩
    have hkept : ∀ c ∈ inner, Text.isBlank c = false := fun c hc => (of_mem_of_spelling h hc).2.1
    have htrimmed : Text.IsTrimmed inner :=
      ⟨fun c hc => hkept c (List.mem_of_mem_head? hc), fun c hc =>
        hkept c (List.mem_reverse.mp (List.mem_of_mem_head? hc))⟩
    rwa [Text.trim_eq_iff.mpr ⟨htrimmed, front, back, rfl, hf, hb⟩]
  · intro h
    obtain ⟨_, front, back, hs, hf, hb⟩ := Text.trim_eq_iff.mp (Eq.refl (Text.trim s))
    exact ⟨front, _, back, hs, hf, hb, h⟩

theorem ofText_eq_ok_iff {text : String} : ofText text = .ok id ↔ Spells text.toList id := by
  rw [spells_iff, ← spelled?_eq_some_iff, ofText]
  split
  · rename_i found hfound
    rw [hfound]
    simp
  · rename_i hnone
    rw [hnone]
    simp

theorem parse_eq_ok_iff {text : String} : parse text = .ok id ↔ Spells text.toList id := by
  rw [← ofText_eq_ok_iff, parse]
  cases ofText text <;> simp [Except.mapError]

theorem toOption_ofText_eq_some_iff {text : String} :
    (ofText text).toOption = some id ↔ parse text = .ok id := by
  rw [parse_eq_ok_iff, ← ofText_eq_ok_iff]
  cases ofText text <;> simp [Except.toOption]

/-- No id is read from a text with an equals sign in it. -/
theorem Spells.ne_equals (h : Spells s id) {c : Char} (hc : c ∈ s) : c ≠ '=' := by
  obtain ⟨front, inner, back, rfl, hf, hb, hinner⟩ := h
  have hblank : Text.isBlank '=' = false := rfl
  rcases List.mem_append.mp hc with hc | hc
  · rintro rfl
    rw [hf _ hc] at hblank
    contradiction
  · rcases List.mem_append.mp hc with hc | hc
    · exact (of_mem_of_spelling hinner hc).2.2
    · rintro rfl
      rw [hb _ hc] at hblank
      contradiction

theorem spells_toString (id : StreamId) : Spells (toString id).toList id := by
  have hlower : alphabet.all (fun c => c.toLower = c) = true := by
    decide
  have hkept : ∀ c ∈ id.text, c.toLower = c := fun c hc =>
    of_decide_eq_true (List.all_eq_true.mp hlower c (mem_alphabet_of_mem_text hc))
  have htext : id.text.map Char.toLower = id.text :=
    (List.map_congr_left hkept).trans (List.map_id _)
  have hlist : (toString id).toList = id.text := String.toList_ofList
  refine ⟨[], id.text, [], by simp [hlist], by simp, by simp, ?_⟩
  rw [htext]
  simp [spellings]

/-- The JSON form of an id is read as it. -/
theorem document_toJson (id : StreamId) :
    Json.document fromJson id.toJson.render = .ok id := by
  have hid : (ofText (toString id)).toOption = some id :=
    toOption_ofText_eq_some_iff.mpr (parse_eq_ok_iff.mpr (spells_toString id))
  have hread : fromJson ([] ++ (Json.Value.quote (toString id) ++ [])) = .ok (id, []) :=
    @Json.parsed_quote [] _ (fun text => (ofText text).toOption) _ _ hid Json.blank_nil []
  have hdocument : Json.document fromJson
      (String.ofList ([] ++ (Json.Value.quote (toString id) ++ []))) = .ok id :=
    Json.document_append hread Json.blank_nil
  rw [List.nil_append, List.append_nil] at hdocument
  exact hdocument

/-- Written ids are ordered as the ids. -/
theorem toString_lt_iff {a b : StreamId} : toString a < toString b ↔ a.bytes < b.bytes := by
  have hlist (id : StreamId) : (toString id).toList = id.text := String.toList_ofList
  have hlength : a.digits.length = b.digits.length := by
    rw [length_digits, length_digits]
  rw [String.lt_iff, hlist, hlist, text_eq_hyphenated, text_eq_hyphenated,
    hyphenated_lt_iff hlength, digits, digits, Text.flatMap_hexByte_lt_iff]

/-- A link is two ids with one equals sign between them, and none in their texts. -/
theorem link?_eq_some_iff {text : String} {a b : StreamId} :
    CommandLine.link? text = some (a, b) ↔ ∃ left right : String, text = left ++ "=" ++ right ∧
      '=' ∉ left.toList ∧ '=' ∉ right.toList ∧ parse left = .ok a ∧ parse right = .ok b := by
  simp only [CommandLine.link?, Option.bind_eq_bind, Option.bind_eq_some_iff, Prod.exists,
    Text.splitFirst?_eq_some_iff, toOption_ofText_eq_some_iff, Option.pure_def, Option.some_inj,
    Prod.mk.injEq]
  constructor
  · rintro ⟨left, right, ⟨htext, hleft⟩, a, ha, b, hb, rfl, rfl⟩
    have hright : '=' ∉ right := by
      intro hmem
      have hspells := parse_eq_ok_iff.mp hb
      rw [String.toList_ofList] at hspells
      exact hspells.ne_equals hmem rfl
    refine ⟨String.ofList left, String.ofList right, ?_, ?_, ?_, ha, hb⟩
    · rw [← String.toList_inj, htext]
      simp
    · rwa [String.toList_ofList]
    · rwa [String.toList_ofList]
  · rintro ⟨left, right, rfl, hleft, -, ha, hb⟩
    refine ⟨left.toList, right.toList, ⟨by simp, hleft⟩, a, ?_, b, ?_, rfl, rfl⟩
    · rwa [String.ofList_toList]
    · rwa [String.ofList_toList]

/-- Exactly the spellings of an id are read as it, what is written for an id as text and as JSON is
read back, the texts of ids are ordered as the ids, and a link is exactly two ids around the only
equals sign of a text. -/
theorem names_faithful :
    (∀ (text : String) (id : StreamId), parse text = .ok id ↔ Spells text.toList id) ∧
      (∀ id : StreamId, parse (toString id) = .ok id ∧
        Json.document fromJson id.toJson.render = .ok id) ∧
      (∀ a b : StreamId, a.bytes < b.bytes ↔ toString a < toString b) ∧
      ∀ (text : String) (a b : StreamId), CommandLine.link? text = some (a, b) ↔
        ∃ left right : String, text = left ++ "=" ++ right ∧ '=' ∉ left.toList ∧
          '=' ∉ right.toList ∧ parse left = .ok a ∧ parse right = .ok b := by
  refine ⟨?_, ?_, ?_, ?_⟩
  · intro text id
    exact parse_eq_ok_iff
  · intro id
    exact ⟨parse_eq_ok_iff.mpr (spells_toString id), document_toJson id⟩
  · intro a b
    exact toString_lt_iff.symm
  · intro text a b
    exact link?_eq_some_iff

end StreamId

end StreamRelay
