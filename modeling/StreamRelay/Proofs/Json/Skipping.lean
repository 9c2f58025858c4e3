import Mathlib.Data.List.DropRight
import StreamRelay.Proofs.Json.Lexemes

/-!
# Values are passed over

Whatever the grammar derives as a value is passed over, nested to any depth, and nothing of what
stands behind it. The walk over a value goes from spot to spot, and each step is paid for by the
characters that it leaves behind, so its bound is never met.
-/

namespace StreamRelay.Json

structure Spot where
  place : Place
  brackets : List Bracket
  text : List Char

namespace Spot

variable {x y z : Spot}

def skip (bound : Nat) (x : Spot) : Except Fault (List Char) :=
  skipFrom bound x.place x.brackets x.text

/-- The steps that the walk may still make: two for a character, one of them for what is opened by
it. -/
def budget (x : Spot) : Nat := 2 * x.text.length + if x.place = .opened then 1 else 0

def Leads (x y : Spot) : Prop :=
  ∃ n, n + y.budget ≤ x.budget ∧ ∀ bound, x.skip (bound + n) = y.skip bound

theorem Leads.trans (h : Leads x y) (h' : Leads y z) : Leads x z := by
  obtain ⟨n, hn, hstep⟩ := h
  obtain ⟨m, hm, hstep'⟩ := h'
  refine ⟨m + n, by omega, ?_⟩
  intro bound
  rw [← Nat.add_assoc, hstep, hstep']

theorem Leads.step (hbudget : y.budget < x.budget)
    (hskip : ∀ bound, x.skip (bound + 1) = y.skip bound) : Leads x y :=
  ⟨1, by omega, hskip⟩

variable {brackets : List Bracket} {s t rest : List Char} {c : Char}

theorem length_skipSpace (s : List Char) : (skipSpace s).length ≤ s.length :=
  (List.dropWhile_sublist _).length_le

theorem skipSpace_skipSpace (s : List Char) : skipSpace (skipSpace s) = skipSpace s :=
  List.dropWhile_idempotent _ _

theorem skip_skipSpace (bound : Nat) (brackets : List Bracket) (s : List Char) :
    skip bound ⟨.value, brackets, skipSpace s⟩ = skip bound ⟨.value, brackets, s⟩ := by
  cases bound with
  | zero => rfl
  | succ bound => simp only [skip, skipFrom, skipSpace_skipSpace]

theorem Leads.blank (hs : Blank s) (rest : List Char) :
    Leads ⟨.value, brackets, s ++ rest⟩ ⟨.value, brackets, rest⟩ := by
  refine ⟨0, ?_, ?_⟩
  · simp [budget]
  · intro bound
    rw [Nat.add_zero, ← skip_skipSpace, skipSpace_append hs, skip_skipSpace]

/-- A value without brackets. -/
theorem Leads.start (h : skipStart s = .ok (none, rest)) (hs : skipSpace s = s)
    (hlt : rest.length < s.length) : Leads ⟨.value, brackets, s⟩ ⟨.after, brackets, rest⟩ := by
  apply Leads.step
  · simp [budget, hlt]
  · intro bound
    simp [skip, skipFrom, hs, h, bind, Except.bind]

theorem Leads.opening (b : Bracket) (h : skipStart s = .ok (some b, rest)) (hs : skipSpace s = s)
    (hlt : rest.length < s.length) :
    Leads ⟨.value, brackets, s⟩ ⟨.opened, b :: brackets, rest⟩ := by
  apply Leads.step
  · simp [budget]
    omega
  · intro bound
    simp [skip, skipFrom, hs, h, bind, Except.bind]

/-- The closing bracket, of nothing or behind a value. -/
theorem Leads.close {place : Place} (hplace : place ≠ .value) (b : Bracket)
    (h : skipSpace s = b.closing :: rest) :
    Leads ⟨place, b :: brackets, s⟩ ⟨.after, brackets, rest⟩ := by
  have hlength := length_skipSpace s
  rw [h, List.length_cons] at hlength
  apply Leads.step
  · simp [budget]
    omega
  · intro bound
    cases place with
    | value => exact absurd rfl hplace
    | opened => simp [skip, skipFrom, h]
    | after => simp [skip, skipFrom, h]

/-- The first item of a list. -/
theorem Leads.firstItem (h : skipSpace s = c :: t) (hc : c ≠ ']') :
    Leads ⟨.opened, .list :: brackets, s⟩ ⟨.value, .list :: brackets, s⟩ := by
  apply Leads.step
  · simp [budget]
  · intro bound
    have hsame := skip_skipSpace bound (.list :: brackets) s
    have hopen : c ≠ Bracket.list.closing := hc
    rw [h] at hsame
    simp only [skip, skipFrom, h, if_neg hopen]
    exact hsame

theorem Leads.nextItem (h : skipSpace s = ',' :: t) :
    Leads ⟨.after, .list :: brackets, s⟩ ⟨.value, .list :: brackets, t⟩ := by
  have hlength := length_skipSpace s
  rw [h, List.length_cons] at hlength
  apply Leads.step
  · simp [budget]
    omega
  · intro bound
    simp [skip, skipFrom, h, Bracket.closing]

/-- The first member of an object, up to its value. -/
theorem Leads.firstMember (h : skipSpace s = c :: t) (hc : c ≠ '}')
    (hk : skipKey (c :: t) = .ok rest) (hlength : rest.length ≤ s.length) :
    Leads ⟨.opened, .object :: brackets, s⟩ ⟨.value, .object :: brackets, rest⟩ := by
  apply Leads.step
  · simp [budget]
    omega
  · intro bound
    simp [skip, skipFrom, h, Bracket.closing, hc, hk, bind, Except.bind]

theorem Leads.nextMember (h : skipSpace s = ',' :: t) (hk : skipKey t = .ok rest)
    (hlength : rest.length ≤ t.length) :
    Leads ⟨.after, .object :: brackets, s⟩ ⟨.value, .object :: brackets, rest⟩ := by
  have hlength' := length_skipSpace s
  rw [h, List.length_cons] at hlength'
  apply Leads.step
  · simp [budget]
    omega
  · intro bound
    simp [skip, skipFrom, h, Bracket.closing, hk, bind, Except.bind]

end Spot

open Spot

variable {brackets : List Bracket} {s t rest : List Char} {c : Char}

def Begins (s : List Char) : Prop :=
  ∃ c t, s = c :: t ∧ isSpace c = false ∧ c ≠ ']' ∧ c ≠ '}'

theorem Begins.skipSpace_append (h : Begins s) (rest : List Char) :
    skipSpace (s ++ rest) = s ++ rest := by
  obtain ⟨c, t, rfl, hc, _, _⟩ := h
  exact skipSpace_cons hc _

theorem IsNumeral.exists_cons (h : IsNumeral s) : ∃ c t, s = c :: t ∧ isDigit c = true := by
  obtain ⟨hw, _, _, _⟩ := h
  obtain ⟨c, t, rfl, hc⟩ := hw.exists_cons
  exact ⟨c, _, rfl, hc⟩

theorem IsNumber.begins (h : IsNumber s) : Begins s := by
  cases h with
  | positive h =>
    obtain ⟨c, t, rfl, hc⟩ := h.exists_cons
    refine ⟨c, t, rfl, isSpace_of_isDigit hc, ?_, ?_⟩ <;>
    · rintro rfl
      contradiction
  | negative h => exact ⟨_, _, rfl, rfl, by decide, by decide⟩

theorem IsValue.begins (h : IsValue s) : Begins s := by
  cases h with
  | null => exact ⟨_, _, rfl, rfl, by decide, by decide⟩
  | true => exact ⟨_, _, rfl, rfl, by decide, by decide⟩
  | false => exact ⟨_, _, rfl, rfl, by decide, by decide⟩
  | number h => exact h.begins
  | string h => exact ⟨_, _, rfl, rfl, by decide, by decide⟩
  | emptyList hw => exact ⟨_, _, rfl, rfl, by decide, by decide⟩
  | list h => exact ⟨_, _, rfl, rfl, by decide, by decide⟩
  | emptyObject hw => exact ⟨_, _, rfl, rfl, by decide, by decide⟩
  | object h => exact ⟨_, _, rfl, rfl, by decide, by decide⟩

theorem skipStart_digit (hc : isDigit c = true) (s : List Char) :
    skipStart (c :: s) = (numeral .malformed (c :: s)).map fun p => (none, p.2) := by
  unfold skipStart
  split
  case h_9 heq =>
    cases heq
    exact if_pos hc
  all_goals
    rename_i heq
    cases heq
    try contradiction

theorem skipStart_number (h : IsNumber s) (hrest : Ends rest) :
    skipStart (s ++ rest) = .ok (none, rest) := by
  cases h with
  | positive h =>
    obtain ⟨x, hx⟩ := numeral_append .malformed h hrest
    obtain ⟨c, t, rfl, hc⟩ := h.exists_cons
    rw [List.cons_append] at hx ⊢
    rw [skipStart_digit hc, hx]
    rfl
  | negative h =>
    obtain ⟨x, hx⟩ := numeral_append .malformed h hrest
    simp [skipStart, hx, Except.map]

theorem skipKey_append {front key middle : List Char} (hf : Blank front) (hk : IsText key)
    (hm : Blank middle) (rest : List Char) :
    skipKey (front ++ '"' :: (key ++ '"' :: (middle ++ ':' :: rest))) = .ok rest := by
  have hcolon : skipSpace (middle ++ ':' :: rest) = ':' :: rest := skipSpace_mark hm rfl rest
  unfold skipKey
  rw [skipSpace_mark hf rfl]
  simp [hk.skipStringRest_append, hcolon, bind, Except.bind]

theorem skipStart_keyword {c : Char} {word : List Char}
    (h : ∀ s, skipStart (c :: s) = (keyword word s).map fun p => (none, p.2)) (rest : List Char) :
    skipStart (c :: (word ++ rest)) = .ok (none, rest) := by
  rw [h, keyword_append]
  rfl

theorem skipStart_string (h : IsText s) (rest : List Char) :
    skipStart ('"' :: (s ++ '"' :: rest)) = .ok (none, rest) := by
  simp [skipStart, h.skipStringRest_append, Except.map]

theorem skipKey_skipSpace (s : List Char) : skipKey (skipSpace s) = skipKey s := by
  unfold skipKey
  rw [skipSpace_skipSpace]

/-- What the walk does with a part of a text. An item leaves the blanks behind it to be seen to, and
the key of a member has been taken before its value is reached. -/
def Passed : Form → List Char → Prop
  | .value, s => ∀ brackets rest, Ends rest →
    Leads ⟨.value, brackets, s ++ rest⟩ ⟨.after, brackets, rest⟩
  | .item, s => ∃ back, Blank back ∧ ∀ brackets rest, Ends rest →
    Leads ⟨.value, brackets, s ++ rest⟩ ⟨.after, brackets, back ++ rest⟩
  | .items, s => ∀ brackets rest,
    Leads ⟨.value, .list :: brackets, s ++ ']' :: rest⟩ ⟨.after, brackets, rest⟩
  | .member, s => ∃ item back, item.length ≤ s.length ∧ Blank back ∧
    (∀ rest, skipKey (s ++ rest) = .ok (item ++ rest)) ∧
    ∀ brackets rest, Ends rest →
      Leads ⟨.value, brackets, item ++ rest⟩ ⟨.after, brackets, back ++ rest⟩
  | .members, s => ∀ rest, ∃ item, item.length ≤ (s ++ '}' :: rest).length ∧
    skipKey (s ++ '}' :: rest) = .ok item ∧
    ∀ brackets, Leads ⟨.value, .object :: brackets, item⟩ ⟨.after, brackets, rest⟩

theorem Passed.scalar (hs : Begins s)
    (h : ∀ rest, Ends rest → skipStart (s ++ rest) = .ok (none, rest)) : Passed .value s := by
  intro brackets rest hrest
  apply Leads.start (h rest hrest) (hs.skipSpace_append rest)
  obtain ⟨c, t, rfl, _⟩ := hs
  rw [List.length_append, List.length_cons]
  omega

theorem Derives.items_start (h : Derives .items s) (rest : List Char) :
    ∃ c t, skipSpace (s ++ rest) = c :: t ∧ c ≠ ']' := by
  have hitem : ∀ {s}, Derives .item s → ∀ rest,
      ∃ c t, skipSpace (s ++ rest) = c :: t ∧ c ≠ ']' := by
    intro s h rest
    cases h with
    | @item front v back hf h _ =>
      obtain ⟨c, t, rfl, hc, hne, _⟩ := IsValue.begins h
      refine ⟨c, t ++ back ++ rest, ?_, hne⟩
      rw [List.append_assoc]
      exact skipSpace_mark hf hc _
  cases h with
  | lastItem h => exact hitem h rest
  | moreItems h _ =>
    rw [List.append_assoc]
    exact hitem h _

theorem Derives.members_start (h : Derives .members s) (rest : List Char) :
    ∃ t, skipSpace (s ++ rest) = '"' :: t := by
  have hmember : ∀ {s}, Derives .member s → ∀ rest, ∃ t, skipSpace (s ++ rest) = '"' :: t := by
    intro s h rest
    cases h with
    | @member front key middle v hf _ _ _ =>
      refine ⟨key ++ '"' :: (middle ++ ':' :: v) ++ rest, ?_⟩
      rw [List.append_assoc]
      exact skipSpace_mark hf rfl _
  cases h with
  | lastMember h => exact hmember h rest
  | moreMembers h _ =>
    rw [List.append_assoc]
    exact hmember h _

theorem Derives.passed {form : Form} (h : Derives form s) : Passed form s := by
  induction h with
  | null => exact .scalar (IsValue.begins .null) fun rest _ => skipStart_keyword (fun _ => rfl) rest
  | true => exact .scalar (IsValue.begins .true) fun rest _ => skipStart_keyword (fun _ => rfl) rest
  | false =>
    exact .scalar (IsValue.begins .false) fun rest _ => skipStart_keyword (fun _ => rfl) rest
  | number h => exact .scalar h.begins fun rest => skipStart_number h
  | string h =>
    apply Passed.scalar (IsValue.begins (.string h))
    intro rest _
    rw [List.cons_append, List.append_assoc]
    exact skipStart_string h rest
  | @emptyList w hw =>
    intro brackets rest hrest
    rw [List.cons_append, List.append_assoc]
    exact (Leads.opening .list rfl (skipSpace_cons rfl _) (by simp)).trans
      (.close (by decide) .list (skipSpace_mark hw rfl rest))
  | @list s h ih =>
    intro brackets rest hrest
    obtain ⟨c, t, hstart, hc⟩ := h.items_start (']' :: rest)
    rw [List.cons_append, List.append_assoc]
    exact (Leads.opening .list rfl (skipSpace_cons rfl _) (by simp)).trans
      ((Leads.firstItem hstart hc).trans (ih brackets rest))
  | @emptyObject w hw =>
    intro brackets rest hrest
    rw [List.cons_append, List.append_assoc]
    exact (Leads.opening .object rfl (skipSpace_cons rfl _) (by simp)).trans
      (.close (by decide) .object (skipSpace_mark hw rfl rest))
  | @object s h ih =>
    intro brackets rest hrest
    obtain ⟨t, hstart⟩ := h.members_start ('}' :: rest)
    obtain ⟨item, hlength, hkey, hitem⟩ := ih rest
    rw [← skipKey_skipSpace, hstart] at hkey
    rw [List.cons_append, List.append_assoc]
    exact (Leads.opening .object rfl (skipSpace_cons rfl _) (by simp)).trans
      ((Leads.firstMember hstart (by decide) hkey hlength).trans (hitem brackets))
  | @item front s back hf h hb ih =>
    refine ⟨back, hb, ?_⟩
    intro brackets rest hrest
    simp only [List.append_assoc]
    exact (Leads.blank hf _).trans (ih brackets _ (hrest.blank_append hb))
  | @lastItem s h ih =>
    intro brackets rest
    obtain ⟨back, hb, hitem⟩ := ih
    have hclose : skipSpace (back ++ ']' :: rest) = ']' :: rest := skipSpace_mark hb rfl rest
    exact (hitem _ _ (ends_cons_iff.mpr rfl)).trans (.close (by decide) .list hclose)
  | @moreItems s t h ht ih iht =>
    intro brackets rest
    obtain ⟨back, hb, hitem⟩ := ih
    have hcomma := skipSpace_mark (c := ',') hb rfl (t ++ ']' :: rest)
    rw [List.append_assoc, List.cons_append]
    exact (hitem _ _ (ends_cons_iff.mpr rfl)).trans
      ((Leads.nextItem hcomma).trans (iht brackets rest))
  | @member front key middle s hf hk hm h ih =>
    obtain ⟨back, hb, hitem⟩ := ih
    refine ⟨s, back, ?_, hb, ?_, hitem⟩
    · simp
      omega
    · intro rest
      simp only [List.append_assoc, List.cons_append]
      exact skipKey_append hf hk hm _
  | @lastMember s h ih =>
    intro rest
    obtain ⟨item, back, hlength, hb, hkey, hitem⟩ := ih
    refine ⟨item ++ '}' :: rest, by simp [hlength], hkey _, ?_⟩
    intro brackets
    have hclose : skipSpace (back ++ '}' :: rest) = '}' :: rest := skipSpace_mark hb rfl rest
    exact (hitem _ _ (ends_cons_iff.mpr rfl)).trans (.close (by decide) .object hclose)
  | @moreMembers s t h ht ih iht =>
    intro rest
    obtain ⟨item, back, hlength, hb, hkey, hitem⟩ := ih
    obtain ⟨next, hlength', hkey', hnext⟩ := iht rest
    refine ⟨item ++ ',' :: (t ++ '}' :: rest), by simp [hlength], ?_, ?_⟩
    · rw [List.append_assoc]
      exact hkey _
    · intro brackets
      have hcomma := skipSpace_mark (c := ',') hb rfl (t ++ '}' :: rest)
      exact (hitem _ _ (ends_cons_iff.mpr rfl)).trans
        ((Leads.nextMember hcomma hkey' hlength').trans (hnext brackets))

/-- A value is passed over whatever blanks stand before it, and nothing behind it is. -/
theorem skipValue_append {front : List Char} (hf : Blank front) (h : IsValue s)
    (hrest : Ends rest) : skipValue (front ++ (s ++ rest)) = .ok ((), rest) := by
  obtain ⟨n, hn, hskip⟩ := (Leads.blank hf (s ++ rest)).trans (h.passed [] rest hrest)
  have hbudget : n ≤ 2 * (front ++ (s ++ rest)).length := by
    simp only [budget, reduceCtorEq, if_false, Nat.add_zero] at hn
    omega
  obtain ⟨spare, hspare⟩ := Nat.exists_eq_add_of_le (hbudget.trans (Nat.le_add_right _ 2))
  have hwalk : skipFrom (spare + n) .value [] (front ++ (s ++ rest)) = .ok rest := by
    have hend : skip spare ⟨.after, [], rest⟩ = .ok rest := by
      simp [skip, skipFrom]
    rw [← hend, ← hskip spare]
    rfl
  unfold skipValue
  rw [hspare, Nat.add_comm n spare, hwalk]
  rfl

end StreamRelay.Json
