import Mathlib.Data.List.Nodup
import StreamRelay.Json.Member
import StreamRelay.Proofs.Json.Skipping

/-!
# Records are read member by member

A record is read from the text of an object whatever the order of its members and the blanks between
them. What has been read so far depends only on the keys met so far: a member with a known key adds
its key, and one with an unknown key changes nothing.
-/

namespace StreamRelay.Json

inductive IsMember (key : String) (value : List Char) : List Char → Prop
  | mk {front name middle before after : List Char} (hn : Spells name key.toList)
    (hf : Blank front) (hm : Blank middle) (hb : Blank before) (ha : Blank after) :
    IsMember key value
      (front ++ '"' :: (name ++ '"' :: (middle ++ ':' :: (before ++ (value ++ after)))))

inductive IsBody : List (String × List Char) → List Char → Prop
  | empty {s : List Char} (hs : Blank s) : IsBody [] s
  | last {key : String} {value s : List Char} (h : IsMember key value s) : IsBody [(key, value)] s
  | more {key : String} {value s t : List Char} {m : String × List Char}
    {ms : List (String × List Char)} (h : IsMember key value s) (ht : IsBody (m :: ms) t) :
    IsBody ((key, value) :: m :: ms) (s ++ ',' :: t)

inductive IsObject (ms : List (String × List Char)) : List Char → Prop
  | mk {s : List Char} (h : IsBody ms s) : IsObject ms ('{' :: (s ++ ['}']))

/-- Members that say what some of the members `written` say, each of these at most once, in any
order and among members with other keys. -/
structure Excerpt (written ms : List (String × List Char)) : Prop where
  known : ∀ m ∈ ms, m.1 ∈ written.map (·.1) → m ∈ written
  unknown : ∀ m ∈ ms, m.1 ∉ written.map (·.1) → IsValue m.2
  once : ((ms.map (·.1)).filter (· ∈ written.map (·.1))).Nodup

def Value.texts (v : Value) : List (String × List Char) := v.members.map fun m => (m.1, m.2.chars)

theorem Excerpt.refl {written : List (String × List Char)} (h : (written.map (·.1)).Nodup) :
    Excerpt written written where
  known _ hm _ := hm
  unknown _ hm hkey := absurd (List.mem_map_of_mem hm) hkey
  once := h.filter _

theorem isMember_quote (key : String) (value : List Char) :
    IsMember key value (Value.quote key ++ ':' :: value) := by
  have h : IsMember key value _ :=
    .mk (spells_escaped key.toList) blank_nil blank_nil blank_nil blank_nil
  simpa [quote_eq] using h

theorem isBody_memberChars (ms : List (String × Value)) :
    IsBody (ms.map fun m => (m.1, m.2.chars)) (Value.memberChars ms) := by
  induction ms with
  | nil =>
    rw [Value.memberChars]
    exact .empty blank_nil
  | cons m ms ih =>
    cases ms with
    | nil =>
      rw [Value.memberChars]
      exact .last (isMember_quote _ _)
    | cons m' ms =>
      rw [Value.memberChars]
      · exact .more (isMember_quote _ _) ih
      · intro h
        contradiction

/-- What is written for an object is one with its members. -/
theorem isObject_chars (ms : List (String × Value)) :
    IsObject (Value.texts (.object ms)) (Value.chars (.object ms)) := by
  rw [Value.chars]
  exact .mk (isBody_memberChars ms)

theorem IsBody.length_le {ms : List (String × List Char)} {s : List Char} (h : IsBody ms s) :
    ms.length ≤ s.length := by
  have hpos : ∀ {key value s}, IsMember key value s → 0 < s.length := by
    rintro _ _ _ ⟨⟩
    simp
  induction h with
  | empty => simp
  | last h =>
    have := hpos h
    simp
    omega
  | more h _ ih =>
    have := hpos h
    simp at ih ⊢
    omega

section

variable {ρ α : Type} {fields : List (Field ρ)} {made : List String → ρ} {key : String}
variable {value s rest : List Char} {seen : List String} {r : ρ}

/-- How a record takes a member. `made keys` is what has been read when the keys so far are
`keys`. -/
inductive Takes (fields : List (Field ρ)) (made : List String → ρ) (key : String)
    (value : List Char) : Prop
  | unknown (hkey : key ∉ fields.map (·.key)) (hvalue : IsValue value)
    (hmade : ∀ keys, made (keys ++ [key]) = made keys)
  | known {field : Field ρ} {set : ρ → ρ} (hkey : fields.find? (·.key = key) = some field)
    (hread : ∀ {front rest}, Blank front → Ends rest →
      field.read (front ++ (value ++ rest)) = .ok (set, rest))
    (hmade : ∀ keys, set (made keys) = made (keys ++ [key]))

theorem Takes.of {read : Reader α} {set : α → ρ → ρ} {a : α}
    (hkey : fields.find? (·.key = key) = some (.of key read set))
    (hread : ∀ {front rest}, Blank front → Ends rest →
      read (front ++ (value ++ rest)) = .ok (a, rest))
    (hmade : ∀ keys, set a (made keys) = made (keys ++ [key])) : Takes fields made key value := by
  apply Takes.known hkey _ hmade
  intro front rest hf hrest
  simp [Field.of, hread hf hrest, Except.map]

theorem Takes.nat {set : Nat → ρ → ρ} {n : Nat} (hn : n < Text.wordSize)
    (hkey : fields.find? (·.key = key) = some (.of key word set))
    (hmade : ∀ keys, set n (made keys) = made (keys ++ [key])) :
    Takes fields made key (Value.nat n).chars :=
  .of hkey (word_toDigits hn) hmade

theorem Takes.string {set : String → ρ → ρ} {text : String}
    (hkey : fields.find? (·.key = key) = some (.of key Json.string set))
    (hmade : ∀ keys, set text (made keys) = made (keys ++ [key])) :
    Takes fields made key (Value.string text).chars :=
  .of hkey (fun hf _ => string_quote text hf _) hmade

theorem Takes.parsed {parse : String → Option α} {set : α → ρ → ρ} {text : String} {a : α}
    (ha : parse text = some a)
    (hkey : fields.find? (·.key = key) = some (.of key (Json.parsed parse) set))
    (hmade : ∀ keys, set a (made keys) = made (keys ++ [key])) :
    Takes fields made key (Value.string text).chars :=
  .of hkey (fun hf _ => parsed_quote ha hf _) hmade

theorem Takes.choice {names : List (String × α)} {set : α → ρ → ρ} {name : String} {a : α}
    (ha : names.lookup name = some a)
    (hkey : fields.find? (·.key = key) = some (.of key (Json.choice names) set))
    (hmade : ∀ keys, set a (made keys) = made (keys ++ [key])) :
    Takes fields made key (Value.string name).chars :=
  .of hkey (fun hf _ => choice_quote ha hf _) hmade

theorem members_blank (hs : Blank s) (bound : Nat) (first : Bool) (rest : List Char) :
    members fields bound first seen r (s ++ rest) = members fields bound first seen r rest := by
  cases bound with
  | zero => rfl
  | succ bound => simp only [members, skipSpace_append hs]

theorem members_close (bound : Nat) (first : Bool) (rest : List Char) :
    members fields (bound + 1) first seen r ('}' :: rest) = .ok (r, rest) := by
  have hclose : skipSpace ('}' :: rest) = '}' :: rest := skipSpace_cons rfl rest
  simp [members, hclose]

theorem colon_append (hs : Blank s) (rest : List Char) :
    colon (s ++ ':' :: rest) = .ok ((), rest) := by
  have hmark : skipSpace (s ++ ':' :: rest) = ':' :: rest := skipSpace_mark hs rfl rest
  simp [colon, hmark]

def Fresh (fields : List (Field ρ)) (keys seen : List String) : Prop :=
  (keys.filter (· ∈ fields.map (·.key)) ++ seen).Nodup

def meet (fields : List (Field ρ)) (key : String) (seen : List String) : List String :=
  if key ∈ fields.map (·.key) then key :: seen else seen

theorem Fresh.not_mem {keys : List String} (h : Fresh fields (key :: keys) seen)
    (hkey : key ∈ fields.map (·.key)) : key ∉ seen := by
  rw [Fresh, List.filter_cons_of_pos (by simpa using hkey), List.cons_append,
    List.nodup_cons] at h
  intro hseen
  exact h.1 (List.mem_append_right _ hseen)

theorem Fresh.meet {keys : List String} (h : Fresh fields (key :: keys) seen) :
    Fresh fields keys (meet fields key seen) := by
  unfold Fresh Json.meet at *
  split
  · rename_i hkey
    rw [List.filter_cons_of_pos (by simpa using hkey), List.cons_append] at h
    exact List.nodup_middle.mpr h
  · rename_i hkey
    rwa [List.filter_cons_of_neg (by simpa using hkey)] at h

/-- One member, alone behind the opening brace or behind a comma. -/
theorem members_member (first : Bool) (hs : IsMember key value s)
    (ht : Takes fields made key value) (hseen : key ∈ fields.map (·.key) → key ∉ seen)
    (hrest : Ends rest) (bound : Nat) (keys : List String) :
    members fields (bound + 1) first seen (made keys)
        ((if first then [] else [',']) ++ (s ++ rest)) =
      members fields bound false (meet fields key seen) (made (keys ++ [key])) rest := by
  obtain @⟨front, name, middle, before, after, hn, hf, hm, hb, ha⟩ := hs
  have hquote := skipSpace_mark (c := '"') hf rfl
    (name ++ '"' :: (middle ++ ':' :: (before ++ (value ++ (after ++ rest)))))
  have hcomma := skipSpace_cons (c := ',') rfl
    (front ++ '"' :: (name ++ '"' :: (middle ++ ':' :: (before ++ (value ++ (after ++ rest))))))
  have hname := hn.stringRest_append (middle ++ ':' :: (before ++ (value ++ (after ++ rest))))
  have hcolon := colon_append hm (before ++ (value ++ (after ++ rest)))
  have hends := hrest.blank_append ha
  cases ht with
  | unknown hkey hvalue hmade =>
    have hfind : fields.find? (·.key = key) = none := by
      simpa using hkey
    have hskip := skipValue_append hb hvalue hends
    rw [meet, if_neg hkey, hmade, ← members_blank ha bound false rest]
    cases first <;>
      simp [members, hquote, hcomma, hname, hfind, hcolon, hskip, bind, Except.bind, pure,
        Except.pure]
  | known hkey hread hmade =>
    have hmem : key ∈ fields.map (·.key) := by
      have hsame := List.find?_some hkey
      exact List.mem_map.mpr ⟨_, List.mem_of_find?_eq_some hkey, by simpa using hsame⟩
    rw [meet, if_pos hmem, ← hmade, ← members_blank ha bound false rest]
    cases first <;>
      simp [members, hquote, hcomma, hname, hkey, hseen hmem, hcolon, hread hb hends, bind,
        Except.bind, pure, Except.pure]

/-- All members up to the closing brace. Only the first one has no comma before it, and the keys to
come stay fresh as the ones met are added to those seen. -/
theorem members_body {ms : List (String × List Char)} (hs : IsBody ms s) (first : Bool)
    (hfirst : ms = [] → first = true) (ht : ∀ m ∈ ms, Takes fields made m.1 m.2)
    (hfresh : Fresh fields (ms.map (·.1)) seen) {bound : Nat} (hbound : ms.length < bound)
    (keys : List String) (rest : List Char) :
    members fields bound first seen (made keys)
        ((if first then [] else [',']) ++ (s ++ '}' :: rest)) =
      .ok (made (keys ++ ms.map (·.1)), rest) := by
  induction hs generalizing first seen bound keys with
  | empty hs =>
    obtain ⟨bound, rfl⟩ := Nat.exists_eq_succ_of_ne_zero (Nat.ne_zero_of_lt hbound)
    rw [hfirst rfl, if_pos rfl, List.nil_append, members_blank hs, members_close, List.map_nil,
      List.append_nil]
  | last h =>
    have htwo : 2 ≤ bound := hbound
    obtain ⟨bound, rfl⟩ := Nat.exists_eq_add_of_le' htwo
    rw [members_member first h (ht _ List.mem_cons_self) hfresh.not_mem (ends_cons_iff.mpr rfl),
      members_close]
    rfl
  | @more key value s t m ms h hs ih =>
    obtain ⟨bound, rfl⟩ := Nat.exists_eq_succ_of_ne_zero (Nat.ne_zero_of_lt hbound)
    have hrest := ih false (by simp) (fun m hm => ht m (List.mem_cons_of_mem _ hm))
      hfresh.meet (Nat.lt_of_succ_lt_succ hbound) (keys ++ [key])
    rw [List.append_assoc, List.cons_append,
      members_member first h (ht _ List.mem_cons_self) hfresh.not_mem (ends_cons_iff.mpr rfl)]
    simpa using hrest

/-- What a record is read as when some of its members are written, each at most once, and others may
stand between them. -/
theorem record_append {written ms : List (String × List Char)} {front : List Char}
    (hkeys : written.map (·.1) = fields.map (·.key))
    (hknown : ∀ m ∈ written, Takes fields made m.1 m.2)
    (hunknown : ∀ key ∉ fields.map (·.key), ∀ keys, made (keys ++ [key]) = made keys)
    (hms : Excerpt written ms) (hs : IsObject ms s) (hf : Blank front) (rest : List Char) :
    record fields (made []) (front ++ (s ++ rest)) = .ok (made (ms.map (·.1)), rest) := by
  obtain ⟨hbody⟩ := hs
  rename_i s
  have htakes : ∀ m ∈ ms, Takes fields made m.1 m.2 := by
    intro m hm
    by_cases hkey : m.1 ∈ fields.map (·.key)
    · exact hknown m (hms.known m hm (hkeys ▸ hkey))
    · exact .unknown hkey (hms.unknown m hm (hkeys ▸ hkey)) (hunknown m.1 hkey)
  have hfresh : Fresh fields (ms.map (·.1)) [] := by
    have honce := hms.once
    rw [hkeys] at honce
    rwa [Fresh, List.append_nil]
  have hbound : ms.length < (s ++ '}' :: rest).length + 1 := by
    have := hbody.length_le
    simp
    omega
  have hread := members_body hbody true (fun _ => rfl) htakes hfresh hbound [] rest
  have hopen := skipSpace_mark (c := '{') hf rfl (s ++ '}' :: rest)
  rw [List.nil_append] at hread
  simpa [record, hopen] using hread

/-- A document is its value with blanks around it. -/
theorem document_append {read : Reader ρ} {front back : List Char}
    (h : read (front ++ (s ++ back)) = .ok (r, back)) (hb : Blank back) :
    document read (String.ofList (front ++ (s ++ back))) = .ok r := by
  have hend : skipSpace back = [] := by
    have hskip := skipSpace_append hb []
    rwa [List.append_nil] at hskip
  simp [document, h, hend, bind, Except.bind]

end

end StreamRelay.Json
