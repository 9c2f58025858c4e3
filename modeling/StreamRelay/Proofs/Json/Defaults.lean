import Mathlib.Tactic.SplitIfs
import StreamRelay.Json.Record

/-!
# Records over varied defaults

How a record is read from a text does not depend on its defaults: with all of them there is the same
fault, or the same rest of the text, and what is read only sets fields of the defaults. A field may
itself be a record with defaults of its own, and these are varied along.
-/

namespace StreamRelay.Json

variable {δ α β ρ : Type}

/-- Answers for varied defaults: the same fault for all of them, or values with a property and the
same rest. -/
inductive Agree (P : (δ → α) → Prop) (answers : δ → Except Fault (α × List Char)) : Prop
  | error (e : Fault) (h : ∀ d, answers d = .error e)
  | ok (a : δ → α) (rest : List Char) (ha : P a) (h : ∀ d, answers d = .ok (a d, rest))

theorem Agree.bind {P : (δ → α) → Prop} {Q : (δ → β) → Prop}
    {answers : δ → Except Fault (α × List Char)}
    {next : δ → α × List Char → Except Fault (β × List Char)} (h : Agree P answers)
    (hnext : ∀ a rest, P a → Agree Q fun d => next d (a d, rest)) :
    Agree Q fun d => answers d >>= next d := by
  cases h with
  | error e h => exact .error e fun d => by rw [h]; rfl
  | ok a rest ha h =>
    have hanswers : (fun d => answers d >>= next d) = fun d => next d (a d, rest) := by
      funext d
      rw [h]
      rfl
    rw [hanswers]
    exact hnext a rest ha

/-- What is read without defaults is the same for all of them. -/
theorem Agree.bind_same {γ : Type} {Q : (δ → β) → Prop} (answer : Except Fault γ)
    {next : δ → γ → Except Fault (β × List Char)} (hnext : ∀ c, Agree Q fun d => next d c) :
    Agree Q fun d => answer >>= next d := by
  cases answer with
  | error e => exact .error e fun _ => rfl
  | ok c => exact hnext c

/-- Where a member or an element starts is the same for all defaults. -/
theorem Agree.start {P : (δ → α) → Prop}
    {next : δ → List Char → Except Fault (α × List Char)} (first : Bool) (c : Char)
    (rest : List Char) (hnext : ∀ start, Agree P fun d => next d start) :
    Agree P fun d =>
      if first = true then pure (c :: rest) >>= next d
      else if c = ',' then pure (skipSpace rest) >>= next d
      else throw .malformed >>= next d := by
  split_ifs <;> exact .bind_same _ hnext

def Keeps (P : (δ → ρ) → Prop) (set : δ → ρ → ρ) : Prop := ∀ r, P r → P fun d => set d (r d)

section

variable {fields : List (Field ρ)} {vary : δ → Field ρ → Field ρ} {P : (δ → ρ) → Prop}

theorem find?_vary (hkey : ∀ d f, (vary d f).key = f.key) (d : δ) (key : String) :
    (fields.map (vary d)).find? (·.key = key) = (fields.find? (·.key = key)).map (vary d) := by
  rw [List.find?_map]
  congr 2
  funext f
  rw [Function.comp_apply, hkey]

/-- A field whose values are read over the defaults. -/
theorem Agree.field {Q : (δ → α) → Prop} {read : δ → Reader α} {set : α → ρ → ρ} {key : String}
    {s : List Char} (h : Agree Q fun d => read d s)
    (hset : ∀ v, Q v → Keeps P fun d => set (v d)) :
    Agree (Keeps P) fun d => (Field.of key (read d) set).read s := by
  have hread (d : δ) : (Field.of key (read d) set).read s =
      (read d s).map fun p => (set p.1, p.2) := rfl
  simp only [hread]
  cases h with
  | error e h => exact .error e fun d => by rw [h]; rfl
  | ok v rest hv h => exact .ok (fun d => set (v d)) rest (hset v hv) fun d => by rw [h]; rfl

/-- A field whose values have no defaults in them. -/
theorem Agree.of {read : Reader α} {set : α → ρ → ρ} (hset : ∀ v, Keeps P fun _ => set v)
    (key : String) (s : List Char) :
    Agree (Keeps P) fun _ : δ => (Field.of key read set).read s := by
  have hsame : Agree (fun v : δ → α => ∃ a, v = fun _ => a) fun _ => read s := by
    cases read s with
    | error e => exact .error e fun _ => rfl
    | ok p => exact .ok (fun _ => p.1) p.2 ⟨p.1, rfl⟩ fun _ => rfl
  refine hsame.field ?_
  rintro _ ⟨a, rfl⟩
  exact hset a

end

/-- A text is no document of any record, or one of all of them. -/
theorem Agree.document {P : (δ → α) → Prop} {read : δ → Reader α} {text : String}
    (h : Agree P fun d => read d text.toList) :
    (∃ e, ∀ d, document (read d) text = .error e) ∨
      ∃ a, P a ∧ ∀ d, document (read d) text = .ok (a d) := by
  unfold Json.document
  cases h with
  | error e h => exact .inl ⟨e, fun d => by rw [h]; rfl⟩
  | ok a rest ha h =>
    by_cases hend : (skipSpace rest).isEmpty = true
    · exact .inr ⟨a, ha, fun d => by rw [h]; exact if_pos hend⟩
    · exact .inl ⟨.malformed, fun d => by rw [h]; exact if_neg hend⟩

end StreamRelay.Json
