import StreamRelay.Frame.Writer
import StreamRelay.Proofs.Frame.Grammar

/-!
# Sending over a failing stream

What a writer does to its stream, call by call, however the stream behaves. Each write offers what
is left of the frame that is being sent, and no flush comes before all of it was taken; so the
stream has whole frames of the payloads that were sent or only not flushed, the beginning of each
frame at which a write failed, and nothing of a payload that was refused.
-/

namespace StreamRelay.Frame

namespace Writer

namespace Call

def taken : Call → Bytes
  | .write offered outcome => outcome.taken offered
  | .flush _ => []

def offered : Call → Bytes
  | .write offered _ => offered
  | .flush _ => []

def Breaks : Call → Prop
  | .write _ (.failed cause) => cause.isInterrupted = false
  | _ => False

/-- A write is accepted, but nothing of what it offers. -/
def Closes : Call → Prop
  | .write offered (.accept limit) => (WriteOutcome.accept limit).taken offered = []
  | _ => False

def Unflushed : Call → Prop
  | .flush (some cause) => cause.isInterrupted = false
  | _ => False

def cause? : Call → Option SystemError
  | .write _ (.failed cause) => some cause
  | .write _ (.accept _) => none
  | .flush failure => failure

end Call

structure Made (w : Writer) (calls : List Call) (w' : Writer) : Prop where
  calls_eq : w'.calls = w.calls ++ calls
  taken_eq : w'.stream.taken = w.stream.taken ++ calls.flatMap Call.taken
  maxPayload_eq : w'.maxPayload = w.maxPayload

namespace Made

variable {w w₁ w₂ : Writer} {calls more : List Call}

theorem refl (w : Writer) : Made w [] w := ⟨by simp, by simp, rfl⟩

theorem trans (h₁ : Made w calls w₁) (h₂ : Made w₁ more w₂) : Made w (calls ++ more) w₂ where
  calls_eq := by rw [h₂.calls_eq, h₁.calls_eq, List.append_assoc]
  taken_eq := by rw [h₂.taken_eq, h₁.taken_eq, List.flatMap_append, List.append_assoc]
  maxPayload_eq := h₂.maxPayload_eq.trans h₁.maxPayload_eq

theorem write {offered : Bytes} {outcome : WriteOutcome} (h : w.write offered = (outcome, w₁)) :
    Made w [.write offered outcome] w₁ := by
  simp only [Writer.write, Sink.write, Prod.mk.injEq] at h
  obtain ⟨rfl, rfl⟩ := h
  cases w.stream.writesComing with
  | nil => exact ⟨rfl, by simp [Sink.took, Call.taken, WriteOutcome.taken], rfl⟩
  | cons outcome rest => exact ⟨rfl, by simp [Sink.took, Call.taken], rfl⟩

theorem flush {failure : Option SystemError} (h : w.flush = (failure, w₁)) :
    Made w [.flush failure] w₁ := by
  simp only [Writer.flush, Sink.flush, Prod.mk.injEq] at h
  obtain ⟨rfl, rfl⟩ := h
  cases w.stream.flushesComing with
  | nil => exact ⟨rfl, by simp [Call.taken], rfl⟩
  | cons failure rest => exact ⟨rfl, by simp [Call.taken], rfl⟩

end Made

/-- The calls that are made while `pending` is left of a frame, and the answer they lead to. -/
inductive Sends : Bytes → List Call → Except Error Unit → Prop
  | flushed : Sends [] [.flush none] (.ok ())
  | unflushed {cause : SystemError} (hi : cause.isInterrupted = false) :
    Sends [] [.flush (some cause)] (.error (.io cause))
  | flushAgain {cause : SystemError} {calls : List Call} {answer : Except Error Unit}
    (hi : cause.isInterrupted = true) (h : Sends [] calls answer) :
    Sends [] (.flush (some cause) :: calls) answer
  | broken {pending : Bytes} {cause : SystemError} (hp : pending ≠ [])
    (hi : cause.isInterrupted = false) :
    Sends pending [.write pending (.failed cause)] (.error (.io cause))
  | writeAgain {pending : Bytes} {cause : SystemError} {calls : List Call}
    {answer : Except Error Unit} (hp : pending ≠ []) (hi : cause.isInterrupted = true)
    (h : Sends pending calls answer) :
    Sends pending (.write pending (.failed cause) :: calls) answer
  | closed {pending : Bytes} {limit : Option Nat} (hp : pending ≠ [])
    (ht : (WriteOutcome.accept limit).taken pending = []) :
    Sends pending [.write pending (.accept limit)] (.error .connectionClosed)
  | part {pending rest : Bytes} {limit : Option Nat} {calls : List Call}
    {answer : Except Error Unit} (ht : (WriteOutcome.accept limit).taken pending ≠ [])
    (hrest : (WriteOutcome.accept limit).taken pending ++ rest = pending)
    (h : Sends rest calls answer) :
    Sends pending (.write pending (.accept limit) :: calls) answer

def Leads (pending : Bytes) (calls : List Call) : Except Error Unit → Prop
  | .error e => Sends pending calls (.error e)
  | .ok () => ∀ more answer, Sends [] more answer → Sends pending (calls ++ more) answer

theorem drop_ne_nil {b : Bytes} {n : Nat} (h : n < b.length) : b.drop n ≠ [] := by
  intro hnil
  have := List.drop_eq_nil_iff.mp hnil
  omega

/-- A call takes a front part of what it is offered. -/
theorem taken_append_drop (offered : Bytes) (outcome : WriteOutcome) :
    outcome.taken offered ++ offered.drop (outcome.taken offered).length = offered := by
  refine List.prefix_iff_eq_append.mp ?_
  cases outcome with
  | failed cause => exact List.nil_prefix
  | accept limit => exact List.take_prefix _ _

section
variable {pending rest : Bytes} {calls : List Call} {answer : Except Error Unit}

theorem Leads.writeAgain {cause : SystemError} (hp : pending ≠ []) (hi : cause.isInterrupted = true)
    (h : Leads pending calls answer) :
    Leads pending (.write pending (.failed cause) :: calls) answer := by
  cases answer with
  | error e => exact Sends.writeAgain hp hi h
  | ok _ => exact fun more answer hmore => .writeAgain hp hi (h more answer hmore)

theorem Leads.part {limit : Option Nat} (ht : (WriteOutcome.accept limit).taken pending ≠ [])
    (hrest : (WriteOutcome.accept limit).taken pending ++ rest = pending)
    (h : Leads rest calls answer) :
    Leads pending (.write pending (.accept limit) :: calls) answer := by
  cases answer with
  | error e => exact Sends.part ht hrest h
  | ok _ => exact fun more answer hmore => .part ht hrest (h more answer hmore)

end

variable {w w' : Writer} {answer : Except Error Unit}

theorem writeFrom_leads {written : Nat} (h : w.writeFrom written = (answer, w')) :
    ∃ calls, Made w calls w' ∧ Leads (w.buffer.drop written) calls answer := by
  fun_induction writeFrom w written with
  | case1 w written hlt cause w₁ hw hi ih =>
    obtain ⟨calls, hmade, hleads⟩ := ih h
    obtain ⟨hbuffer, _⟩ := write_step hw
    rw [hbuffer] at hleads
    exact ⟨_, (Made.write hw).trans hmade, hleads.writeAgain (drop_ne_nil hlt) hi⟩
  | case2 w written hlt cause w₁ hw hi =>
    cases h
    have hi : cause.isInterrupted = false := by simpa using hi
    exact ⟨_, .write hw, Sends.broken (drop_ne_nil hlt) hi⟩
  | case3 w written hlt limit w₁ hw n hn =>
    cases h
    exact ⟨_, .write hw, Sends.closed (drop_ne_nil hlt) (List.length_eq_zero_iff.mp hn)⟩
  | case4 w written hlt limit w₁ hw n hn ih =>
    obtain ⟨calls, hmade, hleads⟩ := ih h
    obtain ⟨hbuffer, _⟩ := write_step hw
    rw [hbuffer, ← List.drop_drop] at hleads
    have ht : (WriteOutcome.accept limit).taken (w.buffer.drop written) ≠ [] :=
      fun hnil => hn (List.length_eq_zero_iff.mpr hnil)
    exact ⟨_, (Made.write hw).trans hmade, hleads.part ht (taken_append_drop _ _)⟩
  | case5 w written hlt =>
    have hnil : w.buffer.drop written = [] := List.drop_eq_nil_iff.mpr (Nat.not_lt.mp hlt)
    rw [hnil]
    cases h
    exact ⟨[], .refl _, fun more answer hmore => hmore⟩

theorem flushAll_sends (h : w.flushAll = (answer, w')) :
    ∃ calls, Made w calls w' ∧ Sends [] calls answer := by
  fun_induction flushAll w with
  | case1 w w₁ hf =>
    cases h
    exact ⟨_, .flush hf, .flushed⟩
  | case2 w cause w₁ hf hi ih =>
    obtain ⟨calls, hmade, hsends⟩ := ih h
    exact ⟨_, (Made.flush hf).trans hmade, .flushAgain hi hsends⟩
  | case3 w cause w₁ hf hi =>
    cases h
    exact ⟨_, .flush hf, .unflushed (by simpa using hi)⟩

/-- A payload beyond a limit is refused without a call; of any other one the whole frame is what is
left at first, whatever the buffer held. -/
theorem send_cases {payload : Bytes} (h : w.send payload = (answer, w')) :
    ((w.maxPayload < payload.length ∨ wireMaxPayload < payload.length) ∧ Made w [] w' ∧
      answer = .error (.payloadTooLarge payload.length
        (if w.maxPayload < payload.length then w.maxPayload else wireMaxPayload))) ∨
    (¬ (w.maxPayload < payload.length ∨ wireMaxPayload < payload.length) ∧
      ∃ calls front, encode payload = .ok front ∧ Made w calls w' ∧ Sends front calls answer) := by
  unfold send at h
  by_cases hm : w.maxPayload < payload.length
  · rw [if_pos hm] at h
    cases h
    exact .inl ⟨.inl hm, .refl w, by rw [if_pos hm]⟩
  · rw [if_neg hm] at h
    by_cases hw : wireMaxPayload < payload.length
    · have hencode : encode payload = .error (.payloadTooLarge payload.length wireMaxPayload) :=
        if_pos hw
      simp only [hencode, Prod.mk.injEq] at h
      obtain ⟨rfl, rfl⟩ := h
      exact .inl ⟨.inr hw, ⟨by simp, by simp, rfl⟩, by rw [if_neg hm]⟩
    · have hencode : encode payload = .ok (wire payload) := if_neg hw
      refine .inr ⟨not_or.mpr ⟨hm, hw⟩, ?_⟩
      simp only [hencode, List.nil_append] at h
      have hcleared : Made w [] { w with buffer := wire payload } := ⟨by simp, by simp, rfl⟩
      cases hwrite : writeFrom { w with buffer := wire payload } 0 with
      | mk written w₁ =>
        obtain ⟨calls, hmade, hleads⟩ := writeFrom_leads hwrite
        cases written with
        | error e =>
          simp only [hwrite, Prod.mk.injEq] at h
          obtain ⟨rfl, rfl⟩ := h
          exact ⟨calls, wire payload, hencode, hcleared.trans hmade, hleads⟩
        | ok _ =>
          simp only [hwrite] at h
          obtain ⟨more, hflushed, hsends⟩ := flushAll_sends h
          exact ⟨calls ++ more, wire payload, hencode, (hcleared.trans hmade).trans hflushed,
            hleads more answer hsends⟩

section
variable {pending rest : Bytes} {calls before after : List Call} {c : Call}

theorem offers_cons {head : Call} (hhead : head.offered = pending)
    (htail : ∀ before, calls = before ++ c :: after →
      pending = head.taken ++ (before.flatMap Call.taken ++ c.offered))
    (hc : head :: calls = before ++ c :: after) :
    pending = before.flatMap Call.taken ++ c.offered := by
  rcases List.cons_eq_append_iff.mp hc with ⟨rfl, h⟩ | ⟨before, rfl, h⟩
  · obtain ⟨rfl, _⟩ := List.cons.inj h
    exact hhead.symm
  · rw [List.flatMap_cons, List.append_assoc]
    exact htail before h

/-- Every call offers what was not taken by the calls before it; so a flush comes behind all of it.
-/
theorem Sends.offers (h : Sends pending calls answer) (hc : calls = before ++ c :: after) :
    pending = before.flatMap Call.taken ++ c.offered := by
  induction h generalizing before with
  | flushed => exact offers_cons rfl (by simp) hc
  | unflushed hi => exact offers_cons rfl (by simp) hc
  | flushAgain hi h ih =>
    exact offers_cons rfl (fun _ htail => by simpa [Call.taken] using ih htail) hc
  | broken hp hi => exact offers_cons rfl (by simp) hc
  | writeAgain hp hi h ih =>
    refine offers_cons rfl (fun _ htail => ?_) hc
    simpa [Call.taken, WriteOutcome.taken] using ih htail
  | closed hp ht => exact offers_cons rfl (by simp) hc
  | part ht hrest h ih =>
    refine offers_cons rfl (fun _ htail => ?_) hc
    rw [← ih htail]
    exact hrest.symm

theorem Sends.closed_iff (h : Sends pending calls answer) :
    answer = .error .connectionClosed ↔ ∃ c ∈ calls, c.Closes := by
  induction h with
  | flushed => simp [Call.Closes]
  | unflushed hi => simp [Call.Closes]
  | flushAgain hi h ih => simpa [Call.Closes] using ih
  | broken hp hi => simp [Call.Closes]
  | writeAgain hp hi h ih => simpa [Call.Closes] using ih
  | closed hp ht => simp [Call.Closes, ht]
  | part ht hrest h ih => simpa [Call.Closes, ht] using ih

theorem io_single {head : Call} {failed cause : SystemError} (hc : head.cause? = some failed)
    (hi : failed.isInterrupted = false) :
    (Except.error (.io failed) : Except Error Unit) = .error (.io cause) ↔
      cause.isInterrupted = false ∧ ∃ c ∈ [head], c.cause? = some cause := by
  simp only [Except.error.injEq, Error.io.injEq, List.mem_singleton, exists_eq_left, hc,
    Option.some.injEq]
  constructor
  · rintro rfl
    exact ⟨hi, rfl⟩
  · exact And.right

theorem io_again {head : Call} {failed cause : SystemError} (hc : head.cause? = some failed)
    (hi : failed.isInterrupted = true) :
    (cause.isInterrupted = false ∧ ∃ c ∈ head :: calls, c.cause? = some cause) ↔
      cause.isInterrupted = false ∧ ∃ c ∈ calls, c.cause? = some cause := by
  have hne : cause.isInterrupted = false → failed ≠ cause := by
    rintro h rfl
    simp [hi] at h
  simp only [List.mem_cons, exists_eq_or_imp, hc, Option.some.injEq]
  constructor
  · rintro ⟨h, hcause | hrest⟩
    · exact absurd hcause (hne h)
    · exact ⟨h, hrest⟩
  · rintro ⟨h, hrest⟩
    exact ⟨h, .inr hrest⟩

theorem Sends.io_iff (h : Sends pending calls answer) (cause : SystemError) :
    answer = .error (.io cause) ↔
      cause.isInterrupted = false ∧ ∃ c ∈ calls, c.cause? = some cause := by
  induction h with
  | flushed => simp [Call.cause?]
  | unflushed hi => exact io_single rfl hi
  | flushAgain hi h ih => exact ih.trans (io_again rfl hi).symm
  | broken hp hi => exact io_single rfl hi
  | writeAgain hp hi h ih => exact ih.trans (io_again rfl hi).symm
  | closed hp ht => simp [Call.cause?]
  | part ht hrest h ih => simpa [Call.cause?] using ih

structure Whole (pending : Bytes) (calls : List Call) (answer : Except Error Unit) : Prop where
  taken_eq : calls.flatMap Call.taken = pending
  ends : answer = .ok () ∨ ∃ c ∈ calls, c.Unflushed
  writes : ∀ c ∈ calls, ¬ c.Breaks ∧ ¬ c.Closes

structure Part (pending : Bytes) (calls : List Call) (answer : Except Error Unit) : Prop where
  taken_eq : ∃ rest, rest ≠ [] ∧ calls.flatMap Call.taken ++ rest = pending
  ends : ∃ c ∈ calls, c.Breaks ∨ c.Closes
  answer_ne : answer ≠ .ok ()
  flushes : ∀ c ∈ calls, ¬ c.Unflushed

theorem Whole.cons (h : Whole rest calls answer) (hc : c.taken ++ rest = pending)
    (hwrite : ¬ c.Breaks ∧ ¬ c.Closes) : Whole pending (c :: calls) answer where
  taken_eq := by rw [List.flatMap_cons, h.taken_eq, hc]
  ends := h.ends.imp_right fun ⟨c, hmem, hflush⟩ => ⟨c, List.mem_cons_of_mem _ hmem, hflush⟩
  writes := List.forall_mem_cons.mpr ⟨hwrite, h.writes⟩

theorem Part.cons (h : Part rest calls answer) (hc : c.taken ++ rest = pending)
    (hflush : ¬ c.Unflushed) : Part pending (c :: calls) answer where
  taken_eq := by
    obtain ⟨left, hleft, htaken⟩ := h.taken_eq
    exact ⟨left, hleft, by rw [List.flatMap_cons, List.append_assoc, htaken, hc]⟩
  ends := by
    obtain ⟨c, hmem, hfails⟩ := h.ends
    exact ⟨c, List.mem_cons_of_mem _ hmem, hfails⟩
  answer_ne := h.answer_ne
  flushes := List.forall_mem_cons.mpr ⟨hflush, h.flushes⟩

theorem Sends.whole_or_part (h : Sends pending calls answer) :
    Whole pending calls answer ∨ Part pending calls answer := by
  induction h with
  | flushed => exact .inl ⟨rfl, .inl rfl, by simp [Call.Breaks, Call.Closes]⟩
  | unflushed hi =>
    exact .inl ⟨rfl, .inr (by simpa [Call.Unflushed] using hi), by simp [Call.Breaks, Call.Closes]⟩
  | flushAgain hi h ih =>
    refine ih.imp (fun h => h.cons rfl (by simp [Call.Breaks, Call.Closes])) fun h => h.cons rfl ?_
    simp [Call.Unflushed, hi]
  | @broken pending cause hp hi =>
    refine .inr ⟨⟨pending, hp, rfl⟩, ?_, by simp, by simp [Call.Unflushed]⟩
    simpa [Call.Breaks, Call.Closes] using hi
  | writeAgain hp hi h ih =>
    refine ih.imp (fun h => h.cons rfl ?_) fun h => h.cons rfl (by simp [Call.Unflushed])
    simp [Call.Breaks, Call.Closes, hi]
  | @closed pending limit hp ht =>
    refine .inr ⟨⟨pending, hp, ?_⟩, ?_, by simp, by simp [Call.Unflushed]⟩
    · simp [Call.taken, ht]
    · simpa [Call.Breaks, Call.Closes] using ht
  | part ht hrest h ih =>
    refine ih.imp (fun h => h.cons hrest ?_) fun h => h.cons hrest (by simp [Call.Unflushed])
    simpa [Call.Breaks, Call.Closes] using ht

theorem Sends.ne_payloadTooLarge (h : Sends pending calls answer) (size limit : Nat) :
    answer ≠ .error (.payloadTooLarge size limit) := by
  induction h <;> first | assumption | simp

end

structure Sending where
  payload : Bytes
  answer : Except Error Unit
  calls : List Call

namespace Sending

def taken (x : Sending) : Bytes := x.calls.flatMap Call.taken

def IsRefused (max : Nat) (x : Sending) : Prop :=
  max < x.payload.length ∨ wireMaxPayload < x.payload.length

def FailsWriting (x : Sending) : Prop := ∃ c ∈ x.calls, c.Breaks

def FindsClosed (x : Sending) : Prop := ∃ c ∈ x.calls, c.Closes

def FailsFlushing (x : Sending) : Prop := ∃ c ∈ x.calls, c.Unflushed

structure Exact (max : Nat) (x : Sending) : Prop where
  covered : x.answer = .ok () ∨ x.FailsFlushing ∨ x.FailsWriting ∨ x.FindsClosed ∨ x.IsRefused max
  whole : x.answer = .ok () ∨ x.FailsFlushing → encode x.payload = .ok x.taken
  part : x.FailsWriting ∨ x.FindsClosed →
    ∃ rest, rest ≠ [] ∧ encode x.payload = .ok (x.taken ++ rest)
  closed_iff : x.answer = .error .connectionClosed ↔ x.FindsClosed
  refused : x.IsRefused max → x.calls = [] ∧ x.answer = .error (.payloadTooLarge x.payload.length
    (if max < x.payload.length then max else wireMaxPayload))
  refused_of : ∀ size limit, x.answer = .error (.payloadTooLarge size limit) → x.IsRefused max
  io_iff : ∀ cause, x.answer = .error (.io cause) ↔
    cause.isInterrupted = false ∧ ∃ c ∈ x.calls, c.cause? = some cause
  flushes : ∀ before failure after, x.calls = before ++ .flush failure :: after →
    encode x.payload = .ok (before.flatMap Call.taken)
  offers : ∀ before offered outcome after, x.calls = before ++ .write offered outcome :: after →
    encode x.payload = .ok (before.flatMap Call.taken ++ offered)

theorem exact_of_refused {max : Nat} {payload : Bytes}
    (hr : max < payload.length ∨ wireMaxPayload < payload.length)
    (ha : answer = .error (.payloadTooLarge payload.length
      (if max < payload.length then max else wireMaxPayload))) :
    Exact max ⟨payload, answer, []⟩ where
  covered := .inr (.inr (.inr (.inr hr)))
  whole h := by simp [FailsFlushing, ha] at h
  part h := by simp [FailsWriting, FindsClosed] at h
  closed_iff := by simp [FindsClosed, ha]
  refused _ := ⟨rfl, ha⟩
  refused_of _ _ _ := hr
  io_iff cause := by simp [ha]
  flushes before failure after h := by simp at h
  offers before offered outcome after h := by simp at h

theorem exact_of_sends {max : Nat} {payload front : Bytes} {calls : List Call}
    (hr : ¬ (max < payload.length ∨ wireMaxPayload < payload.length))
    (hf : encode payload = .ok front) (h : Sends front calls answer) :
    Exact max ⟨payload, answer, calls⟩ where
  covered := by
    rcases h.whole_or_part with hwhole | hpart
    · exact hwhole.ends.imp_right .inl
    · obtain ⟨c, hc, hbreaks | hcloses⟩ := hpart.ends
      · exact .inr (.inr (.inl ⟨c, hc, hbreaks⟩))
      · exact .inr (.inr (.inr (.inl ⟨c, hc, hcloses⟩)))
  whole hends := by
    rcases h.whole_or_part with hwhole | hpart
    · exact hf.trans (congrArg _ hwhole.taken_eq.symm)
    · rcases hends with hok | ⟨c, hc, hflush⟩
      · exact absurd hok hpart.answer_ne
      · exact absurd hflush (hpart.flushes c hc)
  part hfails := by
    rcases h.whole_or_part with hwhole | hpart
    · rcases hfails with ⟨c, hc, hbreaks⟩ | ⟨c, hc, hcloses⟩
      · exact absurd hbreaks (hwhole.writes c hc).1
      · exact absurd hcloses (hwhole.writes c hc).2
    · obtain ⟨rest, hrest, htaken⟩ := hpart.taken_eq
      exact ⟨rest, hrest, hf.trans (congrArg _ htaken.symm)⟩
  closed_iff := h.closed_iff
  refused hrefused := absurd hrefused hr
  refused_of size limit ha := absurd ha (h.ne_payloadTooLarge size limit)
  io_iff := h.io_iff
  flushes before failure after hc := by
    have hoffers := h.offers hc
    rw [Call.offered, List.append_nil] at hoffers
    exact hf.trans (congrArg _ hoffers)
  offers before offered outcome after hc := hf.trans (congrArg _ (h.offers hc))

end Sending

theorem send_exact {payload : Bytes} (h : w.send payload = (answer, w')) :
    ∃ calls, Made w calls w' ∧ Sending.Exact w.maxPayload ⟨payload, answer, calls⟩ := by
  rcases send_cases h with ⟨hr, hmade, ha⟩ | ⟨hr, calls, front, hf, hmade, hsends⟩
  · exact ⟨[], hmade, Sending.exact_of_refused hr ha⟩
  · exact ⟨calls, hmade, Sending.exact_of_sends hr hf hsends⟩

def sendings (w : Writer) : List Bytes → List Sending × Writer
  | [] => ([], w)
  | payload :: payloads =>
    let (answer, w') := w.send payload
    let (later, last) := w'.sendings payloads
    (⟨payload, answer, w'.calls.drop w.calls.length⟩ :: later, last)

/-- The stream takes what it takes in one sending after the other, and of each it has the frame, the
beginning of the frame or nothing, as the sending ends. -/
theorem sendings_exact (w : Writer) (payloads : List Bytes) :
    let (sent, last) := w.sendings payloads
    sent.map Sending.payload = payloads ∧
      last.stream.taken = w.stream.taken ++ sent.flatMap Sending.taken ∧
      last.calls = w.calls ++ sent.flatMap Sending.calls ∧
      ∀ x ∈ sent, x.Exact w.maxPayload := by
  induction payloads generalizing w with
  | nil => simp [sendings]
  | cons payload payloads ih =>
    rcases hsend : w.send payload with ⟨answer, w₁⟩
    obtain ⟨calls, hmade, hexact⟩ := send_exact hsend
    obtain ⟨hpayloads, htaken, hcalls, hsent⟩ := ih w₁
    rw [hmade.maxPayload_eq] at hsent
    have hdrop : w₁.calls.drop w.calls.length = calls := by rw [hmade.calls_eq, List.drop_left]
    simp only [sendings, hsend, hdrop]
    refine ⟨congrArg _ hpayloads, ?_, ?_, List.forall_mem_cons.mpr ⟨hexact, hsent⟩⟩
    · rw [htaken, hmade.taken_eq, List.append_assoc, List.flatMap_cons, Sending.taken]
    · rw [hcalls, hmade.calls_eq, List.append_assoc, List.flatMap_cons]

/-- A write fails within a frame, and the next frame goes out whole all the same. -/
example :
    let cause : SystemError := ⟨.brokenPipe, "broken pipe"⟩
    let w : Writer := { stream := { writesComing := [.accept (some 3), .failed cause] } }
    (w.sendings [[7, 8], [9]]).2.stream.taken = [2, 0, 7] ++ [1, 0, 9] := by cbv

end Writer

namespace Sink

theorem writeAll_accept (s : Sink) (pending : Bytes) (limit : Option Nat)
    (rest : List WriteOutcome) :
    s.writeAll pending (.accept limit :: rest) =
      let taken := (WriteOutcome.accept limit).taken pending
      if taken.length = 0 then (.error .connectionClosed, s.took taken rest)
      else if taken.length = pending.length then (.ok (), s.took taken rest)
      else (s.took taken rest).writeAll (pending.drop taken.length) rest := by
  simp [writeAll, WriteOutcome.taken, List.take_eq_take_min]

theorem flushAll_step (s : Sink) :
    s.flushAll s.flushesComing =
      match s.flush with
      | (none, s') => (.ok (), s')
      | (some cause, s') =>
        if cause.isInterrupted then s'.flushAll s'.flushesComing else (.error (.io cause), s') := by
  unfold flush
  cases hc : s.flushesComing with
  | nil => simp [flushAll]
  | cons failure rest => cases failure <;> rfl

end Sink

namespace Writer

variable {w w' : Writer} {answer : Except Error Unit}

/-- The next call of a write that goes on is the writer's next call. -/
theorem writeAll_write {offered : Bytes} {outcome : WriteOutcome} (hp : offered ≠ [])
    (h : w.write offered = (outcome, w')) :
    w'.buffer = w.buffer ∧
    w'.stream = w.stream.took (outcome.taken offered) w'.stream.writesComing ∧
    w.stream.writeAll offered w.stream.writesComing =
      w.stream.writeAll offered (outcome :: w'.stream.writesComing) := by
  simp only [write, Sink.write, Prod.mk.injEq] at h
  obtain ⟨rfl, rfl⟩ := h
  cases w.stream.writesComing with
  | nil =>
    refine ⟨rfl, ?_, ?_⟩
    · simp [WriteOutcome.taken, Sink.took]
    · simp [hp, Sink.writeAll, Sink.took]
  | cons outcome rest => exact ⟨rfl, rfl, rfl⟩

theorem writeFrom_eq_writeAll {written : Nat} (hlt : written < w.buffer.length)
    (h : w.writeFrom written = (answer, w')) :
    w.stream.writeAll (w.buffer.drop written) w.stream.writesComing = (answer, w'.stream) := by
  fun_induction writeFrom w written with
  | case1 w written _ cause w₁ hw hi ih =>
    obtain ⟨hbuffer, hstream, hnext⟩ := writeAll_write (drop_ne_nil hlt) hw
    rw [hbuffer] at ih
    rw [hnext, Sink.writeAll, if_pos hi]
    exact hstream ▸ ih hlt h
  | case2 w written _ cause w₁ hw hi =>
    obtain ⟨_, hstream, hnext⟩ := writeAll_write (drop_ne_nil hlt) hw
    cases h
    rw [hnext, Sink.writeAll, if_neg hi]
    exact congrArg _ hstream.symm
  | case3 w written _ limit w₁ hw n hn =>
    obtain ⟨_, hstream, hnext⟩ := writeAll_write (drop_ne_nil hlt) hw
    cases h
    rw [hnext, Sink.writeAll_accept, if_pos hn, ← hstream]
  | case4 w written _ limit w₁ hw n hn ih =>
    obtain ⟨hbuffer, hstream, hnext⟩ := writeAll_write (drop_ne_nil hlt) hw
    rw [hnext, Sink.writeAll_accept, if_neg hn, ← hstream]
    rw [hbuffer, ← List.drop_drop] at ih
    have hpending : (w.buffer.drop written).length = w.buffer.length - written := List.length_drop
    have hle : n ≤ (w.buffer.drop written).length := List.length_take_le' _ _
    by_cases hall : n = (w.buffer.drop written).length
    · have hlast : ¬ written + n < w₁.buffer.length := by
        rw [hbuffer]
        omega
      unfold writeFrom at h
      rw [dif_neg hlast] at h
      cases h
      rw [if_pos hall]
    · rw [if_neg hall]
      exact ih (by omega) h
  | case5 w written hge => exact absurd hlt hge

theorem flush_stream {failure : Option SystemError} (h : w.flush = (failure, w')) :
    w.stream.flush = (failure, w'.stream) := by
  cases h
  rfl

theorem flushAll_eq (h : w.flushAll = (answer, w')) :
    w.stream.flushAll w.stream.flushesComing = (answer, w'.stream) := by
  fun_induction flushAll w with
  | case1 w w₁ hf =>
    cases h
    rw [Sink.flushAll_step, flush_stream hf]
  | case2 w cause w₁ hf hi ih =>
    rw [Sink.flushAll_step, flush_stream hf, ← ih h]
    exact if_pos hi
  | case3 w cause w₁ hf hi =>
    cases h
    rw [Sink.flushAll_step, flush_stream hf]
    exact if_neg hi

/-- A writer does to its stream what sending without a buffer does. -/
theorem send_eq (w : Writer) (payload : Bytes) :
    w.stream.send w.maxPayload payload = ((w.send payload).1, (w.send payload).2.stream) := by
  unfold send Sink.send
  by_cases hm : w.maxPayload < payload.length
  · rw [if_pos hm, if_pos hm]
  · rw [if_neg hm, if_neg hm]
    cases hencode : encode payload with
    | error e => rfl
    | ok front =>
      obtain ⟨_, rfl⟩ := encode_eq_ok.mp hencode
      have hpos : 0 < (wire payload).length := by
        rw [length_wire]
        exact Nat.lt_add_right _ (by decide)
      simp only [List.nil_append]
      rcases hwrite : writeFrom { w with buffer := wire payload } 0 with ⟨written, w₁⟩
      have hstream := writeFrom_eq_writeAll hpos hwrite
      rw [List.drop_zero] at hstream
      rw [hstream]
      cases written with
      | error e => rfl
      | ok _ => exact flushAll_eq rfl

end Writer

end StreamRelay.Frame
