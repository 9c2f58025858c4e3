import StreamRelay.Frame

/-!
# Writing frames

A frame goes out whole: the stream is offered what it has not yet taken until nothing is left, and
then flushed. A call that was interrupted is made again; any other failure ends the sending, and
what was not taken by then is never written. A writer encodes into one buffer, which it uses again
for every frame, and makes one call at a time on its stream.
-/

namespace StreamRelay.Frame

inductive WriteOutcome
  | accept (limit : Option Nat)
  | failed (cause : SystemError)
  deriving DecidableEq

/-- A stream to write to: the outcomes of the calls to come, what it has taken, and the calls made.
Calls behind the listed outcomes succeed and take everything. -/
structure Sink where
  writesComing : List WriteOutcome := []
  flushesComing : List (Option SystemError) := []
  taken : Bytes := []
  writes : Nat := 0
  flushes : Nat := 0

namespace Sink

def took (s : Sink) (b : Bytes) (rest : List WriteOutcome) : Sink :=
  { s with writesComing := rest, taken := s.taken ++ b, writes := s.writes + 1 }

def writeAll (s : Sink) (pending : Bytes) : (coming : List WriteOutcome) → Except Error Unit × Sink
  | [] => (.ok (), s.took pending [])
  | .failed cause :: rest =>
    if cause.isInterrupted then (s.took [] rest).writeAll pending rest
    else (.error (.io cause), s.took [] rest)
  | .accept limit :: rest =>
    let n := min (limit.getD pending.length) pending.length
    let s' := s.took (pending.take n) rest
    if n = 0 then (.error .connectionClosed, s')
    else if n = pending.length then (.ok (), s')
    else s'.writeAll (pending.drop n) rest

def flushAll (s : Sink) : List (Option SystemError) → Except Error Unit × Sink
  | [] => (.ok (), { s with flushesComing := [], flushes := s.flushes + 1 })
  | outcome :: rest =>
    let s' := { s with flushesComing := rest, flushes := s.flushes + 1 }
    match outcome with
    | none => (.ok (), s')
    | some cause => if cause.isInterrupted then s'.flushAll rest else (.error (.io cause), s')

def send (s : Sink) (maxPayload : Nat) (payload : Bytes) : Except Error Unit × Sink :=
  if maxPayload < payload.length then (.error (.payloadTooLarge payload.length maxPayload), s)
  else match encode payload with
    | .error e => (.error e, s)
    | .ok wire =>
      match s.writeAll wire s.writesComing with
      | (.error e, s') => (.error e, s')
      | (.ok (), s') => s'.flushAll s'.flushesComing

end Sink

def WriteOutcome.taken (offered : Bytes) : WriteOutcome → Bytes
  | .accept limit => offered.take (limit.getD offered.length)
  | .failed _ => []

namespace Sink

def write (s : Sink) (offered : Bytes) : WriteOutcome × Sink :=
  match s.writesComing with
  | [] => (.accept none, s.took offered [])
  | outcome :: rest => (outcome, s.took (outcome.taken offered) rest)

def flush (s : Sink) : Option SystemError × Sink :=
  match s.flushesComing with
  | [] => (none, { s with flushes := s.flushes + 1 })
  | failure :: rest => (failure, { s with flushesComing := rest, flushes := s.flushes + 1 })

end Sink

inductive Writer.Call
  | write (offered : Bytes) (outcome : WriteOutcome)
  | flush (failure : Option SystemError)
  deriving DecidableEq

structure Writer where
  stream : Sink
  maxPayload : Nat := defaultMaxFrame - headerSize
  buffer : Bytes := []
  calls : List Writer.Call := []

namespace Writer

def write (w : Writer) (offered : Bytes) : WriteOutcome × Writer :=
  let (outcome, stream) := w.stream.write offered
  (outcome, { w with stream, calls := w.calls ++ [.write offered outcome] })

def flush (w : Writer) : Option SystemError × Writer :=
  let (failure, stream) := w.stream.flush
  (failure, { w with stream, calls := w.calls ++ [.flush failure] })

/-- The calls that can still go otherwise than taking everything, and the bytes still to be taken.
-/
def work (w : Writer) (written : Nat) : Nat :=
  w.stream.writesComing.length + (w.buffer.length - written)

/-- A write call uses up an outcome; behind the listed ones it takes everything. -/
theorem write_step {w w' : Writer} {offered : Bytes} {outcome : WriteOutcome}
    (h : w.write offered = (outcome, w')) :
    w'.buffer = w.buffer ∧ w'.stream.writesComing = w.stream.writesComing.tail ∧
      (w.stream.writesComing = [] → outcome = .accept none) := by
  simp only [write, Sink.write, Prod.mk.injEq] at h
  obtain ⟨rfl, rfl⟩ := h
  cases w.stream.writesComing with
  | nil => exact ⟨rfl, rfl, fun _ => rfl⟩
  | cons outcome rest => exact ⟨rfl, rfl, by simp⟩

def writeFrom (w : Writer) (written : Nat) : Except Error Unit × Writer :=
  if _h : written < w.buffer.length then
    match _hw : w.write (w.buffer.drop written) with
    | (.failed cause, w') =>
      if cause.isInterrupted then w'.writeFrom written else (.error (.io cause), w')
    | (.accept limit, w') =>
      let n := ((WriteOutcome.accept limit).taken (w.buffer.drop written)).length
      if _hn : n = 0 then (.error .connectionClosed, w') else w'.writeFrom (written + n)
  else (.ok (), w)
termination_by w.work written
decreasing_by
  · obtain ⟨hbuffer, hcoming, hlast⟩ := write_step _hw
    have hpos : 0 < w.stream.writesComing.length := by
      refine List.length_pos_iff.mpr fun hnil => ?_
      simp at hlast hnil
      exact hlast hnil
    simp only [work, hbuffer, hcoming, List.length_tail]
    omega
  · obtain ⟨hbuffer, hcoming, _⟩ := write_step _hw
    simp only [work, hbuffer, hcoming, List.length_tail]
    omega

theorem flush_some_coming {w w' : Writer} {cause : SystemError} (h : w.flush = (some cause, w')) :
    w'.stream.flushesComing.length < w.stream.flushesComing.length := by
  simp only [flush, Sink.flush, Prod.mk.injEq] at h
  obtain ⟨hfailure, rfl⟩ := h
  cases hc : w.stream.flushesComing with
  | nil => simp [hc] at hfailure
  | cons failure rest => simp

def flushAll (w : Writer) : Except Error Unit × Writer :=
  match _h : w.flush with
  | (none, w') => (.ok (), w')
  | (some cause, w') => if cause.isInterrupted then w'.flushAll else (.error (.io cause), w')
termination_by w.stream.flushesComing.length
decreasing_by exact flush_some_coming _h

def send (w : Writer) (payload : Bytes) : Except Error Unit × Writer :=
  if w.maxPayload < payload.length then
    (.error (.payloadTooLarge payload.length w.maxPayload), w)
  else
    let w := { w with buffer := [] }
    match encode payload with
    | .error e => (.error e, w)
    | .ok wire =>
      match { w with buffer := w.buffer ++ wire }.writeFrom 0 with
      | (.error e, w) => (.error e, w)
      | (.ok (), w) => w.flushAll

end Writer

end StreamRelay.Frame
