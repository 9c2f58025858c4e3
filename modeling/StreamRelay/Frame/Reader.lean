import StreamRelay.Frame

/-!
# Reading frames

A reader gathers what single reads of a stream bring and cuts frames from the front of what it has.
One poll makes at most one read, and none while the buffer still decides the answer; reading a frame
is polling until one is there or the stream fails.
-/

namespace StreamRelay.Frame

/-- What one read of a stream gives; no bytes mean its end. -/
inductive ReadOutcome
  | bytes (b : Bytes)
  | failed (cause : SystemError)
  deriving DecidableEq

def readRoom : Nat := 8192

/-- A stream to read from: the outcomes to come, and how many reads were made. Behind the outcomes
is the end of the stream. -/
structure Source where
  coming : List ReadOutcome
  reads : Nat := 0

def pieces (room : Nat) (b : Bytes) : List Bytes :=
  if _h : 0 < room ∧ room < b.length then b.take room :: pieces room (b.drop room) else [b]
termination_by b.length
decreasing_by simp; omega

namespace Source

def ofArrivals (arrivals : List ReadOutcome) : Source where
  coming := arrivals.flatMap fun
    | .bytes b => (pieces readRoom b).map .bytes
    | .failed cause => [.failed cause]

def read (s : Source) : ReadOutcome × Source :=
  match s.coming with
  | [] => (.bytes [], { s with reads := s.reads + 1 })
  | o :: rest => (o, ⟨rest, s.reads + 1⟩)

end Source

structure Reader where
  config : Config
  buffer : Bytes := []

namespace Reader

/-- Cut a frame from the front of the buffer. An error or a missing frame leaves it as it is. -/
def decodeBuffered (r : Reader) : Except Error (Option Frame) × Reader :=
  match decode r.config.maxPayload r.config.trailing r.buffer with
  | .error e => (.error e, r)
  | .ok none => (.ok none, r)
  | .ok (some (f, rest)) => (.ok (some f), { r with buffer := rest })

def endOfStream (r : Reader) : Error :=
  if r.buffer.isEmpty then .connectionClosed else .truncated r.buffer.length

def absorb (r : Reader) : ReadOutcome → Except Error (Option Frame) × Reader
  | .failed cause => if cause.isInterrupted then (.ok none, r) else (.error (.io cause), r)
  | .bytes b =>
    if b.isEmpty then (.error r.endOfStream, r)
    else decodeBuffered { r with buffer := r.buffer ++ b }

/-- A frame if the buffer or one more read completes it. -/
def poll (r : Reader) (s : Source) : Except Error (Option Frame) × Reader × Source :=
  match r.decodeBuffered with
  | (.error e, r') => (.error e, r', s)
  | (.ok (some f), r') => (.ok (some f), r', s)
  | (.ok none, r') =>
    let (outcome, s') := s.read
    let (answer, r'') := r'.absorb outcome
    (answer, r'', s')

theorem absorb_end (r : Reader) : r.absorb (.bytes []) = (.error r.endOfStream, r) := rfl

/-- A poll without a frame has used up an outcome of the stream. -/
theorem poll_none_coming {r r' : Reader} {s s' : Source} (h : r.poll s = (.ok none, r', s')) :
    s'.coming.length < s.coming.length := by
  unfold poll at h
  split at h
  · simp at h
  · simp at h
  · rcases s with ⟨_ | ⟨o, rest⟩, reads⟩
    · simp [Source.read, absorb_end] at h
    · simp only [Source.read, Prod.mk.injEq] at h
      simp [← h.2.2]

/-- The next frame, however many reads it takes. -/
def read (r : Reader) (s : Source) : Except Error Frame × Reader × Source :=
  match _h : r.poll s with
  | (.ok (some f), r', s') => (.ok f, r', s')
  | (.error e, r', s') => (.error e, r', s')
  | (.ok none, r', s') => read r' s'
termination_by s.coming.length
decreasing_by exact poll_none_coming _h

end Reader

end StreamRelay.Frame
