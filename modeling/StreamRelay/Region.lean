import StreamRelay.Region.Basic

/-!
# Regions

A region holds rings under a budget of slots, links from input streams to output streams, the
threads that may use it, and a ledger of its buffers. A buffer that is taken out of the region
belongs to the caller, who hands it back by submitting or releasing it. Every operation gives its
answer together with the region after it.
-/

namespace StreamRelay

structure Region where
  config : Region.Config
  rings : List Ring := []
  links : List (StreamId × StreamId) := []
  registered : List Thread := []
  reserved : Nat := 0
  ledger : Region.Ledger := {}

namespace Region

def maxNameSize : Nat := 64

def ofConfig (c : Config) : Except Error Region :=
  if c.name.utf8ByteSize = 0 ∨ maxNameSize < c.name.utf8ByteSize then
    .error (.invalidConfig
      s!"region name must be 1..={maxNameSize} bytes, got {c.name.utf8ByteSize}")
  else if c.slotSize = 0 then .error (.invalidConfig "slot size must be non-zero")
  else if c.totalSlots = 0 then
    .error (.invalidConfig s!"region of {c.size} bytes cannot hold one {c.slotSize}-byte slot")
  else .ok { config := c }

def record (r : Region) (e : Entry) (n : Nat := 1) : Region :=
  { r with ledger := r.ledger.record e n }

def ring? (r : Region) (c : Channel) : Option Ring := r.rings.find? (·.channel = c)

def findRing (r : Region) (c : Channel) : Except Error Ring :=
  match r.ring? c with
  | some ring => .ok ring
  | none => .error (.channelNotFound c)

def setRing (r : Region) (ring : Ring) : Region :=
  { r with rings := r.rings.map fun old => if old.channel = ring.channel then ring else old }

def insertRing (ring : Ring) : List Ring → List Ring
  | [] => [ring]
  | next :: rest =>
    if ring.channel.before next.channel then ring :: next :: rest
    else next :: insertRing ring rest

def available (r : Region) : Nat := r.config.totalSlots - r.reserved

def slotFootprint : Nat := 64

/-- The most slots that memory can be set aside for at once. -/
def maxRingCapacity : Nat := (UInt64.size / 2 - 1) / slotFootprint

/-- Create a ring, with memory for all of its slots. Memory that can be asked for is taken to be
there; for more the thread panics, and there is no answer. -/
def createWith (r : Region) (c : Channel) (capacity : Nat) :
    Option (Except Error Unit × Region) :=
  if capacity = 0 then some (.error (.invalidConfig "ring capacity must be non-zero"), r)
  else if (r.ring? c).isSome then some (.error (.channelExists c), r)
  else if r.available < capacity then some (.error (.exhausted capacity r.available), r)
  else if maxRingCapacity < capacity then none
  else some (.ok (), { r with rings := insertRing ⟨c, capacity, []⟩ r.rings,
                              reserved := r.reserved + capacity })

def create (r : Region) (c : Channel) : Option (Except Error Unit × Region) :=
  r.createWith c r.config.ringCapacity

/-- The output stream that takes what is submitted on an input stream. -/
def linked? (r : Region) (source : StreamId) : Option StreamId := r.links.lookup source

/-- Send what is submitted on one stream to another one, in place of any earlier target. -/
def link (r : Region) (source target : StreamId) : Except Error Unit × Region :=
  match r.findRing ⟨source, .input⟩, r.findRing ⟨target, .output⟩ with
  | .error e, _ => (.error e, r)
  | .ok _, .error e => (.error e, r)
  | .ok _, .ok _ =>
    (.ok (), { r with links := (source, target) :: r.links.filter (·.1 ≠ source) })

def register (r : Region) (t : Thread) : Region :=
  { r with registered := if t ∈ r.registered then r.registered else t :: r.registered }

def unregister (r : Region) (t : Thread) : Region :=
  { r with registered := r.registered.filter (· ≠ t) }

def checkRegistered (r : Region) (t : Thread) : Except Error Unit :=
  if t ∈ r.registered then .ok () else .error (.threadNotRegistered t.name)

def checkFits (r : Region) (size : Nat) : Except Error Unit :=
  if r.config.slotSize < size then .error (.bufferOverflow size r.config.slotSize) else .ok ()

def publish (r : Region) (t : Thread) (stream : StreamId) (body : Bytes) :
    Except Error Unit × Region :=
  match do
    r.checkRegistered t
    r.checkFits body.length
    r.findRing ⟨stream, .output⟩ with
  | .error e => (.error e, r)
  | .ok ring =>
    match ring.push? ⟨stream, body⟩ with
    | none => (.error (.ringFull stream ring.capacity), r.record .released)
    | some ring => (.ok (), (r.setRing ring).record .published)

def takeInput (r : Region) (t : Thread) (stream : StreamId) :
    Except Error (Option Bytes) × Region :=
  match do
    r.checkRegistered t
    r.findRing ⟨stream, .input⟩ with
  | .error e => (.error e, r)
  | .ok ring =>
    match ring.parked with
    | [] => (.ok none, r)
    | b :: rest => (.ok (some b.body), (r.setRing { ring with parked := rest }).record .consumed)

def findChannel (r : Region) (t : Thread) (c : Channel) : Except Error Channel := do
  r.checkRegistered t
  let ring ← r.findRing c
  return ring.channel

def split (raw : Bytes) : Except Error Envelope :=
  match Envelope.split? raw with
  | some message => .ok message
  | none => .error (.malformed
      s!"message of {raw.length} bytes is shorter than the {StreamId.size}-byte stream id")

def deserialize (r : Region) (t : Thread) (raw : Bytes) : Except Error Buffer × Region :=
  match do
    r.checkRegistered t
    let message ← split raw
    r.checkFits message.body.length
    return message with
  | .error e => (.error e, r)
  | .ok b => (.ok b, r.record .acquired)

def target (r : Region) (c : Channel) : Channel :=
  match c.direction with
  | .output => c
  | .input =>
    match r.linked? c.stream with
    | some output => ⟨output, .output⟩
    | none => c

/-- Give a buffer to a channel. It is used up whether or not there is room for it. -/
def submit (r : Region) (t : Thread) (c : Channel) (b : Buffer) : Except Error Unit × Region :=
  match do
    r.checkRegistered t
    r.findRing (r.target c) with
  | .error e => (.error e, r.record .released)
  | .ok ring =>
    match ring.push? b with
    | none => (.error (.ringFull ring.channel.stream ring.capacity), r.record .released)
    | some ring => (.ok (), (r.setRing ring).record .submitted)

/-- Write a message to the front of an area and give its length. The area keeps its size. -/
def serialize (r : Region) (t : Thread) (b : Buffer) (area : Bytes) : Except Error Nat × Bytes :=
  match r.checkRegistered t with
  | .error e => (.error e, area)
  | .ok () =>
    let raw := b.encode
    if area.length < raw.length then (.error (.scratchTooSmall raw.length area.length), area)
    else (.ok raw.length, raw ++ area.drop raw.length)

def release (r : Region) : Region := r.record .released

def leak (r : Region) : Region := r.record .leaked

def handOut (r : Region) (c : Channel) (max : Nat) : List Buffer × Region :=
  match r.ring? c with
  | none => ([], r)
  | some ring =>
    let batch := ring.parked.take max
    (batch, (r.setRing { ring with parked := ring.parked.drop max }).record .handedOut batch.length)

/-- What a poll does with the batch of a stream. It may use the region meanwhile. -/
abbrev Handler (σ α : Type) := StreamId → List Buffer → σ × α → σ × α

def pollRings {α : Type} (max : Nat) (handler : Handler Region α) :
    List Channel → Region × α → Nat × Region × α
  | [], s => (0, s)
  | c :: cs, (r, a) =>
    let (batch, r) := r.handOut c max
    if batch.isEmpty then pollRings max handler cs (r, a)
    else
      let (count, s) := pollRings max handler cs (handler c.stream batch (r, a))
      (batch.length + count, s)

def outputs (r : Region) : List Channel :=
  (r.rings.map (·.channel)).filter (·.direction = .output)

def poll {α : Type} (r : Region) (t : Thread) (max : Nat) (handler : Handler Region α) (a : α) :
    Except Error Nat × Region × α :=
  match r.checkRegistered t with
  | .error e => (.error e, r, a)
  | .ok () =>
    let (count, s) := pollRings max handler r.outputs (r, a)
    (.ok count, s)

structure ChannelInfo where
  stream : StreamId
  direction : Direction
  capacity : Nat
  queued : Nat
  linkedTo : Option StreamId
  deriving DecidableEq

/-- All channels in order. Only inputs show a link. -/
def channels (r : Region) : List ChannelInfo :=
  r.rings.map fun ring => {
    stream := ring.channel.stream
    direction := ring.channel.direction
    capacity := ring.capacity
    queued := ring.parked.length
    linkedTo := match ring.channel.direction with
      | .input => r.linked? ring.channel.stream
      | .output => none }

end Region

end StreamRelay
