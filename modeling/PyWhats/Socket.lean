import PyWhats.Lib.AsyncQueue
import PyWhats.AppState

/-! The raw framed socket (`socket/transport.py`): a reader task fills a bounded queue,
`recv_frame` calls take from it, and a sentinel in the same queue tells them that the
connection is closed. -/

namespace PyWhats.Socket

inductive Item where
  | frame (data : Bytes)
  | sentinel
  deriving DecidableEq

/-- What the reader loop makes of one websocket message. -/
inductive Inbound where
  | frames (frames : List Bytes)
  | control
  | close (reason : String)
  deriving DecidableEq

/-- The frames that the length prefixes describe, if they describe all of the buffer. -/
def splitFrames : Nat → Bytes → Option (List Bytes)
  | _, [] => some []
  | 0, _ => none
  | fuel + 1, a :: b :: c :: rest =>
    let declared := Binary.fromBytesBig [a, b, c]
    if rest.length < declared then none
    else (splitFrames fuel (rest.drop declared)).map (rest.take declared :: ·)
  | _, _ => none

def classify (data : Bytes) : Inbound :=
  match if 3 ≤ data.length then splitFrames data.length data else none with
  | some (frame :: frames) => .frames (frame :: frames)
  | _ =>
    if 3 ≤ data.length ∧ data.length ≤ 6 ∧ data.head? = some 0x88 then
      .close ("server closed connection (ws CLOSE payload " ++ AppState.hex data ++ ")")
    else if 3 ≤ data.length ∧ data.length ≤ 6 ∧
        (data.head? = some 0x89 ∨ data.head? = some 0x8a) then .control
    else .frames [data]

/-- Where the reader task stands: created and not yet run, between messages or with
frames it still has to put into the queue, or at its end. -/
inductive Reader where
  | created
  | reading (frames : List Bytes)
  | ended
  deriving DecidableEq

/-- Where `disconnect` stands: not called, waiting for the tasks it cancelled and the
close of the websocket, waiting for room for its sentinel, or returned. -/
inductive Closer where
  | idle
  | joining
  | blocked
  | done
  deriving DecidableEq

/-- `delivered` and `returned` record the frames that went into the queue and those
that calls of `recv_frame` returned. -/
structure NoiseSocket where
  inbound : AsyncQueue Item
  reader : Reader := .created
  closer : Closer := .idle
  closed : Bool := false
  closeExc : Option String := none
  delivered : List Bytes := []
  returned : List Bytes := []
  deriving DecidableEq

def connected (queueMaxsize : Nat) : NoiseSocket := { inbound := { maxsize := queueMaxsize } }

inductive Received where
  | frame (data : Bytes)
  | connectionClosed (message : String)
  | waiting
  deriving DecidableEq

section RecvFrame

def received (s : NoiseSocket) : Option Item × AsyncQueue Item → Received × NoiseSocket
  | (some (.frame data), q) =>
    (.frame data, { s with inbound := q, returned := s.returned ++ [data] })
  | (some .sentinel, q) =>
    (.connectionClosed (s.closeExc.getD "connection closed"), { s with inbound := q })
  | (none, q) => (.waiting, { s with inbound := q })

def recvFrame (s : NoiseSocket) (task : Nat) : Received × NoiseSocket :=
  match s.closed && s.inbound.items.isEmpty, s.closeExc with
  | true, some exc => (.connectionClosed exc, s)
  | _, _ => received s (s.inbound.get task)

/-- The answers of `n` calls of one task, each made after the one before returned. -/
def recvFrames (task : Nat) : Nat → NoiseSocket → List Received
  | 0, _ => []
  | n + 1, s => (recvFrame s task).1 :: recvFrames task n (recvFrame s task).2

end RecvFrame

section Steps

def endReader (s : NoiseSocket) : NoiseSocket :=
  { s with reader := .ended, closed := true, inbound := s.inbound.putNowait .sentinel }

/-- The sentinel of `disconnect`, which its `put` delivers when there is room. -/
def putSentinel (s : NoiseSocket) : NoiseSocket :=
  if s.inbound.full then { s with closer := .blocked }
  else { s with inbound := s.inbound.put .sentinel, closer := .done }

inductive Act where
  | readerStarts
  | message (data : Bytes)
  | putFrame
  | readerFails (exc : String)
  | readerEof
  | readerCancelled
  | closeRecorded (exc : String)
  | recvFrame (task : Nat)
  | resume (task : Nat)
  | disconnect
  | disconnectPuts

/-- What the reader does next, as long as `disconnect` has not cancelled it. -/
def readerStep (s : NoiseSocket) : Act → Option NoiseSocket
  | .readerStarts => if s.reader = .created then some { s with reader := .reading [] } else none
  | .message data =>
    if s.reader = .reading [] then
      match classify data with
      | .frames frames => some { s with reader := .reading frames }
      | .control => some s
      | .close reason => some (endReader { s with closeExc := some reason })
    else none
  | .putFrame =>
    match s.reader with
    | .reading (frame :: frames) =>
      if s.inbound.full then none
      else some { s with
        reader := .reading frames
        inbound := s.inbound.put (.frame frame)
        delivered := s.delivered ++ [frame] }
    | _ => none
  | .readerFails exc =>
    if s.reader = .reading [] then some (endReader { s with closeExc := some exc }) else none
  | .readerEof =>
    if s.reader = .reading [] then
      some (endReader { s with
        closeExc := some (s.closeExc.getD "peer closed the stream (EOF)") })
    else none
  | _ => none

/-- One step between two suspension points; `none` where the step cannot be taken.
`closeRecorded` is a failed `send_frame` or the keepalive, which note a reason and
nothing else. A reader that is cancelled before its first run does not reach its
`finally`. -/
def step (s : NoiseSocket) : Act → Option NoiseSocket
  | .readerCancelled =>
    match s.closer, s.reader with
    | .joining, .created => some { s with reader := .ended }
    | .joining, .reading _ => some (endReader s)
    | _, _ => none
  | .closeRecorded exc => some { s with closeExc := some exc }
  | .recvFrame task => some (recvFrame s task).2
  | .resume task =>
    if task ∈ s.inbound.woken then some (received s (s.inbound.resume task)).2 else none
  | .disconnect =>
    if s.closer = .idle then some { s with closed := true, closer := .joining } else some s
  | .disconnectPuts =>
    if s.closer = .joining ∧ s.reader = .ended ∨ s.closer = .blocked then some (putSentinel s)
    else none
  | act => if s.closer = .idle then readerStep s act else none

def run (s : NoiseSocket) : List Act → Option NoiseSocket
  | [] => some s
  | act :: acts => (step s act).bind fun s => run s acts

end Steps

end PyWhats.Socket
