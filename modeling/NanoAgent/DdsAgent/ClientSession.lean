import NanoAgent.DdsAgent.Reader

/-!
# Reads and received samples of a client session

A sample read from DDS is offered to the client of a session by
`processSampleEA`. It is first serialized into a received-data record, taken
from the session's own pool of records or else from the agent's
(`convertSampleEA`), and then handed to the interface. A sample that the
interface accepts moves the position `lastSample` of the read; a sample that it
keeps is added to the read's list of pending samples.
-/

namespace NanoAgent

namespace Read

/-- A read of the session `key` on its attached reader `id`, as it is taken from
the pool. -/
def initial (key : ClientSessionKey) (id : ℕ) : Read where
  sessionKey := key
  readerId := id
  samplesRcvd := 0
  samplesMax := 0
  samples := []
  lastSample := 0
  startTs := 0
  lastSampleTs := 0
  samplePace := 0
  maxElapsedTs := 0
  contentFilterExpr := none
  delayed := false
  dataAvailable := false
  complete := false

/-- `NDDSA_Read_is_complete`: whether the read is bounded, and whether its
bounds have been reached at the time `now`. -/
def isComplete (r : Read) (now : ℕ) : Bool × Bool :=
  if r.maxElapsedTs = 0 && r.samplesMax = 0 then (false, false)
  else if r.maxElapsedTs != 0 && decide (now - r.startTs < r.maxElapsedTs) then (true, false)
  else if r.samplesMax != 0 && decide (r.samplesRcvd < r.samplesMax) then (true, false)
  else (true, true)

/-- `NDDSA_Read_has_pending_samples`. -/
def hasPendingSamples (r : Read) : Bool := !r.samples.isEmpty

end Read

/-- The encoding and the endianness announced by the first two bytes of a CDR
header. -/
def decodeCdrHeader (b : ℕ × ℕ) : Option (XcdrEncodingKind × Bool) :=
  if b.1 % 2 = 1 then
    if b.2 = 0x00 then some (.xcdr1Pl, false)
    else if b.2 = 0x01 then some (.xcdr1Pl, true)
    else if b.2 = 0x10 then some (.xcdr2Pl, false)
    else if b.2 = 0x11 then some (.xcdr2Pl, true)
    else none
  else
    if b.2 = 0x00 then some (.xcdr1, false)
    else if b.2 = 0x01 then some (.xcdr1, true)
    else if b.2 = 0x10 then some (.xcdr2, false)
    else if b.2 = 0x11 then some (.xcdr2, true)
    else none

namespace Agent

/-- `NDDSA_ClientSession_find_attached_resource`. -/
def findAttachedResource (a : Agent) (s : ClientSession) (id : ℕ) : Option ℕ :=
  s.resources.find? (fun n => (a.attached n).id = id)

/-- Put a received-data record at the back of the pool of a session. -/
def recycle (a : Agent) (key : ClientSessionKey) (d : ℕ) : Agent :=
  a.updateSession key fun s => { s with rcvdDataPool := s.rcvdDataPool ++ [d] }

/-- Take a record out of the pool of a session. A buffer whose recorded length
is too short is freed. -/
def reuse (a : Agent) (key : ClientSessionKey) (d size : ℕ) : Agent :=
  let a := a.updateSession key fun s => { s with rcvdDataPool := s.rcvdDataPool.erase d }
  { a with poolSamples := a.poolSamples.update d fun x =>
      if x.buffer.isSome && decide (x.dataLen < size) then
        { x with buffer := none, dataLen := 0 }
      else x }

/-- Take a record from the pool of the agent. Only its buffer is set. -/
def takeReceivedData (a : Agent) : Agent :=
  { a with poolSamples :=
      a.poolSamples.take { a.poolSamples.content a.poolSamples.next with buffer := none } }

/-- What an accepted sample changes: the read and its attached resource move to
the sample, which is kept in the read's list when the interface retains it. -/
def acceptSample (a : Agent) (n rd d : ℕ) (smp : Sample) (retained : Bool) (now : ℕ) : Agent :=
  let a := if retained then
      a.updateRead rd fun r => { r with samples := r.samples ++ [d] }
    else
      (a.updateAttached n fun x => { x with lastSampleReturned := smp.sn }).updateRead rd
        fun r => { r with samplesRcvd := r.samplesRcvd + 1 }
  let a := a.updateRead rd fun r => { r with lastSample := smp.sn, lastSampleTs := now }
  (a.updateAttached n fun x => { x with lastSampleForwarded := smp.sn }).notify
    (.dataAccepted rd smp)

end Agent

/-- What becomes of a sample offered to a read. -/
inductive Processed
  | old
  | retry (delay : ℕ)
  | delivered
  deriving DecidableEq, Repr

namespace AgentM

open Prog

/-- The part of `NDDSA_Read_convert_sampleEA` that fills the record `d`. -/
def fillReceivedData (env : Env) (key : ClientSessionKey) (n d : ℕ) (smp : Sample) :
    AgentM Unit := do
  let a ← read
  modify fun a => { a with poolSamples := a.poolSamples.update d fun x =>
    { x with sessionKey := key, read := (a.attached n).readReq,
             dataLen := env.serializedSize smp } }
  onlyIf (a.poolSamples.content d).buffer.isNone do
    ensure (env.ok (.allocate .convertSample smp.sn))
    modify fun a => { a with poolSamples := a.poolSamples.update d fun x =>
      { x with buffer := some x.dataLen } }
  ensure (env.ok (.toCdr .convertSample smp.sn))
  modify fun a => { a with poolSamples := a.poolSamples.update d fun x =>
    { x with dataLen := env.writtenLen smp } }
  let enc ← require (decodeCdrHeader (env.cdrHeader smp))
  modify fun a => { a with poolSamples := a.poolSamples.update d fun x =>
    { x with encoding := enc.1, littleEndian := enc.2, readerId := (a.attached n).id } }

/-- The part of `NDDSA_Read_convert_sampleEA` that obtains a record, from the
pool of the session or else from that of the agent. -/
def obtainReceivedData (env : Env) (key : ClientSessionKey) (smp : Sample) : AgentM ℕ := do
  let a ← read
  let s ← require (a.sessions.lookup key)
  match s.rcvdDataPool with
  | d :: _ => do
      modify fun a => a.reuse key d (env.serializedSize smp)
      pure d
  | [] => do
      ensure (env.ok (.getBuffer .convertSample smp.sn))
      modify Agent.takeReceivedData
      pure a.poolSamples.next

/-- `NDDSA_Read_convert_sampleEA`. A record that cannot be filled goes to the
pool of the session. -/
def convertSampleEA (env : Env) (key : ClientSessionKey) (n : ℕ) (smp : Sample) :
    AgentM ℕ := do
  let d ← obtainReceivedData env key smp
  onFailure (fillReceivedData env key n d smp) (modify fun a => a.recycle key d)
  pure d

/-- `NDDSA_Read_process_sampleEA`. -/
def processSampleEA (env : Env) (key : ClientSessionKey) (n : ℕ) (smp : Sample) (now : ℕ) :
    AgentM Processed := do
  let a ← read
  let rd ← require (a.attached n).readReq
  let r := a.readAt rd
  if smp.sn ≤ r.lastSample then
    pure .old
  else if r.samplePace != 0 && decide (now - r.lastSampleTs < r.samplePace) then
    pure (.retry (r.samplePace - (now - r.lastSampleTs)))
  else do
    ensure (env.ok (.toCdr .processSample smp.sn))
    let d ← convertSampleEA env key n smp
    match env.delivery smp with
    | .error => do
        modify fun a => a.recycle key d
        fail
    | .tryAgain => do
        modify fun a => a.recycle key d
        pure (.retry (packFromMillisec 0 1))
    | .accepted retained => do
        -- a record that is not retained is not put back into the session's pool
        modify fun a => a.acceptSample n rd d smp retained now
        pure .delivered

end AgentM

end NanoAgent
