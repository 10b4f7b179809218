import NanoAgent.DdsAgent.Agent

/-!
# Reader state

The reader state of a data reader holds the reads registered with it, one
request for each, and decides which samples of the DDS cache are no longer
needed. `newRequest` and `requestComplete` register and unregister a read;
`requestsUpdated` takes from the cache what every registered read has passed.
The functions run on a `Reader`; the agent runs them on the reader state of a
resource record with `AgentM.onReader`.
-/

namespace NanoAgent

namespace Reader

open Prog

/-- `NDDSA_Reader_find_request_by_read`. -/
def findRequestByRead (r : Reader) (rd : ℕ) : Option ReaderRequest :=
  r.requests.find? (fun q => q.read = rd)

/-- The reads registered with the reader, in the order of their requests. -/
def registered (r : Reader) : List ℕ := r.requests.map (·.read)

/-- The error exit of `newRequest`: the query condition of the request is
deleted and the request returned to its pool, whether or not it is linked in
the list. The source retries the deletion for as long as it fails, so that a
failing deletion does not reach the return. -/
def discardRequest (env : Env) (req : ReaderRequest) : Prog Reader Unit := do
  onlyIf req.queryCondition.isSome (ensure (env.ok (.dds .deleteReadCondition req.read)))
  modify fun r => { r with poolRequests := r.poolRequests.giveBack req.addr }

/-- `NDDSA_Reader_new_request`. -/
def newRequest (env : Env) (rd : ℕ) (filter : Option String) : Prog Reader Unit := do
  ensure (env.ok (.dds .asDataReader rd))
  let r ← read
  match r.findRequestByRead rd with
  | some req => do
      discardRequest env req
      fail
  | none => do
      ensure (env.ok (.getBuffer .reader rd))
      let req : ReaderRequest := ⟨r.poolRequests.next, rd, filter⟩
      modify fun r => { r with poolRequests := r.poolRequests.take () }
      onlyIf (filter.isSome && !env.ok (.dds .createQueryCondition rd)) do
        -- no condition was created, so only the request is returned
        modify fun r => { r with poolRequests := r.poolRequests.giveBack req.addr }
        fail
      modify fun r => { r with requests := r.requests ++ [req] }
      onlyIf r.requests.isEmpty (
        if env.ok (.dds .setListener rd) then
          modify fun r => { r with listening := true }
        else do
          -- the request stays linked in the list
          discardRequest env req
          modify fun r => { r with listening := r.listening || env.ok (.dds .resetListener rd) }
          fail)

/-- `NDDSA_Reader_request_complete`. -/
def requestComplete (env : Env) (rd : ℕ) : Prog Reader Unit := do
  ensure (env.ok (.dds .asDataReader rd))
  let r ← read
  let req ← require (r.findRequestByRead rd)
  modify fun r => { r with requests := r.requests.erase req }
  onlyIf req.queryCondition.isSome (ensure (env.ok (.dds .deleteReadCondition rd)))
  modify fun r => { r with poolRequests := r.poolRequests.giveBack req.addr }
  let r ← read
  onlyIf r.requests.isEmpty do
    ensure (env.ok (.dds .resetListener rd))
    modify fun r => { r with listening := false }

/-- The position up to which all registered reads have passed, given the
`lastSample` of each read. -/
def dismissPosition (lastSample : ℕ → ℕ) (r : Reader) : ℕ :=
  match r.registered with
  | [] => 0
  | rd :: l => l.foldl (fun sn q => if lastSample q ≤ sn then lastSample q else sn) (lastSample rd)

/-- The loop of `NDDSA_Reader_requests_updated` over the cache: samples are
taken one by one until a valid sample beyond `dismissSn` or the position itself
is met. The result is whether the loop ended without a failing DDS call, the
remaining cache and the position reached. -/
def dismissSamples (env : Env) (dismissSn : ℕ) : List Sample → ℕ → Bool × List Sample × ℕ
  | [], sn => (env.ok (.dds .read sn), [], sn)
  | s :: cache, sn =>
      if !env.ok (.dds .read s.sn) then
        (false, s :: cache, sn)
      else if s.validData && dismissSn < s.sn then
        (env.ok (.dds .returnLoan s.sn), s :: cache, sn)
      else if !(env.ok (.dds .returnLoan s.sn) && env.ok (.dds .take s.sn)) then
        (false, s :: cache, sn)
      else if !env.ok (.dds .returnTaken s.sn) then
        (false, cache, s.sn)
      else if dismissSn ≤ s.sn then
        (true, cache, s.sn)
      else
        dismissSamples env dismissSn cache s.sn

/-- `NDDSA_Reader_requests_updated`. -/
def requestsUpdated (env : Env) (lastSample : ℕ → ℕ) : Prog Reader Unit := do
  let r ← read
  let dismissSn := r.dismissPosition lastSample
  onlyIf (r.dismissSn < dismissSn) do
    let res := dismissSamples env dismissSn r.cache r.dismissSn
    modify fun r => { r with cache := res.2.1, dismissSn := res.2.2 }
    ensure res.1

/-- `NDDSA_Reader_finalize`. -/
def finalize (env : Env) (rid : ℕ) : Prog Reader Unit := do
  let r ← read
  ensure r.requests.isEmpty
  ensure (env.ok (.dds .resetListener rid))

end Reader

namespace AgentM

/-- Run a function on the reader state named `n`. -/
def onReader {α : Type} (n : ℕ) (x : Prog Reader α) : AgentM α := fun a =>
  ((x (a.readerAt n)).1, a.updateReader n fun _ => (x (a.readerAt n)).2)

end AgentM

end NanoAgent
