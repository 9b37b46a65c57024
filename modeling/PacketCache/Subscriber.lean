import PacketCache.ClientOptions

namespace PacketCache.Subscriber

open PacketCache.ClientOptions PacketCache.Platform

inductive StatusCode
  | ok
  | unavailable
  | cancelled
  | other
deriving DecidableEq

/-- One call to the broadcast service as the loop sees it: the results with which
`OnReadDone` was called, the status given to `OnDone`, and before which load of `mKeepRunning`
a stop was requested: the one after the wait, the one on the status, or the next one after
that, which is made before the next attempt or at the end of `acquirePackets`. -/
structure Attempt where
  stopInWait : Bool := false
  reads : List Bool
  stopInCall : Bool := false
  status : StatusCode
  stopAfterCall : Bool := false

def onReadDone (mHadSuccessfulRead ok : Bool) : Bool := if ok then true else mHadSuccessfulRead

def Attempt.hadSuccessfulRead (attempt : Attempt) : Bool := attempt.reads.foldl onReadDone false

/-- How far `acquirePackets` comes with the attempts given: it waits for one more, it returns,
it throws one of its own exceptions, or `at` throws. -/
inductive Ending
  | awaiting
  | returned
  | threw (fault : Fault)
  | outOfRange
deriving DecidableEq

structure SubscriberImpl where
  mOptions : SubscriberOptions
  has_grpcOptions : mOptions.hasGRPCOptions = true

def construct (options : SubscriberOptions) : Except Fault SubscriberImpl :=
  if h : options.hasGRPCOptions = true then .ok ⟨options, h⟩
  else .error (.runtimeError "GRPC client options not set")

def leave (mKeepRunning : Bool) : Ending :=
  if mKeepRunning then .threw (.runtimeError "Premature end of subscriber thread") else .returned

def delay (reconnectSchedule : List Int) (kReconnect : Int) : Except Ending (Option Int) :=
  if 0 ≤ kReconnect then
    match reconnectSchedule[kReconnect.toNat]? with
    | none => .error .outOfRange
    | some time => .ok (some time)
  else .ok none

def breaksOn (mKeepRunning : Bool) : StatusCode → Bool
  | .ok => !mKeepRunning
  | .unavailable => false
  | .cancelled => !mKeepRunning
  | .other => true

def loop (reconnectSchedule : List Int) (nReconnect : Int) :
    Int → Bool → List Attempt → List (Option Int) × Ending
  | kReconnect, mKeepRunning, attempts =>
    if kReconnect < nReconnect ∧ mKeepRunning then
      match delay reconnectSchedule kReconnect with
      | .error ending => ([], ending)
      | .ok time =>
        match attempts with
        | [] => ([time], .awaiting)
        | attempt :: attempts =>
          if 0 ≤ kReconnect ∧ attempt.stopInWait then ([time], leave false)
          else
            let mKeepRunning := !attempt.stopInWait && !attempt.stopInCall
            let kReconnect := if attempt.hadSuccessfulRead then -1 else kReconnect
            let later := mKeepRunning && !attempt.stopAfterCall
            if breaksOn mKeepRunning attempt.status then ([time], leave later)
            else
              let rest := loop reconnectSchedule nReconnect (kReconnect + 1) later attempts
              (time :: rest.1, rest.2)
    else ([], leave mKeepRunning)

/-- The flag is false at the start if a stop is requested before the first attempt. -/
def acquirePackets (subscriber : SubscriberImpl) (attempts : List Attempt)
    (mKeepRunning : Bool := true) : List (Option Int) × Ending :=
  match subscriber.mOptions.getGRPCOptions with
  | .error fault => ([], .threw fault)
  | .ok options =>
    let reconnectSchedule := options.mReconnectSchedule
    loop reconnectSchedule (toInt32 reconnectSchedule.length) (-1) mKeepRunning attempts

end PacketCache.Subscriber
