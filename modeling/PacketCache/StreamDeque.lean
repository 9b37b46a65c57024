import PacketCache.Bisection
import PacketCache.Packets

namespace PacketCache.StreamDeque

open PacketCache.Bisection PacketCache.Identifiers PacketCache.Messages
open PacketCache.Packets PacketCache.Platform PacketCache.Times

/-- The only setter of the options refuses a capacity below one. -/
structure StreamDequeOptions where
  mMaximumNumberOfPackets : Nat := 2147483647
  positive : 1 ≤ mMaximumNumberOfPackets := by decide

structure PacketTime where
  packet : CacheApi.Packet
  startTime : Int
  endTime : Int
deriving DecidableEq

/-- The private state of a `StreamDeque`. The time of the last update is left out:
it is only ever written. -/
structure StreamDequeImpl where
  mDeque : List PacketTime
  mStreamIdentifier : String
  mMaximumNumberOfPackets : Nat
deriving DecidableEq

/-- `std::is_sorted` by start time: no element starts before its predecessor. -/
def isSorted : List PacketTime → Bool
  | a :: b :: rest => !decide (b.startTime < a.startTime) && isSorted (b :: rest)
  | _ => true

def popWhenFull (isFull : Bool) (mDeque : List PacketTime) : List PacketTime :=
  if isFull then mDeque.tail else mDeque

/-- The position of the first element that does not start before the packet. The
comparison given to `upper_bound` names its arguments the other way round. -/
def searchStart (mDeque : List PacketTime) (startTime : Int) : Nat :=
  upperBound (fun value item => decide (value ≤ item.startTime)) mDeque startTime

/-- The last part of `StreamDequeImpl::addPacket`: search, then insert before the
position found unless it holds the same start time. -/
def insertFound (build : Build) (isFull : Bool) (mDeque : List PacketTime)
    (newPacket : PacketTime) : Except Fault (List PacketTime) :=
  let it := searchStart mDeque newPacket.startTime
  match mDeque[it]? with
  | none => .ok mDeque
  | some neighbor =>
    if newPacket.startTime = neighbor.startTime then .ok mDeque
    else
      let inserted := popWhenFull isFull (mDeque.insertIdx it newPacket)
      if build = .debug ∧ !isSorted inserted then .error .assertionFailed
      else .ok inserted

/-- `StreamDequeImpl::addPacket` from the test of an empty buffer on. -/
def placePacket (build : Build) (maximumNumberOfPackets : Nat) (mDeque : List PacketTime)
    (newPacket : PacketTime) : Except Fault (List PacketTime) :=
  match mDeque with
  | [] => .ok [newPacket]
  | front :: rest =>
    let back := (front :: rest).getLast (by simp)
    let isFull := decide (maximumNumberOfPackets ≤ mDeque.length)
    if back.endTime ≤ newPacket.startTime then
      .ok (popWhenFull isFull mDeque ++ [newPacket])
    else if back.startTime < newPacket.startTime then
      .ok (popWhenFull isFull mDeque ++ [newPacket])
    else if newPacket.startTime = front.startTime then .ok mDeque
    else if newPacket.startTime < front.startTime ∧ isFull then .ok mDeque
    else if newPacket.endTime ≤ front.startTime ∧ !isFull then .ok (newPacket :: mDeque)
    else insertFound build isFull mDeque newPacket

namespace StreamDequeImpl

def construct (options : StreamDequeOptions) : StreamDequeImpl :=
  ⟨[], "", options.mMaximumNumberOfPackets⟩

def addPacket (build : Build) (packet : CacheApi.Packet) (self : StreamDequeImpl) :
    EStateM.Result Fault StreamDequeImpl Unit :=
  let startTime := getStartTimeNanoSeconds packet
  match getEndTimeNanoSeconds packet with
  | .error e => .error e self
  | .ok endTime =>
    match placePacket build self.mMaximumNumberOfPackets self.mDeque
        ⟨packet, startTime, endTime⟩ with
    | .error e => .error e self
    | .ok mDeque => .ok () { self with mDeque := mDeque }

def removeExpiredPackets (oldestTime : Int) (self : StreamDequeImpl) : Nat × StreamDequeImpl :=
  let kept := self.mDeque.filter (fun item => !decide (item.endTime < oldestTime))
  (self.mDeque.length - kept.length, { self with mDeque := kept })

def getAllPackets (self : StreamDequeImpl) : List CacheApi.Packet :=
  self.mDeque.map PacketTime.packet

end StreamDequeImpl

/-- `std::prev(it, 1)`. -/
def prev : Nat → Except Fault Nat
  | 0 => .error .beforeBegin
  | it + 1 => .ok it

/-- The move of `it0` back to the packet before it, undone when that packet is too old. -/
def stepBack (mDeque : List PacketTime) (startTime : Int) (it0 : Nat) (item : PacketTime) :
    Except Fault Nat :=
  if it0 ≠ 0 ∧ startTime < item.startTime then
    match prev it0 with
    | .error e => .error e
    | .ok it =>
      match mDeque[it]? with
      | none => .error .pastTheEnd
      | some previous => .ok (if previous.endTime < startTime then it + 1 else it)
  else .ok it0

def searchEnd (mDeque : List PacketTime) (endTime : Int) : Nat :=
  if mDeque.getLast?.any (fun back => decide (endTime < back.startTime)) then
    lowerBound (fun item value => decide (item.startTime ≤ value)) mDeque endTime
  else mDeque.length

def onePacket (mDeque : List PacketTime) (it : Nat) : Except Fault (List CacheApi.Packet) :=
  match mDeque[it]? with
  | some item => .ok [item.packet]
  | none => .error .pastTheEnd

def copyLoop (endTime : Int) : List PacketTime → List CacheApi.Packet
  | [] => []
  | item :: rest =>
    if endTime ≤ item.endTime then [item.packet] else item.packet :: copyLoop endTime rest

namespace StreamDequeImpl

/-- The capacity is an `int`, so the conversion of `nPackets` to one is exact. -/
def getPackets (build : Build) (self : StreamDequeImpl) (startAndEndTime : Int × Int) :
    Except Fault (List CacheApi.Packet) :=
  let startTime := startAndEndTime.1
  let endTime := startAndEndTime.2
  if self.mDeque.isEmpty then .ok []
  else
    let it0 := searchStart self.mDeque startTime
    match self.mDeque[it0]? with
    | none => .ok []
    | some item =>
      match stepBack self.mDeque startTime it0 item with
      | .error e => .error e
      | .ok it0 =>
        if startTime = endTime then onePacket self.mDeque it0
        else
          let it1 := searchEnd self.mDeque endTime
          if it0 = it1 then onePacket self.mDeque it0
          else if build = .debug ∧ ¬ it0 < it1 then .error .assertionFailed
          else
            let nPackets := (it1 : Int) - it0
            if nPackets < 1 then .ok []
            else
              let result := copyLoop endTime ((self.mDeque.drop it0).take (it1 - it0))
              if build = .debug ∧ nPackets ≠ result.length then .error .assertionFailed
              else .ok result

end StreamDequeImpl

/-- Only a debug build compares the identifiers. -/
def checkIdentifier (build : Build) (mStreamIdentifier : String)
    (identifier : StreamIdentifier) : Except Fault Unit :=
  if build = .debug then
    match toString identifier with
    | .error e => .error e
    | .ok thisIdentifier =>
      if thisIdentifier ≠ mStreamIdentifier then
        .error (.invalidArgument ("This stream identifier (" ++ thisIdentifier ++
          ") does not match expected stream identifier (" ++ mStreamIdentifier ++ ")"))
      else .ok ()
  else .ok ()

def addPacket (build : Build) (packet : ServiceApi.Packet) (self : StreamDequeImpl) :
    EStateM.Result Fault StreamDequeImpl Unit :=
  match packet.streamIdentifier with
  | none => .error (.invalidArgument "Stream identifier not set") self
  | some identifier =>
    if packet.samplingRate = none then .error (.invalidArgument "Sampling rate not set") self
    else if packet.startTime = none then .error (.invalidArgument "Start time is not set") self
    else if packet.numberOfSamples.getD 0 < 1 then .error (.invalidArgument "No samples") self
    else
      match checkIdentifier build self.mStreamIdentifier identifier with
      | .error e => .error e self
      | .ok _ =>
        match convertPacket packet with
        | .error e => .error e self
        | .ok convertedPacket => self.addPacket build convertedPacket

def construct (build : Build) (options : StreamDequeOptions) (packet : ServiceApi.Packet) :
    Except Fault StreamDequeImpl :=
  match packet.streamIdentifier with
  | none => .error (.invalidArgument "Packet identifier not set")
  | some identifier =>
    match toString identifier with
    | .error e => .error e
    | .ok mStreamIdentifier =>
      match addPacket build packet
          { StreamDequeImpl.construct options with mStreamIdentifier := mStreamIdentifier } with
      | .ok _ self => .ok self
      | .error e _ => .error e

def getPackets (build : Build) (self : StreamDequeImpl) (startAndEndTime : Int × Int) :
    Except Fault (List CacheApi.Packet) :=
  if startAndEndTime.2 < startAndEndTime.1 then
    .error (.invalidArgument "Start time exceeds end time")
  else self.getPackets build startAndEndTime

theorem checkIdentifier_toString (build : Build) {key : String} {identifier : StreamIdentifier}
    (h : toString identifier = .ok key) : checkIdentifier build key identifier = .ok () := by
  simp [checkIdentifier, h]

end PacketCache.StreamDeque
