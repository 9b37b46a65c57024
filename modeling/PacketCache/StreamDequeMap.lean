import Std.Data.TreeMap.Lemmas
import PacketCache.StreamDeque

namespace PacketCache.StreamDequeMap

open PacketCache.Identifiers PacketCache.Messages PacketCache.Packets PacketCache.Platform
open PacketCache.StreamDeque PacketCache.Times

/-- The streams by name. Every call holds the mutex of the map while it reads or changes
them, so a call is one step. -/
structure StreamDequeMapImpl where
  mStreamDequeMap : Std.TreeMap String StreamDequeImpl

namespace StreamDequeMapImpl

def construct : StreamDequeMapImpl := ⟨∅⟩

def addPacket (build : Build) (packet : ServiceApi.Packet) (map : StreamDequeMapImpl) :
    EStateM.Result Fault StreamDequeMapImpl Unit :=
  match toString (packet.streamIdentifier.getD {}) with
  | .error e => .error e map
  | .ok streamIdentifier =>
    match map.mStreamDequeMap[streamIdentifier]? with
    | some deque =>
      match StreamDeque.addPacket build packet deque with
      | .ok _ deque => .ok () ⟨map.mStreamDequeMap.insert streamIdentifier deque⟩
      | .error e deque => .error e ⟨map.mStreamDequeMap.insert streamIdentifier deque⟩
    | none =>
      match StreamDeque.construct build {} packet with
      | .error e => .error e map
      | .ok streamDeque =>
        let (present, inserted) :=
          map.mStreamDequeMap.containsThenInsertIfNew streamIdentifier streamDeque
        if present then
          .error (.runtimeError ("Failed to add stream deque for " ++ streamIdentifier)) ⟨inserted⟩
        else .ok () ⟨inserted⟩

/-- The number of removed packets is counted in 32 bits. -/
def removeExpiredPackets (oldestTime : Int) (map : StreamDequeMapImpl) :
    UInt32 × StreamDequeMapImpl :=
  (map.mStreamDequeMap.foldl
    (fun nRemoved _ deque => nRemoved + UInt32.ofNat (deque.removeExpiredPackets oldestTime).1) 0,
    ⟨map.mStreamDequeMap.map (fun _ deque => (deque.removeExpiredPackets oldestTime).2)⟩)

def getPackets (build : Build) (map : StreamDequeMapImpl) (identifier : StreamIdentifier)
    (startAndEndTime : Int × Int) : Except Fault (List CacheApi.Packet) :=
  match toString identifier with
  | .error e => .error e
  | .ok streamIdentifier =>
    match map.mStreamDequeMap[streamIdentifier]? with
    | some deque => StreamDeque.getPackets build deque startAndEndTime
    | none => .ok []

def getAvailableStreams (build : Build) (map : StreamDequeMapImpl) :
    Except Fault (List StreamIdentifier) :=
  let streamNames := map.mStreamDequeMap.keys
  if build = .debug ∧ ¬ streamNames.Nodup then .error .assertionFailed
  else streamNames.mapM fromString

end StreamDequeMapImpl

def getPackets (build : Build) (map : StreamDequeMapImpl) (identifier : StreamIdentifier)
    (startAndEndTime : Int × Int) : Except Fault (List CacheApi.Packet) :=
  if identifier.network = none then .error (.invalidArgument "Network not set")
  else if identifier.station = none then .error (.invalidArgument "Station not set")
  else if identifier.channel = none then .error (.invalidArgument "Channel not set")
  else if identifier.locationCode = none then .error (.invalidArgument "Location code not set")
  else if startAndEndTime.2 < startAndEndTime.1 then
    .error (.invalidArgument "Start time is greater than end time")
  else map.getPackets build identifier startAndEndTime

def entry (packet : ServiceApi.Packet) : Except Fault PacketTime :=
  if packet.streamIdentifier = none then .error (.invalidArgument "Stream identifier not set")
  else if packet.samplingRate = none then .error (.invalidArgument "Sampling rate not set")
  else if packet.startTime = none then .error (.invalidArgument "Start time is not set")
  else if packet.numberOfSamples.getD 0 < 1 then .error (.invalidArgument "No samples")
  else
    match convertPacket packet with
    | .error e => .error e
    | .ok converted =>
      match getEndTimeNanoSeconds converted with
      | .error e => .error e
      | .ok endTime => .ok ⟨converted, getStartTimeNanoSeconds converted, endTime⟩

variable (build : Build) {packet : ServiceApi.Packet} {deque : StreamDequeImpl} {key : String}

theorem addPacket_entry
    (hkey : toString (packet.streamIdentifier.getD {}) = .ok deque.mStreamIdentifier) :
    StreamDeque.addPacket build packet deque =
      match entry packet with
      | .error e => .error e deque
      | .ok item =>
        match placePacket build deque.mMaximumNumberOfPackets deque.mDeque item with
        | .error e => .error e deque
        | .ok placed => .ok () { deque with mDeque := placed } := by
  cases hid : packet.streamIdentifier with
  | none => simp [StreamDeque.addPacket, entry, hid]
  | some identifier =>
    rw [hid, Option.getD_some] at hkey
    have hcheck := checkIdentifier_toString build hkey
    simp only [StreamDeque.addPacket, entry, hid, hcheck, reduceCtorEq, ↓reduceIte]
    split_ifs
    · rfl
    · rfl
    · rfl
    · cases convertPacket packet with
      | error e => rfl
      | ok converted =>
        simp only [StreamDequeImpl.addPacket]
        cases getEndTimeNanoSeconds converted <;> rfl

def fresh (key : String) : StreamDequeImpl :=
  { StreamDequeImpl.construct {} with mStreamIdentifier := key }

theorem construct_entry (hkey : toString (packet.streamIdentifier.getD {}) = .ok key) :
    StreamDeque.construct build {} packet =
      match entry packet with
      | .error e => .error e
      | .ok item => .ok { fresh key with mDeque := [item] } := by
  have hadd := @addPacket_entry build packet (fresh key) hkey
  cases hid : packet.streamIdentifier with
  | none =>
    rw [hid] at hkey
    cases hkey
  | some identifier =>
    rw [hid, Option.getD_some] at hkey
    simp only [StreamDeque.construct, hid, hkey]
    change (match StreamDeque.addPacket build packet (fresh key) with
      | .ok _ self => Except.ok self
      | .error e _ => .error e) = _
    rw [hadd]
    cases entry packet <;> rfl

end PacketCache.StreamDequeMap
