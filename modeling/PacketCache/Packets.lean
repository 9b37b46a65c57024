import PacketCache.Identifiers
import PacketCache.Times
import Mathlib.Tactic.SplitIfs

namespace PacketCache.Packets

open PacketCache.Identifiers PacketCache.Messages PacketCache.Platform

def convertDataType : ServiceApi.DataType → Except Fault CacheApi.DataType
  | .integer32 => .ok .integer32
  | .double => .ok .double
  | .float => .ok .float
  | .integer64 => .ok .integer64
  | .text => .error (.invalidArgument "Text type not supported")
  | .unrecognized _ => .error (.invalidArgument "Unhandled data type")
  | .unknown => .ok .unknown

/-- `Utilities::convert` on a packet. The number of samples is unsigned, so its test for
a negative number never holds. -/
def convertPacket (packet : ServiceApi.Packet) : Except Fault CacheApi.Packet :=
  match packet.samplingRate with
  | none => .error (.invalidArgument "Sampling rate not set")
  | some samplingRate =>
    if samplingRate ≤ 0 then .error (.invalidArgument "Sampling rate must be positive")
    else
      match packet.startTime with
      | none => .error (.invalidArgument "Start time not set")
      | some startTime =>
        match packet.numberOfSamples with
        | none => .error (.invalidArgument "Number of samples not set")
        | some nSamples =>
          match convertDataType (packet.dataType.getD .unknown) with
          | .error e => .error e
          | .ok dataType =>
            .ok ⟨some startTime, some samplingRate, some dataType, some nSamples,
              some (packet.data.getD [])⟩

def isValidPacket (packet : ServiceApi.Packet) : Except String Unit :=
  match packet.streamIdentifier with
  | none => .error "Packet does not have identifier"
  | some streamIdentifier =>
    match toString streamIdentifier with
    | .error e => .error ("Could not determine input packet name because " ++ e.what)
    | .ok name =>
      match packet.samplingRate with
      | none => .error (name ++ " does not have a sampling rate")
      | some samplingRate =>
        if samplingRate ≤ 0 then .error (name ++ " has invalid sampling rate")
        else if packet.dataType = none then .error (name ++ " does not have a data type")
        else if packet.numberOfSamples.getD 0 < 1 ∨ packet.data = none then
          .error (name ++ " has no data")
        else .ok ()

def timestampGreater (a b : Timestamp) : Bool :=
  b.seconds < a.seconds || (a.seconds = b.seconds && b.nanos < a.nanos)

def isValidRequest (request : CacheApi.StreamRequest) : Except String Unit :=
  match request.streamIdentifier with
  | none => .error "Stream identifier not set"
  | some streamIdentifier =>
    if streamIdentifier.network = none then .error "Stream identifier's network not set"
    else if streamIdentifier.station = none then .error "Stream identifier's station not set"
    else if streamIdentifier.channel = none then .error "Stream identifier's channel not set"
    else if streamIdentifier.locationCode = none then
      .error "Stream identifier's location code not set"
    else
      match request.startTime, request.endTime with
      | none, _ => .error "Start time not set"
      | _, none => .error "End time not set"
      | some startTime, some endTime =>
        if timestampGreater startTime endTime then .error "Start time exceeds end time"
        else .ok ()

theorem isValidRequest_fields {streamRequest : CacheApi.StreamRequest}
    (h : isValidRequest streamRequest = .ok ()) :
    ∃ identifier startTime endTime, streamRequest.streamIdentifier = some identifier ∧
      (identifier.network ≠ none ∧ identifier.station ≠ none ∧ identifier.channel ≠ none ∧
        identifier.locationCode ≠ none) ∧
      streamRequest.startTime = some startTime ∧ streamRequest.endTime = some endTime ∧
      timestampGreater startTime endTime = false := by
  rw [isValidRequest] at h
  cases hid : streamRequest.streamIdentifier with
  | none => simp [hid] at h
  | some identifier =>
    simp only [hid] at h
    split_ifs at h with hn hs hc hl
    cases hstart : streamRequest.startTime with
    | none => simp [hstart] at h
    | some startTime =>
      cases hend : streamRequest.endTime with
      | none => simp [hstart, hend] at h
      | some endTime =>
        simp only [hstart, hend] at h
        split_ifs at h with hgreater
        exact ⟨identifier, startTime, endTime, rfl, ⟨hn, hs, hc, hl⟩, rfl, rfl,
          by simpa using hgreater⟩

end PacketCache.Packets
