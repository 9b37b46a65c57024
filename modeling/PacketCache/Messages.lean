import Mathlib.Data.Rat.Defs

namespace PacketCache.Messages

structure Timestamp where
  seconds : Int64 := 0
  nanos : Int32 := 0
deriving DecidableEq

/-- The stream identifier message, which both API packages declare with the same
fields. A field of a message is `none` when it is not set. -/
structure StreamIdentifier where
  network : Option String := none
  station : Option String := none
  channel : Option String := none
  locationCode : Option String := none
deriving DecidableEq

namespace ServiceApi

/-- The data types of the import API. Its enumeration is open: a message can carry
a number that no name stands for. -/
inductive DataType
  | unknown
  | integer32
  | float
  | double
  | text
  | integer64
  | unrecognized (value : Int32)
deriving DecidableEq

/-- A sampling rate, a double, is taken as the rational number it denotes. -/
structure Packet where
  streamIdentifier : Option StreamIdentifier := none
  startTime : Option Timestamp := none
  samplingRate : Option ℚ := none
  dataType : Option DataType := none
  numberOfSamples : Option UInt32 := none
  data : Option (List UInt8) := none
deriving DecidableEq

end ServiceApi

namespace CacheApi

inductive DataType
  | unknown
  | integer32
  | float
  | double
  | integer64
deriving DecidableEq

structure Packet where
  startTime : Option Timestamp := none
  samplingRate : Option ℚ := none
  dataType : Option DataType := none
  numberOfSamples : Option UInt32 := none
  data : Option (List UInt8) := none
deriving DecidableEq

structure StreamRequest where
  streamIdentifier : Option StreamIdentifier := none
  startTime : Option Timestamp := none
  endTime : Option Timestamp := none
deriving DecidableEq

structure TimeSeries where
  streamIdentifier : Option StreamIdentifier := none
  packets : List Packet := []
deriving DecidableEq

structure DataRequest where
  identifier : Option String := none
  streamRequests : List StreamRequest := []
deriving DecidableEq

structure DataResponse where
  identifier : Option String := none
  timeSeries : List TimeSeries := []
deriving DecidableEq

structure AvailableStreamsRequest where
  identifier : Option String := none
deriving DecidableEq

structure AvailableStreamsResponse where
  identifier : Option String := none
  streamIdentifiers : List StreamIdentifier := []
deriving DecidableEq

end CacheApi

end PacketCache.Messages
