import PacketCache.Messages
import PacketCache.Platform

namespace PacketCache.Times

open PacketCache.Messages PacketCache.Platform

class PacketMessage (U : Type) where
  startTime : U → Timestamp
  numberOfSamples : U → UInt32
  samplingRate : U → ℚ

instance : PacketMessage ServiceApi.Packet where
  startTime packet := packet.startTime.getD {}
  numberOfSamples packet := packet.numberOfSamples.getD 0
  samplingRate packet := packet.samplingRate.getD 0

instance : PacketMessage CacheApi.Packet where
  startTime packet := packet.startTime.getD {}
  numberOfSamples packet := packet.numberOfSamples.getD 0
  samplingRate packet := packet.samplingRate.getD 0

variable {U : Type} [PacketMessage U]

/-- `TimeUtil::TimestampToNanoseconds`, in 64-bit two's complement. -/
def timestampToNanoseconds (t : Timestamp) : Int :=
  toInt64 (t.seconds.toInt * 1000000000 + t.nanos.toInt)

def getStartTimeNanoSeconds (packet : U) : Int :=
  timestampToNanoseconds (PacketMessage.startTime packet)

/-- The code computes the period and its multiple in doubles. Here both are exact, and only
the conversion to 64 bits and the sum are those of the machine. -/
def getEndTimeNanoSeconds (packet : U) : Except Fault Int :=
  let nSamples := PacketMessage.numberOfSamples packet
  if nSamples < 1 then .error (.invalidArgument "No samples")
  else
    let samplingRate := PacketMessage.samplingRate packet
    if samplingRate ≤ 0 then .error (.invalidArgument "Sampling rate not positive")
    else
      let samplingPeriodNanoSeconds := 1000000000 / samplingRate
      let iEndTimeNanoSeconds :=
        doubleToInt64 (stdRound ((nSamples - 1).toNat * samplingPeriodNanoSeconds))
      .ok (toInt64 (getStartTimeNanoSeconds packet + iEndTimeNanoSeconds))

end PacketCache.Times
