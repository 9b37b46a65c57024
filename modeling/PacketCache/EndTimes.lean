import PacketCache.Importing
import PacketCache.RequestValidation

namespace PacketCache.EndTimes

open PacketCache.Importing (isValidPacket_fields sampled)
open PacketCache.MapRuns PacketCache.Messages PacketCache.Packets PacketCache.Platform
open PacketCache.RequestValidation (nanoseconds)
open PacketCache.Times

variable {packet : ServiceApi.Packet} {x m : Int}

def Fits (x : Int) : Prop := -2 ^ 63 ≤ x ∧ x < 2 ^ 63

def start (packet : ServiceApi.Packet) : Int := nanoseconds (PacketMessage.startTime packet)

/-- The nanoseconds from the first to the last sample. The number of samples is unsigned. -/
def span (packet : ServiceApi.Packet) : ℚ :=
  (PacketMessage.numberOfSamples packet - 1).toNat *
    (1000000000 / PacketMessage.samplingRate packet)

structure Representable (packet : ServiceApi.Packet) : Prop where
  duration : Fits (stdRound (span packet))
  start : Fits (start packet)
  sum : Fits (EndTimes.start packet + stdRound (span packet))
  ordered : ∃ endTime, getEndTimeNanoSeconds packet = .ok endTime ∧
    getStartTimeNanoSeconds packet ≤ endTime

/-- The start is not before the range of the clock, and the samples, at their rate, come
to an end before the range does. -/
structure WithinRange (packet : ServiceApi.Packet) : Prop where
  start : -2 ^ 63 ≤ start packet
  samples : (PacketMessage.numberOfSamples packet - 1).toNat * 1000000000 <
    (2 ^ 63 - 1 / 2 - max (EndTimes.start packet) 0 : ℚ) * PacketMessage.samplingRate packet

theorem toInt64_of_fits (h : Fits x) : toInt64 x = x := toInt64_of_mem h.1 h.2

theorem doubleToInt64_of_fits (h : Fits x) : doubleToInt64 x = x := if_pos h

theorem stdRound_nonneg {x : ℚ} (h : 0 ≤ x) : 0 ≤ stdRound x := by
  rw [stdRound, if_pos h]
  exact Int.floor_nonneg.mpr (by linarith)

theorem stdRound_lt {x : ℚ} (h : 0 ≤ x) : stdRound x < m ↔ x < m - 1 / 2 := by
  rw [stdRound, if_pos h, Int.floor_lt]
  exact lt_sub_iff_add_lt.symm

theorem span_nonneg (hrate : 0 < PacketMessage.samplingRate packet) : 0 ≤ span packet := by
  rw [span]
  positivity

theorem samples_iff (hrate : 0 < PacketMessage.samplingRate packet) :
    ((PacketMessage.numberOfSamples packet - 1).toNat * 1000000000 <
      (2 ^ 63 - 1 / 2 - max (start packet) 0 : ℚ) * PacketMessage.samplingRate packet) ↔
      stdRound (span packet) + max (start packet) 0 < 2 ^ 63 := by
  rw [← lt_sub_iff_add_lt, stdRound_lt (span_nonneg hrate), span, mul_div_assoc',
    div_lt_iff₀ hrate]
  push_cast
  rw [sub_right_comm]
  norm_num

theorem getEndTimeNanoSeconds_eq (hn : ¬ PacketMessage.numberOfSamples packet < 1)
    (hrate : 0 < PacketMessage.samplingRate packet) :
    getEndTimeNanoSeconds packet = .ok (toInt64 (getStartTimeNanoSeconds packet +
      doubleToInt64 (stdRound (span packet)))) := by
  rw [getEndTimeNanoSeconds, if_neg hn, if_neg hrate.not_ge]
  rfl

/-- The times of an admitted packet are representable exactly when it lies within range. -/
theorem representable_iff_withinRange (packet : ServiceApi.Packet)
    (hv : isValidPacket packet = .ok ()) : Representable packet ↔ WithinRange packet := by
  obtain ⟨_, _, samplingRate, _, nSamples, _, _, _, hr, hpos, _, hn, hone, _⟩ :=
    isValidPacket_fields hv
  have hrate : 0 < PacketMessage.samplingRate packet := by
    simpa [PacketMessage.samplingRate, hr] using hpos
  have hsamples : ¬ PacketMessage.numberOfSamples packet < 1 := by
    simpa [PacketMessage.numberOfSamples, hn] using hone
  have hnonneg := stdRound_nonneg (span_nonneg hrate)
  constructor
  · intro h
    have hduration := h.duration.2
    have hsum := h.sum.2
    exact ⟨h.start.1, (samples_iff hrate).mpr (by omega)⟩
  · intro h
    have hstart := h.start
    have hroom := (samples_iff hrate).mp h.samples
    have hfits : Fits (start packet) := ⟨hstart, by omega⟩
    have hduration : Fits (stdRound (span packet)) := ⟨by omega, by omega⟩
    have hsum : Fits (start packet + stdRound (span packet)) := ⟨by omega, by omega⟩
    have hexact : getStartTimeNanoSeconds packet = start packet := toInt64_of_fits hfits
    refine ⟨hduration, hfits, hsum, _, getEndTimeNanoSeconds_eq hsamples hrate, ?_⟩
    rw [hexact, doubleToInt64_of_fits hduration, toInt64_of_fits hsum]
    omega

theorem representable_iff_withinRange_sampled :
    Representable (sampled (some ⟨0, 0⟩) .integer32) ↔
      WithinRange (sampled (some ⟨0, 0⟩) .integer32) :=
  representable_iff_withinRange _ (by decide +kernel)

def slow : ServiceApi.Packet :=
  { sampled (some ⟨0, 0⟩) .integer32 with
    samplingRate := some (1 / 2 ^ 34), numberOfSamples := some 2 }

theorem admitted_times_overflow :
    (isValidPacket slow = .ok () ∧ slow.startTime ≠ none ∧ ¬ Representable slow ∧
      getEndTimeNanoSeconds slow = .ok (-9223372036854775808)) ∧
    isValidPacket (sampled (some ⟨253402300799, 0⟩) .integer32) = .ok () ∧
      ¬ Representable (sampled (some ⟨253402300799, 0⟩) .integer32) := by
  refine ⟨⟨by decide +kernel, by decide, fun h => ?_, by decide +kernel⟩, by decide +kernel,
    fun h => ?_⟩
  · have hlong : ¬ stdRound (span slow) < 2 ^ 63 := by decide +kernel
    exact hlong h.duration.2
  · have hlate : ¬ start (sampled (some ⟨253402300799, 0⟩) .integer32) < 2 ^ 63 := by
      decide +kernel
    exact hlate h.start.2

end PacketCache.EndTimes
