import PacketCache.EndTimes

namespace PacketCache.Admission

open PacketCache.EndTimes (span span_nonneg start stdRound_nonneg)
open PacketCache.Importing PacketCache.MapRuns PacketCache.Messages PacketCache.Packets
open PacketCache.Platform PacketCache.StreamDequeMap PacketCache.Times

variable {build : Build} {mOptions : ProgramOptions} {now : Int} {packet : ServiceApi.Packet}

/-- The limits in the nanoseconds that `processPackets` compares. -/
def maximumLatency (mOptions : ProgramOptions) : Int :=
  toInt64 (mOptions.maximumPacketLatency * 1000000000)

def maximumFutureTime (mOptions : ProgramOptions) : Int :=
  toInt64 (mOptions.maximumPacketFutureTime * 1000000)

/-- The packet goes to the map, whatever the map does with it. Every other packet is
counted as invalid. -/
def PassedOn (build : Build) (mOptions : ProgramOptions) (now : Int)
    (packet : ServiceApi.Packet) : Prop :=
  ∀ state after, finalState (processPacket build mOptions now packet state) = after →
    after.invalidPacketsReceivedCounter = state.invalidPacketsReceivedCounter ∧
      after.mStreamDequeMap = finalState (state.mStreamDequeMap.addPacket build packet)

/-- The nearest nanosecond to the last sample, in numbers of any size. -/
def endTime (packet : ServiceApi.Packet) : Int := start packet + stdRound (span packet)

/-- What the two limits promise about a packet, of the times that it really has. -/
structure InTime (build : Build) (mOptions : ProgramOptions) (now : Int)
    (packet : ServiceApi.Packet) : Prop where
  notStale : PassedOn build mOptions now packet → 0 < maximumLatency mOptions →
    now - maximumLatency mOptions ≤ start packet
  notFuture : PassedOn build mOptions now packet → 0 ≤ maximumFutureTime mOptions →
    endTime packet ≤ now + maximumFutureTime mOptions
  notCached : 0 ≤ maximumFutureTime mOptions → now + maximumFutureTime mOptions < endTime packet →
    ∀ state, (finalState (processPacket build mOptions now packet state)).mStreamDequeMap =
      state.mStreamDequeMap

/-- What the start time in 64 bits does not show: that a packet which starts in time ends
after the future limit, or that the start is beyond either end of the range. -/
inductive Misjudged (mOptions : ProgramOptions) (now : Int) (packet : ServiceApi.Packet) : Prop
  | straddles (hon : 0 ≤ maximumFutureTime mOptions)
    (hstart : start packet ≤ now + maximumFutureTime mOptions)
    (hend : now + maximumFutureTime mOptions < endTime packet)
  | wrapsBack (hon : 0 ≤ maximumFutureTime mOptions)
    (hstart : now + maximumFutureTime mOptions < start packet) (hwraps : 2 ^ 63 ≤ start packet)
  | wrapsForward (hon : 0 < maximumLatency mOptions)
    (hstart : start packet < now - maximumLatency mOptions) (hwraps : start packet < -2 ^ 63)

theorem start_le_endTime (hv : isValidPacket packet = .ok ()) : start packet ≤ endTime packet := by
  obtain ⟨_, _, samplingRate, _, _, _, _, _, hr, hpos, _⟩ := isValidPacket_fields hv
  have hrate : 0 < PacketMessage.samplingRate packet := by
    simpa [PacketMessage.samplingRate, hr] using hpos
  have hspan := stdRound_nonneg (span_nonneg hrate)
  rw [endTime]
  omega

theorem passedOn_iff : PassedOn build mOptions now packet ↔ ¬ Refused mOptions now packet := by
  constructor
  · intro h hr
    have hcount := (h ⟨StreamDequeMapImpl.construct, 0, 0⟩ _ rfl).1
    rw [processPacket_refused hr] at hcount
    cases hcount
  · rintro hr state after rfl
    simp only [Refused, not_or, not_not, Bool.not_eq_true] at hr
    obtain ⟨hv, hexpired, hfuture⟩ := hr
    simp only [processPacket, hv, hexpired, hfuture, Bool.false_eq_true, ↓reduceIte]
    cases state.mStreamDequeMap.addPacket build packet with
    | ok u map => exact ⟨rfl, rfl⟩
    | error e map =>
      by_cases he : e.isException = true
      · simp only [he, ↓reduceIte]
        exact ⟨rfl, rfl⟩
      · simp only [he, Bool.false_eq_true, ↓reduceIte]
        exact ⟨rfl, rfl⟩

theorem hasExpiredData_eq : hasExpiredData mOptions now packet =
    (decide (0 < maximumLatency mOptions) &&
      decide (getStartTimeNanoSeconds packet < toInt64 (now - maximumLatency mOptions))) := rfl

theorem hasDataFromFuture_eq : hasDataFromFuture mOptions now packet =
    (decide (0 ≤ maximumFutureTime mOptions) &&
      decide (toInt64 (now + maximumFutureTime mOptions) < getStartTimeNanoSeconds packet)) := rfl

theorem getStartTimeNanoSeconds_eq (hlow : -2 ^ 63 ≤ start packet) (hhigh : start packet < 2 ^ 63) :
    getStartTimeNanoSeconds packet = start packet :=
  toInt64_of_mem hlow hhigh

/-- Where the difference wraps, every start time is late enough. -/
theorem start_ge_of_not_expired (hnow : now < 2 ^ 63) (hon : 0 < maximumLatency mOptions)
    (hwraps : -2 ^ 63 ≤ start packet) (h : hasExpiredData mOptions now packet = false) :
    now - maximumLatency mOptions ≤ start packet := by
  by_cases hhigh : start packet < 2 ^ 63
  · have hcheck : toInt64 (now - maximumLatency mOptions) ≤ start packet := by
      rw [← getStartTimeNanoSeconds_eq hwraps hhigh]
      simpa [hasExpiredData_eq, hon] using h
    rw [toInt64_eq] at hcheck
    omega
  · omega

/-- Where the sum wraps, every start time is too late. -/
theorem start_le_of_not_future (hnow : -2 ^ 63 ≤ now) (hon : 0 ≤ maximumFutureTime mOptions)
    (hwraps : start packet < 2 ^ 63) (h : hasDataFromFuture mOptions now packet = false) :
    start packet ≤ now + maximumFutureTime mOptions := by
  by_cases hlow : -2 ^ 63 ≤ start packet
  · have hcheck : start packet ≤ toInt64 (now + maximumFutureTime mOptions) := by
      rw [← getStartTimeNanoSeconds_eq hlow hwraps]
      simpa [hasDataFromFuture_eq, hon] using h
    rw [toInt64_eq] at hcheck
    omega
  · omega

/-- The settings are read as `int`s, so that their conversion is exact. -/
theorem limits_of_int (latency future : Int32) :
    maximumLatency ⟨latency.toInt, future.toInt⟩ = latency.toInt * 1000000000 ∧
      maximumFutureTime ⟨latency.toInt, future.toInt⟩ = future.toInt * 1000000 := by
  have hlatency := latency.toInt_lt
  have hlatency' := latency.le_toInt
  have hfuture := future.toInt_lt
  have hfuture' := future.le_toInt
  simp only [maximumLatency, maximumFutureTime, toInt64_eq]
  omega

theorem inTime_of_passedOn (hnow : -2 ^ 63 ≤ now ∧ now < 2 ^ 63) (hv : isValidPacket packet = .ok ())
    (hr : ¬ Refused mOptions now packet) :
    InTime build mOptions now packet ↔ ¬ Misjudged mOptions now packet := by
  have hpassed : PassedOn build mOptions now packet := passedOn_iff.mpr hr
  obtain ⟨_, hexpired, hfuture⟩ : isValidPacket packet = .ok () ∧
      hasExpiredData mOptions now packet = false ∧ hasDataFromFuture mOptions now packet = false := by
    simpa [Refused] using hr
  have hle := start_le_endTime hv
  constructor
  · intro h hm
    cases hm with
    | straddles hon hstart hend => exact absurd (h.notFuture hpassed hon) (not_le.mpr hend)
    | wrapsBack hon hstart hwraps =>
      exact absurd (hle.trans (h.notFuture hpassed hon)) (not_le.mpr hstart)
    | wrapsForward hon hstart hwraps =>
      exact absurd (h.notStale hpassed hon) (not_le.mpr hstart)
  · intro hm
    have hnotFuture : 0 ≤ maximumFutureTime mOptions →
        endTime packet ≤ now + maximumFutureTime mOptions := by
      intro hon
      by_contra hend
      have hlate : now + maximumFutureTime mOptions < start packet :=
        not_le.mp fun hstart => hm (.straddles hon hstart (not_le.mp hend))
      have hwraps : start packet < 2 ^ 63 := not_le.mp fun hwraps => hm (.wrapsBack hon hlate hwraps)
      exact absurd (start_le_of_not_future hnow.1 hon hwraps hfuture) (not_le.mpr hlate)
    refine ⟨fun _ hon => ?_, fun _ => hnotFuture, fun hon hend => ?_⟩
    · by_contra hstart
      have hwraps : -2 ^ 63 ≤ start packet :=
        not_lt.mp fun hwraps => hm (.wrapsForward hon (not_le.mp hstart) hwraps)
      exact hstart (start_ge_of_not_expired hnow.2 hon hwraps hexpired)
    · exact absurd (hnotFuture hon) (not_le.mpr hend)

theorem inTime_of_refused (hr : Refused mOptions now packet) : InTime build mOptions now packet := by
  have hpassed : ¬ PassedOn build mOptions now packet := fun h => passedOn_iff.mp h hr
  refine ⟨fun h => absurd h hpassed, fun h => absurd h hpassed, fun _ _ state => ?_⟩
  rw [processPacket_refused hr]
  rfl

/-- The limits keep their promise for a valid packet exactly when one of the two checks
refuses it or its start time in 64 bits hides nothing from them. -/
theorem inTime_iff_not_misjudged (build : Build) (mOptions : ProgramOptions) (now : Int64)
    (packet : ServiceApi.Packet) (hv : isValidPacket packet = .ok ()) :
    (InTime build mOptions now.toInt packet ↔
      hasExpiredData mOptions now.toInt packet = true ∨
        hasDataFromFuture mOptions now.toInt packet = true ∨
        ¬ Misjudged mOptions now.toInt packet) ∧
    ∀ latency future : Int32, mOptions = ⟨latency.toInt, future.toInt⟩ →
      maximumLatency mOptions = latency.toInt * 1000000000 ∧
        maximumFutureTime mOptions = future.toInt * 1000000 := by
  refine ⟨?_, fun latency future he => he ▸ limits_of_int latency future⟩
  by_cases hr : Refused mOptions now.toInt packet
  · refine iff_of_true (inTime_of_refused hr) ?_
    obtain hv' | hexpired | hfuture := hr
    · exact absurd hv hv'
    · exact Or.inl hexpired
    · exact Or.inr (Or.inl hfuture)
  · rw [inTime_of_passedOn ⟨now.le_toInt, now.toInt_lt⟩ hv hr]
    simp only [Refused, not_or, Bool.not_eq_true] at hr
    simp [hr.2.1, hr.2.2]

theorem inTime_iff_not_misjudged_sampled :
    InTime .debug {} 5000000000 (sampled (some ⟨0, 0⟩) .integer32) ↔
      hasExpiredData {} 5000000000 (sampled (some ⟨0, 0⟩) .integer32) = true ∨
        hasDataFromFuture {} 5000000000 (sampled (some ⟨0, 0⟩) .integer32) = true ∨
        ¬ Misjudged {} 5000000000 (sampled (some ⟨0, 0⟩) .integer32) :=
  (inTime_iff_not_misjudged .debug {} 5000000000 _ (by decide +kernel)).1

/-- Five samples from a second before now on, with the default limits: the last of them is
three seconds ahead, and the packet is cached. -/
theorem straddling_packet_cached :
    isValidPacket (sampled (some ⟨999, 0⟩) .integer32) = .ok () ∧
      endTime (sampled (some ⟨999, 0⟩) .integer32) = 1003000000000 ∧
      (∃ packet, getPackets .release
        (finalState (processPacket .release {} 1000000000000 (sampled (some ⟨999, 0⟩) .integer32)
          ⟨StreamDequeMapImpl.construct, 0, 0⟩)).mStreamDequeMap
        (named "UU" "FTU" "HHZ" "01") (0, 2000000000000) = .ok [packet]) ∧
      ¬ InTime .release {} 1000000000000 (sampled (some ⟨999, 0⟩) .integer32) := by
  have hend : endTime (sampled (some ⟨999, 0⟩) .integer32) = 1003000000000 := by
    decide +kernel
  refine ⟨by decide +kernel, hend, ⟨⟨some ⟨999, 0⟩, some 1, some .integer32, some 5, some []⟩,
    by decide +kernel⟩, fun h => ?_⟩
  have hpassed : PassedOn .release {} 1000000000000 (sampled (some ⟨999, 0⟩) .integer32) := by
    rw [passedOn_iff, Refused, not_or, not_or]
    exact ⟨by decide +kernel, by decide +kernel, by decide +kernel⟩
  have hlate := h.notFuture hpassed (by decide)
  rw [hend] at hlate
  exact absurd hlate (by decide)

end PacketCache.Admission
