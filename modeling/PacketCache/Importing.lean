import PacketCache.DequeRuns
import PacketCache.MapRuns

namespace PacketCache.Importing

open PacketCache.DequeRuns (Reached Timed)
open PacketCache.Identifiers PacketCache.Insertion PacketCache.MapRuns
open PacketCache.Messages PacketCache.Packets PacketCache.Platform PacketCache.StreamDeque
open PacketCache.StreamDequeMap PacketCache.Times

/-- The limits of `ProgramOptions` that the import checks, in seconds and in milliseconds. -/
structure ProgramOptions where
  maximumPacketLatency : Int := 360
  maximumPacketFutureTime : Int := 0

structure ImportState where
  mStreamDequeMap : StreamDequeMapImpl
  packetsReceivedCounter : Nat := 0
  invalidPacketsReceivedCounter : Nat := 0

variable (build : Build) (mOptions : ProgramOptions) (now : Int)

def hasExpiredData (packet : ServiceApi.Packet) : Bool :=
  let maximumLatency := toInt64 (mOptions.maximumPacketLatency * 1000000000)
  0 < maximumLatency && getStartTimeNanoSeconds packet < toInt64 (now - maximumLatency)

/-- The time that the code calls the end time is the start time. -/
def hasDataFromFuture (packet : ServiceApi.Packet) : Bool :=
  let maximumFutureTime := toInt64 (mOptions.maximumPacketFutureTime * 1000000)
  let endTime := getStartTimeNanoSeconds packet
  0 ≤ maximumFutureTime && toInt64 (now + maximumFutureTime) < endTime

/-- The body of the loop of `processPackets` for a packet that the queue gave. An exception
of the map is caught and logged. -/
def processPacket (packet : ServiceApi.Packet) (state : ImportState) :
    EStateM.Result Fault ImportState Unit :=
  let received := { state with packetsReceivedCounter := state.packetsReceivedCounter + 1 }
  let invalid := { received with
    invalidPacketsReceivedCounter := state.invalidPacketsReceivedCounter + 1 }
  match isValidPacket packet with
  | .error _ => .ok () invalid
  | .ok _ =>
    if hasExpiredData mOptions now packet then .ok () invalid
    else if hasDataFromFuture mOptions now packet then .ok () invalid
    else
      match state.mStreamDequeMap.addPacket build packet with
      | .ok _ map => .ok () { received with mStreamDequeMap := map }
      | .error e map =>
        if e.isException then .ok () { received with mStreamDequeMap := map }
        else .error e { received with mStreamDequeMap := map }

def Handled (packet : ServiceApi.Packet) (before after : ImportState) : Prop :=
  after.invalidPacketsReceivedCounter = before.invalidPacketsReceivedCounter + 1 ∧
      after.mStreamDequeMap = before.mStreamDequeMap ∨
    after.invalidPacketsReceivedCounter = before.invalidPacketsReceivedCounter ∧
      before.mStreamDequeMap.addPacket build packet = .ok () after.mStreamDequeMap

/-- What `isValid` does not ask for. -/
structure Storable (packet : ServiceApi.Packet) : Prop where
  startTime : packet.startTime ≠ none
  notText : packet.dataType ≠ some .text
  recognized : ∀ value, packet.dataType ≠ some (.unrecognized value)

def Intact (packet : ServiceApi.Packet) : Prop :=
  ∀ item, entry packet = .ok item → item.startTime ≤ item.endTime

variable {build mOptions now} {packet : ServiceApi.Packet} {map : StreamDequeMapImpl}

theorem convertDataType_ok_iff (dataType : ServiceApi.DataType) :
    (∃ converted, convertDataType dataType = .ok converted) ↔
      dataType ≠ .text ∧ ∀ value, dataType ≠ .unrecognized value := by
  cases dataType <;> simp [convertDataType]

theorem isValidPacket_fields (h : isValidPacket packet = .ok ()) :
    ∃ identifier name samplingRate dataType nSamples data,
      packet.streamIdentifier = some identifier ∧ toString identifier = .ok name ∧
      packet.samplingRate = some samplingRate ∧ 0 < samplingRate ∧
      packet.dataType = some dataType ∧ packet.numberOfSamples = some nSamples ∧
      ¬ nSamples < 1 ∧ packet.data = some data := by
  rw [isValidPacket] at h
  cases hid : packet.streamIdentifier with
  | none => simp [hid] at h
  | some identifier =>
    cases hname : toString identifier with
    | error e => simp [hid, hname] at h
    | ok name =>
      cases hrate : packet.samplingRate with
      | none => simp [hid, hname, hrate] at h
      | some samplingRate =>
        simp only [hid, hname, hrate] at h
        split_ifs at h with hpos htype hdata
        obtain ⟨dataType, htype⟩ := Option.ne_none_iff_exists'.mp htype
        rw [not_or] at hdata
        obtain ⟨data, hd⟩ := Option.ne_none_iff_exists'.mp hdata.2
        cases hn : packet.numberOfSamples with
        | none => simp [hn] at hdata
        | some nSamples =>
          have hone := hdata.1
          rw [hn, Option.getD_some] at hone
          exact ⟨identifier, name, samplingRate, dataType, nSamples, data, rfl, hname, rfl,
            not_le.mp hpos, htype, rfl, hone, hd⟩

theorem convertPacket_fields {converted : CacheApi.Packet}
    (h : convertPacket packet = .ok converted) :
    converted.samplingRate = packet.samplingRate ∧
      converted.numberOfSamples = packet.numberOfSamples := by
  rw [convertPacket] at h
  cases hrate : packet.samplingRate with
  | none => simp [hrate] at h
  | some samplingRate =>
    by_cases hpos : samplingRate ≤ 0
    · simp [hrate, hpos] at h
    cases hstart : packet.startTime with
    | none => simp [hrate, hpos, hstart] at h
    | some startTime =>
      cases hn : packet.numberOfSamples with
      | none => simp [hrate, hpos, hstart, hn] at h
      | some nSamples =>
        cases htype : convertDataType (packet.dataType.getD .unknown) with
        | error e => simp [hrate, hpos, hstart, hn, htype] at h
        | ok dataType =>
          simp only [hrate, hpos, hstart, hn, htype, ↓reduceIte, Except.ok.injEq] at h
          rw [← h]
          exact ⟨rfl, rfl⟩

theorem convertPacket_ok_iff (hv : isValidPacket packet = .ok ()) :
    (∃ converted, convertPacket packet = .ok converted) ↔ Storable packet := by
  obtain ⟨_, _, samplingRate, dataType, nSamples, _, _, _, hrate, hpos, htype, hn, _, _⟩ :=
    isValidPacket_fields hv
  have hstorable : Storable packet ↔ packet.startTime ≠ none ∧
      ∃ converted, convertDataType dataType = .ok converted := by
    rw [convertDataType_ok_iff]
    constructor
    · rintro ⟨hs, ht, hr⟩
      exact ⟨hs, by simpa [htype] using ht, by simpa [htype] using hr⟩
    · rintro ⟨hs, ht, hr⟩
      exact ⟨hs, by simpa [htype] using ht, by simpa [htype] using hr⟩
  rw [hstorable]
  cases hstart : packet.startTime with
  | none => simp [convertPacket, hrate, hpos.not_ge, hstart]
  | some startTime =>
    cases hc : convertDataType dataType <;>
      simp [convertPacket, hrate, hpos.not_ge, hstart, hn, htype, hc]

theorem entry_ok_iff (hv : isValidPacket packet = .ok ()) :
    (∃ item, entry packet = .ok item) ↔ Storable packet := by
  obtain ⟨_, _, samplingRate, _, nSamples, _, hid, _, hrate, hpos, _, hn, hone, _⟩ :=
    isValidPacket_fields hv
  rw [← convertPacket_ok_iff hv]
  cases hc : convertPacket packet with
  | error e =>
    rw [entry, hid, hrate, hn, Option.getD_some, hc]
    cases hstart : packet.startTime <;> simp [hone]
  | ok converted =>
    obtain ⟨hcrate, hcn⟩ := convertPacket_fields hc
    have hstart : packet.startTime ≠ none :=
      ((convertPacket_ok_iff hv).mp ⟨converted, hc⟩).startTime
    have hend : ∃ endTime, getEndTimeNanoSeconds converted = .ok endTime := by
      rw [hrate] at hcrate
      rw [hn] at hcn
      simp [getEndTimeNanoSeconds, PacketMessage.numberOfSamples, PacketMessage.samplingRate,
        hcrate, hcn, hone, hpos.not_ge]
    obtain ⟨endTime, hend⟩ := hend
    rw [entry, hid, hrate, hn, Option.getD_some, hc]
    simp [hstart, hone, hend]

theorem entry_timed {item : PacketTime} (h : entry packet = .ok item) : Timed item := by
  rw [entry] at h
  split_ifs at h
  cases hc : convertPacket packet with
  | error e => simp [hc] at h
  | ok converted =>
    cases hend : getEndTimeNanoSeconds converted with
    | error e => simp [hc, hend] at h
    | ok endTime =>
      simp only [hc, hend, Except.ok.injEq] at h
      rw [← h]
      exact ⟨rfl, hend⟩

theorem reached_dequeOf (h : ∀ (key : String) (deque : StreamDequeImpl),
    map.mStreamDequeMap[key]? = some deque → Reached 2147483647 deque) (key : String) :
    Reached 2147483647 (dequeOf map key) := by
  cases hd : map.mStreamDequeMap[key]? with
  | some deque =>
    rw [dequeOf_some hd]
    exact h key deque hd
  | none =>
    rw [dequeOf_none hd]
    exact ⟨WellFormed.nil _, by simp [fresh, StreamDequeImpl.construct], rfl⟩

theorem reached_run (build : Build) (calls : List Call)
    (hcalls : ∀ packet, .addPacket packet ∈ calls → Intact packet) (key : String)
    (deque : StreamDequeImpl) (hd : (run build calls).mStreamDequeMap[key]? = some deque) :
    Reached 2147483647 deque := by
  induction calls using List.reverseRecOn generalizing key deque with
  | nil => exact absurd hd (by simp [run, StreamDequeMapImpl.construct])
  | append_singleton calls c ih =>
    have hbefore := ih (fun packet hm => hcalls packet (List.mem_append_left _ hm))
    rw [run_snoc] at hd
    refine call_forall build (Keyed.run build calls) hbefore c ?_ ?_ key deque hd
    · intro packet name item placed hc haccept hplaced
      have hentry := (accept_ok haccept).2
      have hr := reached_dequeOf hbefore name
      obtain ⟨placed', hp, _, hr'⟩ := hr.addPacket build (by decide) (entry_timed hentry)
        (hcalls packet (by simp [hc]) item hentry)
      rw [hr.capacity, hp] at hplaced
      obtain rfl := Except.ok.inj hplaced
      exact hr'
    · exact fun _ deque oldestTime hr => hr.removeExpiredPackets oldestTime

/-- The buffers of the map place any packet. Only a debug build needs them sorted for it. -/
theorem placePacket_run (build : Build) (calls : List Call)
    (hcalls : build = .debug → ∀ packet, .addPacket packet ∈ calls → Intact packet)
    (key : String) (item : PacketTime) :
    ∃ placed, placePacket build (dequeOf (run build calls) key).mMaximumNumberOfPackets
      (dequeOf (run build calls) key).mDeque item = .ok placed := by
  cases build with
  | release => exact placePacket_release _ _ item
  | debug =>
    have hr := reached_dequeOf (reached_run .debug calls (hcalls rfl)) key
    rw [hr.capacity]
    exact placePacket_total .debug hr.wellFormed

theorem addPacket_ok_iff (hk : Keyed map) (hv : isValidPacket packet = .ok ())
    (hplace : ∀ key item, ∃ placed, placePacket build (dequeOf map key).mMaximumNumberOfPackets
      (dequeOf map key).mDeque item = .ok placed) :
    (∃ final, map.addPacket build packet = .ok () final) ↔ Storable packet := by
  obtain ⟨identifier, key, _, _, _, _, hid, hname, _⟩ := isValidPacket_fields hv
  rw [← entry_ok_iff hv]
  have hkey : toString (packet.streamIdentifier.getD {}) = .ok key := by
    rw [hid, Option.getD_some, hname]
  have hadd := addPacket_named build hk hkey
  cases hi : entry packet with
  | error e =>
    simp only [hi] at hadd
    obtain ⟨final, hf, _⟩ := hadd
    simp [hf]
  | ok item =>
    obtain ⟨placed, hp⟩ := hplace key item
    simp only [hi, hp] at hadd
    obtain ⟨final, hf, _⟩ := hadd
    simp [hf]

theorem deque_addPacket_ok_iff {deque : StreamDequeImpl} (hv : isValidPacket packet = .ok ())
    (hkey : toString (packet.streamIdentifier.getD {}) = .ok deque.mStreamIdentifier)
    (hplace : ∀ item, ∃ placed,
      placePacket build deque.mMaximumNumberOfPackets deque.mDeque item = .ok placed) :
    (∃ after, StreamDeque.addPacket build packet deque = .ok () after) ↔ Storable packet := by
  rw [← entry_ok_iff hv, addPacket_entry build hkey]
  cases hi : entry packet with
  | error e => simp
  | ok item =>
    obtain ⟨placed, hp⟩ := hplace item
    simp [hp]

def Refused (mOptions : ProgramOptions) (now : Int) (packet : ServiceApi.Packet) : Prop :=
  isValidPacket packet ≠ .ok () ∨ hasExpiredData mOptions now packet = true ∨
    hasDataFromFuture mOptions now packet = true

theorem processPacket_refused (h : Refused mOptions now packet) (state : ImportState) :
    processPacket build mOptions now packet state = .ok () { state with
      packetsReceivedCounter := state.packetsReceivedCounter + 1
      invalidPacketsReceivedCounter := state.invalidPacketsReceivedCounter + 1 } := by
  cases hv : isValidPacket packet with
  | error reason => simp only [processPacket, hv]
  | ok u =>
    have hlimits := h.resolve_left (not_not.mpr hv)
    by_cases hexpired : hasExpiredData mOptions now packet = true
    · simp only [processPacket, hv, hexpired, ↓reduceIte]
    · have hfuture := hlimits.resolve_left hexpired
      simp only [processPacket, hv, hexpired, hfuture, Bool.false_eq_true, ↓reduceIte]

theorem processPacket_offered (h : ¬ Refused mOptions now packet) (state : ImportState) :
    (∃ after, processPacket build mOptions now packet state = .ok () after ∧
      Handled build packet state after) ↔
      ∃ final, state.mStreamDequeMap.addPacket build packet = .ok () final := by
  simp only [Refused, not_or, not_not, Bool.not_eq_true] at h
  obtain ⟨hv, hexpired, hfuture⟩ := h
  cases ha : state.mStreamDequeMap.addPacket build packet with
  | ok u map =>
    refine iff_of_true ⟨{ state with
      packetsReceivedCounter := state.packetsReceivedCounter + 1
      mStreamDequeMap := map }, ?_, Or.inr ⟨rfl, ha⟩⟩ ⟨map, rfl⟩
    simp only [processPacket, hv, hexpired, hfuture, ha, Bool.false_eq_true, ↓reduceIte]
  | error e map =>
    refine iff_of_false ?_ (by simp)
    rintro ⟨after, hafter, hhandled⟩
    simp only [processPacket, hv, hexpired, hfuture, ha, Bool.false_eq_true, ↓reduceIte] at hafter
    split_ifs at hafter
    injection hafter with _ hstate
    subst hstate
    cases hhandled with
    | inl hcounted => exact absurd hcounted.1 (by simp)
    | inr htaken => exact absurd (ha.symm.trans htaken.2) (by simp)

/-- After any run, a popped packet is counted as invalid or cached exactly if it is refused
or can be stored. Of the packets that `isValid` accepts, `addPacket` and `convert` accept
those that can be stored. -/
theorem processPacket_handled_iff (build : Build) (mOptions : ProgramOptions) (now : Int)
    (packet : ServiceApi.Packet) (calls : List Call) (received invalid : Nat)
    (hcalls : build = .debug → ∀ added, .addPacket added ∈ calls → Intact added) :
    ((∃ after, processPacket build mOptions now packet ⟨run build calls, received, invalid⟩ =
        .ok () after ∧ Handled build packet ⟨run build calls, received, invalid⟩ after) ↔
      Refused mOptions now packet ∨ Storable packet) ∧
    (isValidPacket packet = .ok () →
      ((∃ converted, convertPacket packet = .ok converted) ↔ Storable packet) ∧
      ∀ key, toString (packet.streamIdentifier.getD {}) = .ok key →
        ((∃ after, StreamDeque.addPacket build packet (dequeOf (run build calls) key) =
          .ok () after) ↔ Storable packet)) := by
  have hk : Keyed (run build calls) := Keyed.run build calls
  have hplace := placePacket_run build calls hcalls
  refine ⟨?_, ?_⟩
  · by_cases hr : Refused mOptions now packet
    · exact iff_of_true ⟨_, processPacket_refused hr _, Or.inl ⟨rfl, rfl⟩⟩ (Or.inl hr)
    · have hv : isValidPacket packet = .ok () := not_not.mp (fun hv => hr (Or.inl hv))
      rw [processPacket_offered hr, addPacket_ok_iff hk hv hplace]
      simp [hr]
  · intro hv
    refine ⟨convertPacket_ok_iff hv, fun key hkey => ?_⟩
    apply deque_addPacket_ok_iff hv _ (hplace key)
    rw [hk.dequeOf key, hkey]

def sampled (startTime : Option Timestamp) (dataType : ServiceApi.DataType) : ServiceApi.Packet :=
  { streamIdentifier := some (named "UU" "FTU" "HHZ" "01"), startTime, samplingRate := some 1,
    dataType := some dataType, numberOfSamples := some 5, data := some [] }

theorem intact_sampled : Intact (sampled (some ⟨0, 0⟩) .integer32) := by
  intro item hi
  have hentry : entry (sampled (some ⟨0, 0⟩) .integer32) =
      .ok ⟨⟨some ⟨0, 0⟩, some 1, some .integer32, some 5, some []⟩, 0, 4000000000⟩ := by
    decide +kernel
  rw [hentry, Except.ok.injEq] at hi
  simp [← hi]

theorem processPacket_handled_iff_sampled :
    (∃ after, processPacket .debug {} 0 (sampled (some ⟨0, 0⟩) .integer32)
        ⟨run .debug [.addPacket (sampled (some ⟨0, 0⟩) .integer32)], 1, 0⟩ = .ok () after ∧
      Handled .debug (sampled (some ⟨0, 0⟩) .integer32)
        ⟨run .debug [.addPacket (sampled (some ⟨0, 0⟩) .integer32)], 1, 0⟩ after) ↔
      Refused {} 0 (sampled (some ⟨0, 0⟩) .integer32) ∨
        Storable (sampled (some ⟨0, 0⟩) .integer32) := by
  refine (processPacket_handled_iff .debug {} 0 _ _ 1 0 ?_).1
  intro _ added hm
  simp only [List.mem_singleton, Call.addPacket.injEq] at hm
  rw [hm]
  exact intact_sampled

/-- With both limits off, the empty map and the counter of the invalid packets are what
they were, although `isValid` accepts the packet. -/
def Vanishes (packet : ServiceApi.Packet) : Prop :=
  isValidPacket packet = .ok () ∧ ¬ Refused ⟨0, -1⟩ 0 packet ∧
    processPacket .release ⟨0, -1⟩ 0 packet ⟨StreamDequeMapImpl.construct, 0, 0⟩ =
      .ok () ⟨StreamDequeMapImpl.construct, 1, 0⟩ ∧
    ¬ ∃ after, processPacket .release ⟨0, -1⟩ 0 packet ⟨StreamDequeMapImpl.construct, 0, 0⟩ =
        .ok () after ∧
      Handled .release packet ⟨StreamDequeMapImpl.construct, 0, 0⟩ after

theorem vanishes_of_thrown (what : String) (hv : isValidPacket packet = .ok ())
    (hexpired : hasExpiredData ⟨0, -1⟩ 0 packet = false)
    (hfuture : hasDataFromFuture ⟨0, -1⟩ 0 packet = false)
    (hadd : StreamDequeMapImpl.construct.addPacket .release packet =
      .error (.invalidArgument what) StreamDequeMapImpl.construct) : Vanishes packet := by
  have hr : ¬ Refused ⟨0, -1⟩ 0 packet := by simp [Refused, hv, hexpired, hfuture]
  refine ⟨hv, hr, ?_, ?_⟩
  · simp only [processPacket, hv, hexpired, hfuture, hadd, Fault.isException,
      Bool.false_eq_true, ↓reduceIte]
  · rw [processPacket_offered hr]
    simp [hadd]

theorem valid_packets_vanish :
    Vanishes (sampled none .integer32) ∧ Vanishes (sampled (some ⟨0, 0⟩) .text) := by
  constructor
  · exact vanishes_of_thrown "Start time is not set" (by decide +kernel)
      (by decide +kernel) (by decide +kernel) rfl
  · exact vanishes_of_thrown "Text type not supported" (by decide +kernel)
      (by decide +kernel) (by decide +kernel) rfl

end PacketCache.Importing
