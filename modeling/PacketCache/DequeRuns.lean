import PacketCache.Insertion

namespace PacketCache.DequeRuns

open PacketCache.Insertion PacketCache.Messages PacketCache.Platform PacketCache.StreamDeque
open PacketCache.Times

inductive Call
  | addPacket (packet : CacheApi.Packet)
  | removeExpiredPackets (oldestTime : Int)

/-- A call that throws leaves the state it left behind, as any other call does. -/
def call (build : Build) (self : StreamDequeImpl) : Call → StreamDequeImpl
  | .addPacket packet => finalState (self.addPacket build packet)
  | .removeExpiredPackets oldestTime => (self.removeExpiredPackets oldestTime).2

def run (build : Build) (self : StreamDequeImpl) (calls : List Call) : StreamDequeImpl :=
  calls.foldl (call build) self

/-- The end time does not come out before the start time, as it can when the 64-bit
arithmetic wraps. -/
def EndsAfterStart (packet : CacheApi.Packet) : Prop :=
  ∀ endTime, getEndTimeNanoSeconds packet = .ok endTime → getStartTimeNanoSeconds packet ≤ endTime

instance : DecidablePred EndsAfterStart := fun packet =>
  match h : getEndTimeNanoSeconds packet with
  | .ok endTime =>
    decidable_of_iff (getStartTimeNanoSeconds packet ≤ endTime) (by simp [EndsAfterStart, h])
  | .error _ => .isTrue (by simp [EndsAfterStart, h])

def Timed (item : PacketTime) : Prop :=
  getStartTimeNanoSeconds item.packet = item.startTime ∧
    getEndTimeNanoSeconds item.packet = .ok item.endTime

theorem Timed.eq_of_packet {a b : PacketTime} (ha : Timed a) (hb : Timed b)
    (h : a.packet = b.packet) : a = b := by
  obtain ⟨p, s, e⟩ := a
  obtain ⟨q, s', e'⟩ := b
  obtain ⟨hs, he⟩ := ha
  obtain ⟨hs', he'⟩ := hb
  simp only at h hs he hs' he'
  subst h
  rw [hs] at hs'
  rw [he, Except.ok.injEq] at he'
  rw [hs', he']

structure Reached (maximum : Nat) (deque : StreamDequeImpl) : Prop where
  wellFormed : WellFormed maximum deque.mDeque
  timed : ∀ item ∈ deque.mDeque, Timed item
  capacity : deque.mMaximumNumberOfPackets = maximum

variable (build : Build) {maximum : Nat} {self : StreamDequeImpl}

theorem addPacket_timed {item : PacketTime} (h : Timed item) :
    self.addPacket build item.packet =
      match placePacket build self.mMaximumNumberOfPackets self.mDeque item with
      | .error e => .error e self
      | .ok mDeque => .ok () { self with mDeque := mDeque } := by
  obtain ⟨packet, startTime, endTime⟩ := item
  cases hplaced : placePacket build self.mMaximumNumberOfPackets self.mDeque
      ⟨packet, startTime, endTime⟩ <;>
    simp only [StreamDequeImpl.addPacket, h.1, h.2, hplaced]

theorem Reached.addPacket (h : Reached maximum self) (hmax : 1 ≤ maximum) {item : PacketTime}
    (ht : Timed item) (hi : item.startTime ≤ item.endTime) :
    ∃ placed, placePacket build maximum self.mDeque item = .ok placed ∧
      self.addPacket build item.packet = .ok () { self with mDeque := placed } ∧
      Reached maximum { self with mDeque := placed } := by
  obtain ⟨placed, hp, hw, hm⟩ := placePacket_wellFormed build h.wellFormed hmax hi
  refine ⟨placed, hp, ?_, hw, ?_, h.capacity⟩
  · rw [addPacket_timed build ht, h.capacity, hp]
  · intro x hx
    cases hm x hx with
    | inl he => rwa [he]
    | inr hx => exact h.timed x hx

theorem Reached.construct (options : StreamDequeOptions) :
    Reached options.mMaximumNumberOfPackets (StreamDequeImpl.construct options) :=
  ⟨WellFormed.nil _, by simp [StreamDequeImpl.construct], rfl⟩

theorem Reached.removeExpiredPackets (h : Reached maximum self) (oldestTime : Int) :
    Reached maximum (self.removeExpiredPackets oldestTime).2 :=
  ⟨h.wellFormed.sublist (List.filter_sublist),
    fun item hm => h.timed item (List.mem_of_mem_filter hm), h.capacity⟩

theorem exists_timed_or_refused (deque : StreamDequeImpl) (packet : CacheApi.Packet) :
    (∃ item : PacketTime, item.packet = packet ∧ Timed item) ∨
      call build deque (.addPacket packet) = deque := by
  cases he : getEndTimeNanoSeconds packet with
  | error e => exact Or.inr (by simp [DequeRuns.call, StreamDequeImpl.addPacket, he])
  | ok endTime => exact Or.inl ⟨⟨packet, getStartTimeNanoSeconds packet, endTime⟩, rfl, rfl, he⟩

theorem Reached.call (h : Reached maximum self) (hmax : 1 ≤ maximum) (c : Call)
    (hc : ∀ packet, c = .addPacket packet → EndsAfterStart packet) :
    Reached maximum (call build self c) := by
  cases c with
  | removeExpiredPackets oldestTime => exact h.removeExpiredPackets oldestTime
  | addPacket packet =>
    cases exists_timed_or_refused build self packet with
    | inr hrefused => rwa [hrefused]
    | inl htimed =>
      obtain ⟨item, rfl, ht⟩ := htimed
      have hi : item.startTime ≤ item.endTime := ht.1 ▸ hc _ rfl item.endTime ht.2
      obtain ⟨placed, _, ha, hr⟩ := h.addPacket build hmax ht hi
      simpa [DequeRuns.call, ha] using hr

theorem Reached.run (h : Reached maximum self) (hmax : 1 ≤ maximum) (calls : List Call)
    (hc : ∀ packet, .addPacket packet ∈ calls → EndsAfterStart packet) :
    Reached maximum (run build self calls) := by
  induction calls generalizing self with
  | nil => exact h
  | cons c calls ih =>
    exact ih (h.call build hmax c (fun packet he => hc packet (by simp [he])))
      (fun packet hm => hc packet (by simp [hm]))

/-- Adding packets one after the other, up to the first fault. -/
def addPackets (build : Build) : List CacheApi.Packet → StreamDequeImpl →
    EStateM.Result Fault StreamDequeImpl Unit
  | [], self => .ok () self
  | packet :: packets, self =>
    match self.addPacket build packet with
    | .ok _ self => addPackets build packets self
    | .error e self => .error e self

def oneHertz (seconds : Int64) (nSamples : UInt32) : CacheApi.Packet :=
  { startTime := some ⟨seconds, 0⟩, samplingRate := some 1, numberOfSamples := some nSamples }

theorem oneHertz_endsAfterStart :
    ∀ packet, .addPacket packet ∈ [Call.addPacket (oneHertz 10 5), .addPacket (oneHertz 0 5)] →
      EndsAfterStart packet := by
  have hlate : EndsAfterStart (oneHertz 10 5) := by decide +kernel
  have hearly : EndsAfterStart (oneHertz 0 5) := by decide +kernel
  simp [hlate, hearly]

end PacketCache.DequeRuns
