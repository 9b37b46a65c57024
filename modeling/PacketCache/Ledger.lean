import Mathlib.Data.List.Infix
import PacketCache.Process
import PacketCache.Retention
import PacketCache.TreeTotals

namespace PacketCache.Ledger

open PacketCache.BoundedQueue PacketCache.MapRuns PacketCache.Messages PacketCache.Platform
open PacketCache.Process PacketCache.Retention PacketCache.StreamDeque
open PacketCache.StreamDequeMap PacketCache.TreeTotals
open PacketCache.QueueRuns (uncounted)

def size (map : StreamDequeMapImpl) : Nat :=
  total (fun deque => deque.mDeque.length) map.mStreamDequeMap

def uncountedRemoved : CleanDeques → Nat
  | .remove => 0
  | .removed nRemoved => nRemoved.toNat

variable {build : Build} {map final : StreamDequeMapImpl} {key : String}
variable {packet : ServiceApi.Packet} {calls : List Call} {placed : List PacketTime}

theorem size_kept (oldestTime : Int) :
    size (call build map (.removeExpiredPackets oldestTime)) =
      total (fun deque => (deque.removeExpiredPackets oldestTime).2.mDeque.length)
        map.mStreamDequeMap :=
  total_map (fun deque : StreamDequeImpl => (deque.removeExpiredPackets oldestTime).2)
    (fun deque => deque.mDeque.length)

theorem toNat_nRemoved (oldestTime : Int) :
    (map.removeExpiredPackets oldestTime).1.toNat =
      total (fun deque => (deque.removeExpiredPackets oldestTime).1) map.mStreamDequeMap % 2 ^ 32 :=
  toNat_foldl (fun deque : StreamDequeImpl => (deque.removeExpiredPackets oldestTime).1)

/-- A clean-up removes as many packets as it says, unless there are too many for 32 bits. -/
theorem size_removeExpiredPackets (oldestTime : Int) (hsize : size map < 2 ^ 32) :
    size (call build map (.removeExpiredPackets oldestTime)) +
      (map.removeExpiredPackets oldestTime).1.toNat = size map := by
  have hsplit : size map =
      total (fun deque => (deque.removeExpiredPackets oldestTime).2.mDeque.length +
        (deque.removeExpiredPackets oldestTime).1) map.mStreamDequeMap := by
    refine congrArg (fun measure => total measure map.mStreamDequeMap) (funext fun deque => ?_)
    have hle := List.length_filter_le (fun item => !decide (item.endTime < oldestTime)) deque.mDeque
    simp only [StreamDequeImpl.removeExpiredPackets]
    omega
  rw [total_add, ← @size_kept build] at hsplit
  rw [toNat_nRemoved, Nat.mod_eq_of_lt (by omega), ← hsplit]

theorem size_same (h : Same map final) : size final = size map :=
  total_perm _ (toList_perm h)

theorem size_updated
    (h : Updated map key { dequeOf map key with mDeque := placed } final) :
    size final + (dequeOf map key).mDeque.length = size map + placed.length := by
  have htotal := total_updated (fun deque => deque.mDeque.length) h
  rw [size, size, ← htotal]
  cases hd : map.mStreamDequeMap[key]? with
  | none => rw [dequeOf_none hd]; rfl
  | some deque => rw [dequeOf_some hd]; rfl

theorem size_addPacket (calls : List Call) (packet : ServiceApi.Packet)
    (hroom : ∀ key, (dequeOf (MapRuns.run build calls) key).mDeque.length < 2147483647) :
    size (call build (MapRuns.run build calls) (.addPacket packet)) =
      size (MapRuns.run build calls) +
        if takes build (MapRuns.run build calls) packet then 1 else 0 := by
  obtain ⟨e, final, hf, hsame, herror⟩ | ⟨key, item, placed, final, ha, hp, hf, hu⟩ :=
    addPacket_cases build (Keyed.run build calls) packet
  · have htakes : takes build (MapRuns.run build calls) packet = false := by
      obtain ha | ⟨key, item, ha, hp⟩ := herror
      · simp only [takes, ha]
      · simp only [takes, ha, hp]
    rw [call, hf, finalState_error, size_same hsame, htakes]
    rfl
  · have hsize := size_updated hu
    rw [call, hf, finalState_ok]
    cases placing_run hp with
    | skipped he => simp [takes, ha, hp, he] at hsize ⊢; omega
    | stored hperm =>
      have hlength := hperm.length_eq
      have hne : placed ≠ (dequeOf (MapRuns.run build calls) key).mDeque := by
        rintro he
        simp [he] at hlength
      simp only [takes, ha, hp, hne, ne_eq, not_false_eq_true, decide_true, ↓reduceIte]
      simp only [List.length_cons] at hlength
      omega
    | displaced dropped hfull hperm => exact absurd hfull (not_le.mpr (hroom key))

theorem length_le_size (map : StreamDequeMapImpl) (key : String) :
    (dequeOf map key).mDeque.length ≤ size map := by
  cases hd : map.mStreamDequeMap[key]? with
  | none =>
    rw [dequeOf_none hd]
    exact Nat.zero_le _
  | some deque =>
    rw [dequeOf_some hd]
    exact measure_le_total (fun deque : StreamDequeImpl => deque.mDeque.length) hd

section Runs

variable {Q : Type} {operations : Operations Q ServiceApi.Packet}
variable {mOptions : IniFile.ProgramOptions} {contents : Q → List ServiceApi.Packet}
variable {s s' : State Q}

/-- Whatever was cached is still there, or was counted as removed, or is about to be. -/
def Accounted (s : State Q) : Prop :=
  s.history.cached.length =
    size s.mStreamDequeMap + s.packetsRemovedCounter + uncountedRemoved s.cleanDeques

theorem record_cached (history : History) (taken : Bool) (packet : ServiceApi.Packet) :
    (history.record false taken packet).cached.length =
      history.cached.length + if taken then 1 else 0 := by
  cases taken <;> simp [History.record]

theorem Accounted.step {event : Event} (h : Accounted s) (hi : Imported build s)
    (hsize : size s.mStreamDequeMap < 2147483647)
    (hstep : step build operations mOptions s event = some s') : Accounted s' := by
  rw [Accounted] at h ⊢
  cases step_stepped hstep with
  | queue event moved queue hq hi => exact h
  | rejected now packet hp hr => exact h
  | offered now packet hp hr =>
    rw [hi.map] at h hsize
    have hroom : ∀ key, (dequeOf (MapRuns.run build s.history.calls) key).mDeque.length <
        2147483647 :=
      fun key => (length_le_size _ key).trans_lt hsize
    simp only [record_cached, hi.map, size_addPacket _ packet hroom]
    omega
  | cleaned now oldestTime hc ho =>
    have hremoved := @size_removeExpiredPackets build s.mStreamDequeMap oldestTime (by omega)
    simp only [hc, uncountedRemoved] at h ⊢
    omega
  | counted now nRemoved hc =>
    simp only [hc, uncountedRemoved] at h ⊢
    omega

/-- The map never holds as many packets at once as a single deque has room for. -/
def Fits (build : Build) (operations : Operations Q ServiceApi.Packet)
    (mOptions : IniFile.ProgramOptions) (queue : Q) (events : List Event) : Prop :=
  ∀ before, before <+: events → ∀ s,
    Process.run build operations mOptions queue before = some s →
      size s.mStreamDequeMap < 2147483647

theorem Accounted.run {queue : Q} {events : List Event}
    (hrun : Process.run build operations mOptions queue events = some s)
    (hfits : Fits build operations mOptions queue events) : Accounted s := by
  induction events using List.reverseRecOn generalizing s with
  | nil =>
    obtain rfl := Transitions.run_nil.mp hrun
    rfl
  | append_singleton events event ih =>
    obtain ⟨mid, hmid, hstep⟩ := Transitions.run_snoc.mp hrun
    have hprefix : events <+: events ++ [event] := List.prefix_append _ _
    exact (ih hmid (fun before hb => hfits before (hb.trans hprefix))).step (Imported.run hmid)
      (hfits events hprefix mid hmid) hstep

/-- The two accounts of a state: where the packets are that the subscriber handed over, and
what became of those that `processPackets` counted as received. -/
structure Balanced (contents : Q → List ServiceApi.Packet) (s : State Q) : Prop where
  handed : s.importQueue.history.handed.length =
    s.importQueue.addPacket.toList.length + s.importQueue.history.discarded.length +
      (contents s.importQueue.mImportQueue).length + s.importQueue.packetsReceivedCounter +
      uncounted s.importQueue.processPackets
  received : s.importQueue.packetsReceivedCounter + uncounted s.importQueue.processPackets =
    (inHand s.importQueue.processPackets).length + s.invalidPacketsReceivedCounter +
      s.history.declined.length + size s.mStreamDequeMap + s.packetsRemovedCounter +
      uncountedRemoved s.cleanDeques

theorem queue_balanced {q : ImportQueue.State Q} {maximum : Nat}
    (h : QueueRuns.Invariant contents maximum q) :
    q.history.handed.length = q.addPacket.toList.length + q.history.discarded.length +
        (contents q.mImportQueue).length + q.history.obtained.length ∧
      q.history.obtained.length = q.packetsReceivedCounter + uncounted q.processPackets := by
  have hhanded := congrArg List.length h.handed
  have henqueued := congrArg List.length h.enqueued
  have htraced : q.history.enqueued = q.history.removed ++ contents q.mImportQueue := h.traced
  have hqueued := congrArg List.length htraced
  have hremoved := h.removed
  have hreceived := h.received
  simp only [List.length_append, List.length_map] at hhanded henqueued hqueued
  omega

theorem balanced_of_accounted {maximum : Nat}
    (hq : QueueRuns.Invariant contents maximum s.importQueue) (hi : Imported build s)
    (ha : Accounted s) : Balanced contents s := by
  obtain ⟨hhanded, hreceived⟩ := queue_balanced hq
  have hobtained := hi.obtained.length_eq
  have hinvalid := hi.invalid
  rw [Accounted] at ha
  simp only [List.length_append] at hobtained
  exact ⟨by omega, by omega⟩

/-- However the subscriber, the import and the cleaner interleave, no packet is lost track of:
each one that was handed over waits somewhere, was dropped by the full queue, or was counted
as received, and each one received is in hand, invalid, turned down by the map, cached, or
removed, with the counters of the metrics exact. -/
theorem run_balanced (build : Build) (mOptions : IniFile.ProgramOptions) (queue : Q)
    (events : List Event) (hf : Fifo operations (mMaximumImportQueueSize mOptions) contents)
    (hmax : 1 ≤ mMaximumImportQueueSize mOptions) (hq : contents queue = [])
    (hrun : Process.run build operations mOptions queue events = some s)
    (hfits : Fits build operations mOptions queue events) : Balanced contents s := by
  obtain ⟨seen, hseen⟩ := run_importQueue hrun
  have hinvariant := (QueueRuns.Invariant.start hq).run hf hmax hseen
  exact balanced_of_accounted hinvariant (Imported.run hrun) (Accounted.run hrun hfits)

def expireAndQueue : List Event :=
  [.call (Importing.sampled (some ⟨0, 0⟩) .integer32), .producer, .producer, .consumer 0,
    .consumer 0, .consumer 0, .cleaner 400000000000,
    .call (Importing.sampled (some ⟨300, 0⟩) .integer32), .producer, .producer, .cleaner 0]

theorem fits_expireAndQueue :
    Fits .debug (bounded ServiceApi.Packet 4096) {} [] expireAndQueue := by
  have hinits : ∀ before ∈ expireAndQueue.inits,
      (Process.run .debug (bounded ServiceApi.Packet 4096) {} [] before).all
        (fun s => size s.mStreamDequeMap < 2147483647) = true := by
    decide +kernel
  intro before hb s hrun
  have hall := hinits before ((List.mem_inits _ _).mpr hb)
  rw [hrun] at hall
  simpa using hall

theorem run_balanced_expireAndQueue :
    ∃ s, Process.run .debug (bounded ServiceApi.Packet 4096) {} [] expireAndQueue = some s ∧
      Balanced id s := by
  have hruns : (Process.run .debug (bounded ServiceApi.Packet 4096) {} [] expireAndQueue).isSome := by
    decide +kernel
  obtain ⟨s, hrun⟩ := Option.isSome_iff_exists.mp hruns
  exact ⟨s, hrun, run_balanced .debug {} [] expireAndQueue (bounded_fifo _ _) (by decide) rfl hrun
    fits_expireAndQueue⟩

end Runs

end PacketCache.Ledger
