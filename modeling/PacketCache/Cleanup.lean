import PacketCache.Insertion
import PacketCache.MapRuns

namespace PacketCache.Cleanup

open PacketCache.Insertion PacketCache.MapRuns PacketCache.Messages PacketCache.Platform
open PacketCache.SortedWindow PacketCache.StreamDeque PacketCache.StreamDequeMap

def addedBy (key : String) : Call → Option PacketTime
  | .addPacket packet =>
    match accept packet with
    | .ok (name, item) => if name = key then some item else none
    | .error _ => none
  | .removeExpiredPackets _ => none

def added (calls : List Call) (key : String) : List PacketTime := calls.filterMap (addedBy key)

variable (build : Build) {map : StreamDequeMapImpl} {calls : List Call} {key : String}
variable {deque : StreamDequeImpl} {items : List PacketTime} {item : PacketTime} {oldest : Int}

/-- A deque that has lost no added packet but those that end before `oldest`. -/
structure Retains (oldest : Int) (items : List PacketTime) (deque : StreamDequeImpl) : Prop where
  wellFormed : WellFormed 2147483647 deque.mDeque
  capacity : deque.mMaximumNumberOfPackets = 2147483647
  distinct : (deque.mDeque.map PacketTime.startTime).Nodup
  added : ∀ item ∈ deque.mDeque, item ∈ items
  kept : ∀ item ∈ items, oldest ≤ item.endTime → item ∈ deque.mDeque

theorem Retains.fresh (oldest : Int) (key : String) : Retains oldest [] (fresh key) :=
  ⟨WellFormed.nil _, rfl, List.nodup_nil, by simp [StreamDequeMap.fresh, StreamDequeImpl.construct],
    by simp⟩

theorem Retains.length_le (h : Retains oldest items deque) : deque.mDeque.length ≤ items.length :=
  (List.subperm_of_subset h.distinct.of_map h.added).length_le

theorem Retains.placePacket (h : Retains oldest items deque)
    (hlength : items.length < 2147483647) (hi : item.startTime ≤ item.endTime)
    (hnew : item.startTime ∉ items.map PacketTime.startTime) :
    ∃ placed, placePacket build deque.mMaximumNumberOfPackets deque.mDeque item = .ok placed ∧
      Retains oldest (items ++ [item]) { deque with mDeque := placed } := by
  have hdistinct : ∀ x ∈ deque.mDeque, x.startTime ≠ item.startTime :=
    fun x hx he => hnew (List.mem_map.mpr ⟨x, h.added x hx, he⟩)
  have hmem : ∀ x, x ∈ insertKey PacketTime.startTime item deque.mDeque ↔
      x = item ∨ x ∈ deque.mDeque := fun x => mem_insertKey _
  have hplace := placePacket_new build h.wellFormed (by decide) hi hdistinct
  have hle : (insertKey PacketTime.startTime item deque.mDeque).length ≤ 2147483647 := by
    rw [length_insertKey]
    have := h.length_le
    omega
  have hwell := h.wellFormed.rtake (ordered_insertKey h.wellFormed hdistinct) hi hmem
  rw [rtake_of_length_le hle] at hplace hwell
  refine ⟨_, by rw [h.capacity]; exact hplace, hwell, h.capacity, ?_, ?_, ?_⟩
  · have hperm := (List.perm_orderedInsert (fun x y => x.startTime ≤ y.startTime) item
      deque.mDeque).map PacketTime.startTime
    refine hperm.nodup_iff.mpr (List.nodup_cons.mpr ⟨?_, h.distinct⟩)
    rintro hm
    obtain ⟨x, hx, he⟩ := List.mem_map.mp hm
    exact hdistinct x hx he
  · intro x hx
    cases (hmem x).mp hx with
    | inl he => simp [he]
    | inr hx => exact List.mem_append_left _ (h.added x hx)
  · intro x hx hend
    apply (hmem x).mpr
    cases List.mem_append.mp hx with
    | inl hx => exact Or.inr (h.kept x hx hend)
    | inr hx => exact Or.inl (List.mem_singleton.mp hx)

theorem Retains.removeExpiredPackets (h : Retains oldest items deque) {oldestTime : Int}
    (ht : oldestTime ≤ oldest) :
    Retains oldest items (deque.removeExpiredPackets oldestTime).2 := by
  have hsub : (deque.removeExpiredPackets oldestTime).2.mDeque.Sublist deque.mDeque :=
    List.filter_sublist
  refine ⟨h.wellFormed.sublist hsub, h.capacity,
    h.distinct.sublist (hsub.map _), fun x hx => h.added x (hsub.mem hx), fun x hx hend => ?_⟩
  refine List.mem_filter.mpr ⟨h.kept x hx hend, ?_⟩
  have hle : oldestTime ≤ x.endTime := ht.trans hend
  simpa using hle

theorem Retains.last (h : Retains oldest items deque)
    (hdistinct : (items.map PacketTime.startTime).Nodup) :
    (deque.removeExpiredPackets oldest).2.mDeque =
      sortKey PacketTime.startTime (items.filter (fun item => oldest ≤ item.endTime)) := by
  have hlast := h.removeExpiredPackets le_rfl
  refine eq_sortKey_of_mem _ hlast.wellFormed.sorted hlast.distinct
    (hdistinct.of_map.filter _) (fun x => ?_)
  rw [List.mem_filter, decide_eq_true_eq]
  constructor
  · intro hx
    have hend : oldest ≤ x.endTime := by simpa using (List.mem_filter.mp hx).2
    exact ⟨hlast.added x hx, hend⟩
  · exact fun hx => hlast.kept x hx.1 hx.2

/-- The invariant of the map: the deques of the streams with an added packet exist, and
each retains its stream. -/
structure Cleaned (oldest : Int) (calls : List Call) (map : StreamDequeMapImpl) : Prop where
  present : ∀ key : String, map.mStreamDequeMap[key]?.isSome ↔ added calls key ≠ []
  retains : ∀ key, Retains oldest (added calls key) (dequeOf map key)

theorem added_snoc (calls : List Call) (c : Call) (key : String) :
    added (calls ++ [c]) key = added calls key ++ (addedBy key c).toList := by
  rw [added, List.filterMap_append]
  cases h : addedBy key c <;> simp [added, h]

theorem Cleaned.same {final : StreamDequeMapImpl} {c : Call} (h : Cleaned oldest calls map)
    (hc : ∀ key, addedBy key c = none) (hs : Same map final) :
    Cleaned oldest (calls ++ [c]) final := by
  have hadded : ∀ key, added (calls ++ [c]) key = added calls key := by
    intro key
    rw [added_snoc, hc key, Option.toList_none, List.append_nil]
  refine ⟨fun key => ?_, fun key => ?_⟩
  · rw [hadded, hs key]
    exact h.present key
  · rw [hadded, dequeOf, hs key]
    exact h.retains key

theorem Cleaned.updated {final : StreamDequeMapImpl} {c : Call} (h : Cleaned oldest calls map)
    (hc : ∀ other, addedBy other c = if key = other then some item else none)
    (hretains : Retains oldest (added calls key ++ [item]) deque)
    (hu : Updated map key deque final) : Cleaned oldest (calls ++ [c]) final := by
  refine ⟨fun other => ?_, fun other => ?_⟩
  · rw [added_snoc, hc other, hu other]
    by_cases he : other = key
    · simp [he]
    · simpa [he, Ne.symm he] using h.present other
  · rw [added_snoc, hc other, dequeOf, hu other]
    by_cases he : other = key
    · simpa [he] using hretains
    · simpa [he, Ne.symm he, dequeOf] using h.retains other

theorem Cleaned.removeExpiredPackets (h : Cleaned oldest calls map) {oldestTime : Int}
    (ht : oldestTime ≤ oldest) :
    Cleaned oldest (calls ++ [.removeExpiredPackets oldestTime])
      (map.removeExpiredPackets oldestTime).2 := by
  have hadded : ∀ key, added (calls ++ [.removeExpiredPackets oldestTime]) key =
      added calls key := by
    intro key
    rw [added_snoc, addedBy, Option.toList_none, List.append_nil]
  refine ⟨fun key => ?_, fun key => ?_⟩
  · rw [hadded, removeExpiredPackets_getElem?, Option.isSome_map]
    exact h.present key
  · have hretains := h.retains key
    rw [hadded, dequeOf, removeExpiredPackets_getElem?]
    cases hd : map.mStreamDequeMap[key]? with
    | none => rwa [dequeOf_none hd] at hretains
    | some deque =>
      rw [dequeOf_some hd] at hretains
      exact hretains.removeExpiredPackets ht

/-- The packets of each stream that a run adds: few enough, apart in their start times,
and none ending before it starts. -/
structure Distinct (calls : List Call) : Prop where
  count : ∀ key, (added calls key).length < 2147483647
  startTimes : ∀ key, ((added calls key).map PacketTime.startTime).Nodup
  interval : ∀ key, ∀ item ∈ added calls key, item.startTime ≤ item.endTime

theorem Distinct.of_snoc {c : Call} (h : Distinct (calls ++ [c])) : Distinct calls := by
  refine ⟨fun key => ?_, fun key => ?_, fun key item hm => h.interval key item ?_⟩
  · have := h.count key
    rw [added_snoc, List.length_append] at this
    omega
  · have := h.startTimes key
    rw [added_snoc, List.map_append] at this
    exact this.of_append_left
  · rw [added_snoc]
    exact List.mem_append_left _ hm

theorem Cleaned.addPacket (h : Cleaned oldest calls map) (hk : Keyed map)
    (packet : ServiceApi.Packet) (hd : Distinct (calls ++ [.addPacket packet])) :
    Cleaned oldest (calls ++ [.addPacket packet]) (finalState (map.addPacket build packet)) := by
  have hadd := addPacket_accept build hk packet
  cases ha : accept packet with
  | error e =>
    simp only [ha] at hadd
    obtain ⟨final, hf, hs⟩ := hadd
    rw [hf, finalState_error]
    exact h.same (fun key => by simp only [addedBy, ha]) hs
  | ok accepted =>
    obtain ⟨key, item⟩ := accepted
    have hc : ∀ other, addedBy other (.addPacket packet) =
        if key = other then some item else none := fun other => by simp only [addedBy, ha]
    have hsnoc : added (calls ++ [.addPacket packet]) key = added calls key ++ [item] := by
      rw [added_snoc, hc, if_pos rfl, Option.toList_some]
    have hstart := hd.startTimes key
    have hinterval := hd.interval key item (by rw [hsnoc]; simp)
    rw [hsnoc, List.map_append, List.nodup_append] at hstart
    have hnew : item.startTime ∉ (added calls key).map PacketTime.startTime :=
      fun hm => hstart.2.2 _ hm _ (by simp) rfl
    obtain ⟨placed, hp, hretains⟩ := (h.retains key).placePacket build
      (hd.of_snoc.count key) hinterval hnew
    simp only [ha, hp] at hadd
    obtain ⟨final, hf, hu⟩ := hadd
    rw [hf, finalState_ok]
    exact h.updated hc hretains hu

theorem Cleaned.run (calls : List Call) (hd : Distinct calls)
    (hcutoffs : ∀ oldestTime, .removeExpiredPackets oldestTime ∈ calls → oldestTime ≤ oldest) :
    Cleaned oldest calls (run build calls) := by
  induction calls using List.reverseRecOn with
  | nil =>
    have hnone : ∀ key : String, (MapRuns.run build []).mStreamDequeMap[key]? = none := by
      simp [MapRuns.run, StreamDequeMapImpl.construct]
    refine ⟨fun key => by rw [hnone]; simp [added], fun key => ?_⟩
    rw [dequeOf_none (hnone key)]
    exact Retains.fresh oldest key
  | append_singleton calls c ih =>
    have hprefix := ih hd.of_snoc (fun t hm => hcutoffs t (by simp [hm]))
    rw [run_snoc]
    cases c with
    | removeExpiredPackets oldestTime =>
      exact hprefix.removeExpiredPackets (hcutoffs oldestTime (by simp))
    | addPacket packet => exact hprefix.addPacket build (Keyed.run build calls) packet hd

/-- However the calls of the import thread and of the cleaner interleave, the clean-up at
`oldest` leaves each stream with the added packets that reach `oldest`. -/
theorem getAllPackets_after_cleanup (build : Build) (oldest : Int) (calls : List Call)
    (hd : Distinct calls)
    (hcutoffs : ∀ oldestTime, .removeExpiredPackets oldestTime ∈ calls → oldestTime ≤ oldest)
    (key : String) :
    (run build (calls ++ [.removeExpiredPackets oldest])).mStreamDequeMap[key]?.map
        StreamDequeImpl.getAllPackets =
      if added calls key = [] then none
      else some ((sortKey PacketTime.startTime ((added calls key).filter
        (fun item => oldest ≤ item.endTime))).map PacketTime.packet) := by
  have h := Cleaned.run build calls hd hcutoffs
  have hpresent := h.present key
  have hretains := h.retains key
  rw [run_snoc, MapRuns.call, removeExpiredPackets_getElem?]
  cases hget : (run build calls).mStreamDequeMap[key]? with
  | none =>
    rw [hget] at hpresent
    have hnil : added calls key = [] := by simpa using hpresent
    rw [if_pos hnil]
    rfl
  | some deque =>
    rw [hget] at hpresent
    rw [dequeOf_some hget] at hretains
    have hne : added calls key ≠ [] := hpresent.mp rfl
    rw [if_neg hne, Option.map_some, Option.map_some, StreamDequeImpl.getAllPackets,
      hretains.last (hd.startTimes key)]

theorem getAllPackets_after_cleanup_late_packet :
    (run .debug ([.addPacket (fiveSamples (named "UU" "FTU" "HHZ" "01") 10),
        .removeExpiredPackets 2000000000,
        .addPacket (fiveSamples (named "UU" "FTU" "HHZ" "01") 0)] ++
          [.removeExpiredPackets 5000000000])).mStreamDequeMap["UU.FTU.HHZ.01"]?.map
        StreamDequeImpl.getAllPackets =
      if added [.addPacket (fiveSamples (named "UU" "FTU" "HHZ" "01") 10),
        .removeExpiredPackets 2000000000,
        .addPacket (fiveSamples (named "UU" "FTU" "HHZ" "01") 0)] "UU.FTU.HHZ.01" = [] then none
      else some ((sortKey PacketTime.startTime
        ((added [.addPacket (fiveSamples (named "UU" "FTU" "HHZ" "01") 10),
          .removeExpiredPackets 2000000000,
          .addPacket (fiveSamples (named "UU" "FTU" "HHZ" "01") 0)] "UU.FTU.HHZ.01").filter
            (fun item => 5000000000 ≤ item.endTime))).map PacketTime.packet) := by
  have hlate : accept (fiveSamples (named "UU" "FTU" "HHZ" "01") 10) = .ok ("UU.FTU.HHZ.01",
      ⟨⟨some ⟨10, 0⟩, some 1, some .unknown, some 5, some []⟩, 10000000000, 14000000000⟩) := by
    decide +kernel
  have hearly : accept (fiveSamples (named "UU" "FTU" "HHZ" "01") 0) = .ok ("UU.FTU.HHZ.01",
      ⟨⟨some ⟨0, 0⟩, some 1, some .unknown, some 5, some []⟩, 0, 4000000000⟩) := by
    decide +kernel
  refine getAllPackets_after_cleanup .debug 5000000000 _ ⟨?_, ?_, ?_⟩ (by simp) _
  all_goals
    intro key
    by_cases hkey : "UU.FTU.HHZ.01" = key <;>
      simp [added, List.filterMap_cons, addedBy, hlate, hearly, hkey]

end PacketCache.Cleanup
