import PacketCache.ExpiringStore
import PacketCache.Retention

namespace PacketCache.StoreRefinement

open PacketCache.Cleanup
open PacketCache.ExpiringStore (Operation mem_run_expire mem_run_iff mem_run_insert)
open PacketCache.Insertion PacketCache.MapRuns PacketCache.Messages PacketCache.Platform
open PacketCache.Retention PacketCache.SortedWindow PacketCache.StreamDeque
open PacketCache.StreamDequeMap

variable {build : Build} {calls : List Call} {key : String} {packet : ServiceApi.Packet}
variable {item : PacketTime} {placed : List PacketTime} {map : StreamDequeMapImpl}

def operation : Call → Option (Operation String PacketTime Int)
  | .addPacket packet =>
    match accept packet with
    | .ok (key, item) => some (.insert key item)
    | .error _ => none
  | .removeExpiredPackets oldestTime => some (.expire oldestTime)

def store (calls : List Call) : String → Set PacketTime :=
  ExpiringStore.run PacketTime.endTime (calls.filterMap operation)

theorem store_snoc_none {c : Call} (h : operation c = none) : store (calls ++ [c]) = store calls := by
  rw [store, List.filterMap_append, List.filterMap_cons, h, List.filterMap_nil, List.append_nil,
    store]

theorem store_snoc_some {c : Call} {o : Operation String PacketTime Int}
    (h : operation c = some o) :
    store (calls ++ [c]) =
      ExpiringStore.run PacketTime.endTime (calls.filterMap operation ++ [o]) := by
  rw [store, List.filterMap_append, List.filterMap_cons, h, List.filterMap_nil]

theorem mem_added_of_mem_store (h : item ∈ store calls key) : item ∈ added calls key := by
  obtain ⟨before, after, hsplit, _⟩ := mem_run_iff.mp h
  have hm : Operation.insert key item ∈ calls.filterMap operation := by simp [hsplit]
  obtain ⟨c, hc, hoperation⟩ := List.mem_filterMap.mp hm
  refine List.mem_filterMap.mpr ⟨c, hc, ?_⟩
  cases c with
  | removeExpiredPackets oldestTime => simp [operation] at hoperation
  | addPacket packet =>
    cases ha : accept packet with
    | error e => simp [operation, ha] at hoperation
    | ok accepted =>
      obtain ⟨name, added⟩ := accepted
      simp only [operation, ha, Option.some.injEq, Operation.insert.injEq] at hoperation
      simp [addedBy, ha, hoperation]

theorem exists_cleaned (build : Build) (hd : Distinct calls) :
    ∃ oldest, Cleaned oldest calls (run build calls) := by
  have hbound : ∃ oldest, ∀ oldestTime, .removeExpiredPackets oldestTime ∈ calls →
      oldestTime ≤ oldest := by
    clear hd
    induction calls with
    | nil => exact ⟨0, by simp⟩
    | cons c calls ih =>
      obtain ⟨oldest, h⟩ := ih
      cases c with
      | addPacket packet => exact ⟨oldest, by simpa using h⟩
      | removeExpiredPackets time =>
        refine ⟨max time oldest, fun oldestTime hm => ?_⟩
        cases List.mem_cons.mp hm with
        | inl he =>
          obtain rfl := Call.removeExpiredPackets.inj he
          exact le_max_left _ _
        | inr hm => exact (h oldestTime hm).trans (le_max_right _ _)
  obtain ⟨oldest, h⟩ := hbound
  exact ⟨oldest, Cleaned.run build calls hd h⟩

theorem mem_addPacket (hd : Distinct (calls ++ [.addPacket packet]))
    (ha : accept packet = .ok (key, item)) (x : PacketTime) :
    x ∈ (dequeOf (run build (calls ++ [.addPacket packet])) key).mDeque ↔
      x = item ∨ x ∈ (dequeOf (run build calls) key).mDeque := by
  obtain ⟨oldest, hcleaned⟩ := exists_cleaned build hd.of_snoc
  have hretains := hcleaned.retains key
  have hcount := hd.count key
  have hstart := hd.startTimes key
  have hinterval := hd.interval key item (by rw [added_addPacket calls ha]; simp)
  rw [added_addPacket calls ha, List.length_append] at hcount
  rw [added_addPacket calls ha, List.map_append, List.nodup_append] at hstart
  have hnew : ∀ y ∈ (dequeOf (run build calls) key).mDeque, y.startTime ≠ item.startTime := by
    intro y hy he
    exact hstart.2.2 _ (List.mem_map_of_mem (hretains.added y hy)) _ (by simp) he
  have hplace := placePacket_new build hretains.wellFormed (by decide) hinterval hnew
  have hlength := hretains.length_le
  rw [rtake_of_length_le (by
    rw [length_insertKey]
    simp only [List.length_singleton] at hcount
    omega), ← capacity_run build calls key] at hplace
  rw [run_snoc, dequeOf_addPacket_ok (Keyed.run build calls) ha hplace]
  exact mem_insertKey _

theorem refines_call (c : Call) (hd : Distinct (calls ++ [c]))
    (h : ∀ key item, item ∈ (dequeOf (run build calls) key).mDeque ↔ item ∈ store calls key)
    (key : String) (item : PacketTime) :
    item ∈ (dequeOf (run build (calls ++ [c])) key).mDeque ↔ item ∈ store (calls ++ [c]) key := by
  cases c with
  | removeExpiredPackets oldestTime =>
    rw [run_snoc, dequeOf_removeExpiredPackets, store_snoc_some rfl, mem_run_expire,
      List.mem_filter, h]
    simp [store]
  | addPacket packet =>
    cases ha : accept packet with
    | error e =>
      have hnone : operation (.addPacket packet) = none := by simp [operation, ha]
      rw [store_snoc_none hnone, ← h, run_snoc]
      obtain hsame | ⟨_, _, haccept, _⟩ := dequeOf_addPacket (Keyed.run build calls) packet key
      · rw [hsame]
      · simp [ha] at haccept
    | ok accepted =>
      obtain ⟨name, added⟩ := accepted
      have hsome : operation (.addPacket packet) = some (.insert name added) := by
        simp [operation, ha]
      rw [store_snoc_some hsome, mem_run_insert, ← store, ← h]
      by_cases he : key = name
      · subst he
        rw [mem_addPacket hd ha]
        simp
      · rw [run_snoc]
        obtain hsame | ⟨_, _, haccept, _⟩ := dequeOf_addPacket (Keyed.run build calls) packet key
        · rw [hsame]
          simp [he]
        · simp only [ha, Except.ok.injEq, Prod.mk.injEq] at haccept
          exact absurd haccept.1.symm he

theorem mem_run_iff_mem_store (build : Build) (hd : Distinct calls) (key : String)
    (item : PacketTime) :
    item ∈ (dequeOf (run build calls) key).mDeque ↔ item ∈ store calls key := by
  induction calls using List.reverseRecOn generalizing key item with
  | nil => exact iff_of_false List.not_mem_nil id
  | append_singleton calls c ih => exact refines_call c hd (ih hd.of_snoc) key item

open Classical in
noncomputable def listing (calls : List Call) (key : String) : List PacketTime :=
  sortKey PacketTime.startTime ((added calls key).filter (fun item => item ∈ store calls key))

theorem mem_listing : item ∈ listing calls key ↔ item ∈ store calls key := by
  classical
  rw [listing, (perm_sortKey _ _).mem_iff, List.mem_filter, decide_eq_true_eq]
  exact and_iff_right_of_imp mem_added_of_mem_store

theorem mDeque_eq_listing (build : Build) (hd : Distinct calls) (key : String) :
    (dequeOf (run build calls) key).mDeque = listing calls key := by
  classical
  obtain ⟨oldest, hcleaned⟩ := exists_cleaned build hd
  have hretains := hcleaned.retains key
  refine eq_sortKey_of_mem _ hretains.wellFormed.sorted hretains.distinct
    ((hd.startTimes key).of_map.filter _) (fun item => ?_)
  rw [mem_run_iff_mem_store build hd, List.mem_filter, decide_eq_true_eq]
  exact (and_iff_right_of_imp mem_added_of_mem_store).symm

/-- However the calls of the import thread and of the cleaner interleave, the map has a deque
for each stream that a packet was added to, and the deque lists what the store holds. -/
theorem run_refines_store (build : Build) (calls : List Call) (hd : Distinct calls) (key : String) :
    (run build calls).mStreamDequeMap[key]?.map StreamDequeImpl.mDeque =
      if added calls key = [] then none else some (listing calls key) := by
  obtain ⟨oldest, hcleaned⟩ := exists_cleaned build hd
  have hpresent := hcleaned.present key
  cases hget : (run build calls).mStreamDequeMap[key]? with
  | none =>
    rw [hget] at hpresent
    rw [if_pos (by simpa using hpresent)]
    rfl
  | some deque =>
    rw [hget] at hpresent
    rw [if_neg (hpresent.mp rfl), Option.map_some, ← mDeque_eq_listing build hd,
      dequeOf_some hget]

def threePackets : List Call :=
  [.addPacket (fiveSamples (named "UU" "FTU" "HHZ" "01") 0),
    .addPacket (fiveSamples (named "UU" "FTU" "HHZ" "01") 10), .removeExpiredPackets 5000000000,
    .addPacket (fiveSamples (named "UU" "FTU" "HHZ" "01") 20)]

theorem distinct_threePackets : Distinct threePackets := by
  have hfirst : accept (fiveSamples (named "UU" "FTU" "HHZ" "01") 0) = .ok ("UU.FTU.HHZ.01",
      ⟨⟨some ⟨0, 0⟩, some 1, some .unknown, some 5, some []⟩, 0, 4000000000⟩) := by
    decide +kernel
  have hsecond : accept (fiveSamples (named "UU" "FTU" "HHZ" "01") 10) = .ok ("UU.FTU.HHZ.01",
      ⟨⟨some ⟨10, 0⟩, some 1, some .unknown, some 5, some []⟩, 10000000000, 14000000000⟩) := by
    decide +kernel
  have hthird : accept (fiveSamples (named "UU" "FTU" "HHZ" "01") 20) = .ok ("UU.FTU.HHZ.01",
      ⟨⟨some ⟨20, 0⟩, some 1, some .unknown, some 5, some []⟩, 20000000000, 24000000000⟩) := by
    decide +kernel
  refine ⟨?_, ?_, ?_⟩
  all_goals
    intro key
    by_cases hkey : "UU.FTU.HHZ.01" = key <;>
      simp [added, threePackets, List.filterMap_cons, addedBy, hfirst, hsecond, hthird, hkey]

theorem run_refines_store_threePackets :
    (run .debug threePackets).mStreamDequeMap["UU.FTU.HHZ.01"]?.map StreamDequeImpl.mDeque =
      if added threePackets "UU.FTU.HHZ.01" = [] then none
      else some (listing threePackets "UU.FTU.HHZ.01") :=
  run_refines_store .debug threePackets distinct_threePackets "UU.FTU.HHZ.01"

end PacketCache.StoreRefinement
