import PacketCache.Importing
import PacketCache.LinearScan
import PacketCache.MultiStream
import PacketCache.StoreRefinement

namespace PacketCache.Answers

open PacketCache.Cleanup PacketCache.Completeness PacketCache.Identifiers PacketCache.Importing
open PacketCache.LinearScan PacketCache.MapRuns PacketCache.Messages PacketCache.MultiStream
open PacketCache.Packets PacketCache.Platform PacketCache.Retention PacketCache.Service
open PacketCache.StoreRefinement PacketCache.StreamDeque PacketCache.StreamDequeMap
open PacketCache.Times

/-- A window that the binary search answers: some packet starts in it or later, and some
packet meets it. -/
structure Served (t0 t1 : Int) (held : List PacketTime) : Prop where
  ordered : t0 ≤ t1
  latest : ∃ item ∈ held, t0 ≤ item.startTime
  meets : ∃ item ∈ held, Meets t0 t1 item

structure Gapped (held : List PacketTime) : Prop where
  interval : ∀ item ∈ held, item.startTime < item.endTime
  apart : held.Pairwise (fun a b => a.endTime < b.startTime)

variable {build : Build} {calls : List Call} {key : String} {t0 t1 : Int}
variable {streamRequest : CacheApi.StreamRequest} {item : PacketTime}

theorem timed_of_mem_added (h : item ∈ added calls key) : DequeRuns.Timed item := by
  obtain ⟨c, _, hadded⟩ := List.mem_filterMap.mp h
  cases c with
  | removeExpiredPackets oldestTime => simp [addedBy] at hadded
  | addPacket packet =>
    cases ha : accept packet with
    | error e => simp [addedBy, ha] at hadded
    | ok accepted =>
      obtain ⟨name, entered⟩ := accepted
      simp only [addedBy, ha, Option.ite_none_right_eq_some, Option.some.injEq] at hadded
      exact hadded.2 ▸ entry_timed (accept_ok ha).2

theorem separated_listing (hg : Gapped (listing calls key)) : Separated (listing calls key) :=
  ⟨fun _ hm => timed_of_mem_added (mem_added_of_mem_store (mem_listing.mp hm)), hg.interval,
    hg.apart.imp Or.inl⟩

theorem impl_getPackets_eq_listing (hd : Distinct calls) (hg : Gapped (listing calls key))
    (hserved : Served t0 t1 (listing calls key)) :
    (dequeOf (run build calls) key).getPackets build (t0, t1) =
      .ok (((listing calls key).filter (Meets t0 t1)).map PacketTime.packet) := by
  have heq := mDeque_eq_listing build hd key
  obtain ⟨oldest, hcleaned⟩ := exists_cleaned build hd
  have hretains := hcleaned.retains key
  have hholds : Holds (listing calls key) ((listing calls key).map PacketTime.packet)
      (dequeOf (run build calls) key) := by
    refine ⟨⟨?_, fun item hm => ?_, rfl⟩, fun item => ?_⟩
    · rw [hretains.capacity]
      exact hretains.wellFormed
    · exact timed_of_mem_added (hretains.added item hm)
    · rw [heq]
      exact (and_iff_left_of_imp (fun hm => List.mem_map_of_mem hm)).symm
  have hanswer := hholds.getPackets build (separated_listing hg) hserved.ordered
    (by simpa only [heq] using hserved.latest) (by simpa only [heq] using hserved.meets)
  rwa [heq] at hanswer

theorem getPackets_eq_listing {identifier : StreamIdentifier} (hd : Distinct calls)
    (hkey : toString identifier = .ok key) (hlocation : identifier.locationCode ≠ none)
    (hg : Gapped (listing calls key)) (hserved : Served t0 t1 (listing calls key)) :
    getPackets build (run build calls) identifier (t0, t1) =
      .ok (((listing calls key).filter (Meets t0 t1)).map PacketTime.packet) := by
  have heq := mDeque_eq_listing build hd key
  rw [getPackets_name build hkey hlocation hserved.ordered, answerOf]
  cases hget : (run build calls).mStreamDequeMap[key]? with
  | none =>
    rw [dequeOf_none hget] at heq
    obtain ⟨item, hm, _⟩ := hserved.latest
    rw [← heq] at hm
    cases hm
  | some deque =>
    have hanswer : (dequeOf (run build calls) key).getPackets build (t0, t1) = _ :=
      impl_getPackets_eq_listing hd hg hserved
    rw [dequeOf_some hget] at hanswer
    simp only [StreamDeque.getPackets, not_lt.mpr hserved.ordered, ↓reduceIte]
    exact hanswer

def window (streamRequest : CacheApi.StreamRequest) : Int × Int :=
  (timestampToNanoseconds (streamRequest.startTime.getD {}),
    timestampToNanoseconds (streamRequest.endTime.getD {}))

/-- Whatever the order of the threads that filled and cleaned the map, a stream request that
is sent alone is answered as the store would answer it. -/
theorem reply_eq_listing (build : Build) (service : ServiceImpl) (context : Metadata)
    (identifier : Option String) (calls : List Call) (streamRequest : CacheApi.StreamRequest)
    (key : String) (hd : Distinct calls) (haccess : service.rejects context = false)
    (hvalid : isValidRequest streamRequest = .ok ())
    (hkey : toString (streamRequest.streamIdentifier.getD {}) = .ok key)
    (hg : Gapped (listing calls key))
    (hserved : Served (window streamRequest).1 (window streamRequest).2 (listing calls key)) :
    (GetTimeSeries build (run build calls) service context ⟨identifier, [streamRequest]⟩).reply =
      some (⟨.ok, ""⟩, ⟨identifier, [⟨streamRequest.streamIdentifier,
        ((listing calls key).filter
          (Meets (window streamRequest).1 (window streamRequest).2)).map PacketTime.packet⟩]⟩) := by
  obtain ⟨streamIdentifier, _, _, hid, ⟨_, _, _, hlocation⟩, _⟩ := isValidRequest_fields hvalid
  have hfound : packetsOf build (run build calls) streamRequest = .ok _ :=
    getPackets_eq_listing hd hkey (by rwa [hid, Option.getD_some]) hg hserved
  have hanswered : Answered build (run build calls) service context streamRequest _ _ :=
    ⟨haccess, hvalid, Request.construct_eq_ok.mpr ⟨key, hkey, rfl⟩, hfound⟩
  have hreply : alone build (run build calls) service context identifier streamRequest = _ :=
    hanswered.reply
  rw [alone] at hreply
  rw [hreply, setDataPackets, if_pos, hid]
  · rfl
  · obtain ⟨item, hm, hmeets⟩ := hserved.meets
    have hin : item ∈ (listing calls key).filter
        (Meets (window streamRequest).1 (window streamRequest).2) :=
      List.mem_filter.mpr ⟨hm, by simpa using hmeets⟩
    exact List.ne_nil_of_mem (List.mem_map_of_mem hin)

theorem reply_eq_listing_threePackets :
    (GetTimeSeries .debug (run .debug threePackets) (start {}) [] ⟨none,
        [windowed (named "UU" "FTU" "HHZ" "01") 12 22]⟩).reply =
      some (⟨.ok, ""⟩, ⟨none, [⟨some (named "UU" "FTU" "HHZ" "01"),
        ((listing threePackets "UU.FTU.HHZ.01").filter
          (Meets 12000000000 22000000000)).map PacketTime.packet⟩]⟩) := by
  have heq := mDeque_eq_listing .debug distinct_threePackets "UU.FTU.HHZ.01"
  refine reply_eq_listing .debug (start {}) [] none threePackets
    (windowed (named "UU" "FTU" "HHZ" "01") 12 22) "UU.FTU.HHZ.01" distinct_threePackets
    rfl (by decide +kernel) (by decide +kernel) ⟨?_, ?_⟩ ⟨by decide +kernel, ?_, ?_⟩
  all_goals
    rw [← heq]
    decide +kernel

end PacketCache.Answers
