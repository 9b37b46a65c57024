import Mathlib.Data.List.Pairwise
import PacketCache.Completeness

namespace PacketCache.LinearScan

open PacketCache.Completeness PacketCache.DequeRuns PacketCache.Insertion PacketCache.Messages
open PacketCache.Platform PacketCache.Query PacketCache.SortedWindow PacketCache.StreamDeque

structure Separated (stream : List PacketTime) : Prop where
  timed : ∀ item ∈ stream, Timed item
  interval : ∀ item ∈ stream, item.startTime < item.endTime
  disjoint : stream.Pairwise (fun a b => a.endTime < b.startTime ∨ b.endTime < a.startTime)

variable (build : Build) {maximum : Nat} {stream : List PacketTime} {deque : StreamDequeImpl}
variable {done : List CacheApi.Packet} {t0 t1 : Int}

theorem Separated.disjoint_of_ne (h : Separated stream) {a b : PacketTime} (ha : a ∈ stream)
    (hb : b ∈ stream) (hne : a ≠ b) : a.endTime < b.startTime ∨ b.endTime < a.startTime := by
  have hsymm : Std.Symm (fun a b : PacketTime =>
      a.endTime < b.startTime ∨ b.endTime < a.startTime) := ⟨fun _ _ h => h.symm⟩
  exact h.disjoint.forall ha hb hne

theorem Separated.eq_of_startTime (h : Separated stream) {a b : PacketTime} (ha : a ∈ stream)
    (hb : b ∈ stream) (hab : a.startTime = b.startTime) : a = b := by
  by_contra hne
  have hia := h.interval a ha
  have hib := h.interval b hb
  cases h.disjoint_of_ne ha hb hne <;> omega

theorem Separated.endTime_lt (h : Separated stream) {a b : PacketTime} (ha : a ∈ stream)
    (hb : b ∈ stream) (hab : a.startTime < b.startTime) : a.endTime < b.startTime := by
  have hib := h.interval b hb
  have hne : a ≠ b := fun he => by rw [he] at hab; omega
  cases h.disjoint_of_ne ha hb hne <;> omega

theorem Separated.nodup (h : Separated stream) : stream.Nodup := by
  apply h.disjoint.imp_of_mem
  intro a b ha _ hd he
  have hi := h.interval _ ha
  rw [← he] at hd
  omega

structure Holds (stream : List PacketTime) (done : List CacheApi.Packet)
    (deque : StreamDequeImpl) : Prop where
  reached : Reached deque.mMaximumNumberOfPackets deque
  mem : ∀ item, item ∈ deque.mDeque ↔ item ∈ stream ∧ item.packet ∈ done

theorem Holds.increasing (h : Holds stream done deque) (hs : Separated stream) :
    deque.mDeque.Pairwise (fun a b => a.startTime < b.startTime) := by
  apply h.reached.wellFormed.ordered.imp_of_mem
  intro a b ha _ hp
  have hi := hs.interval _ ((h.mem _).mp ha).1
  cases hp <;> omega

theorem Holds.apart (h : Holds stream done deque) (hs : Separated stream) :
    deque.mDeque.Pairwise (fun a b => a.endTime < b.startTime) :=
  (h.increasing hs).imp_of_mem
    (fun ha hb hlt => hs.endTime_lt ((h.mem _).mp ha).1 ((h.mem _).mp hb).1 hlt)

theorem Holds.nodup_startTime (h : Holds stream done deque) (hs : Separated stream) :
    (deque.mDeque.map PacketTime.startTime).Nodup :=
  List.pairwise_map.mpr ((h.increasing hs).imp ne_of_lt)

theorem Holds.mem_snoc {item : PacketTime} (h : Holds stream done deque) (hs : Separated stream)
    (hm : item ∈ stream) (x : PacketTime) :
    (x = item ∨ x ∈ deque.mDeque) ↔ x ∈ stream ∧ x.packet ∈ done ++ [item.packet] := by
  rw [h.mem, List.mem_append, List.mem_singleton]
  constructor
  · intro hx
    cases hx with
    | inl he => rw [he]; exact ⟨hm, Or.inr rfl⟩
    | inr hx => exact ⟨hx.1, Or.inl hx.2⟩
  · rintro ⟨hx, hp⟩
    cases hp with
    | inl hp => exact Or.inr ⟨hx, hp⟩
    | inr hp => exact Or.inl ((hs.timed x hx).eq_of_packet (hs.timed item hm) hp)

theorem placePacket_repeated (hw : WellFormed maximum deque.mDeque) {item : PacketTime}
    (hi : item.startTime < item.endTime) (hm : item ∈ deque.mDeque)
    (hunique : ∀ x ∈ deque.mDeque, x.startTime = item.startTime → x = item) :
    placePacket build maximum deque.mDeque item = .ok deque.mDeque := by
  cases placePacket_stored build hw hi.le hm rfl with
  | inl he => exact he
  | inr hlast =>
    obtain ⟨hne, hstart, hend, _⟩ := hlast
    rw [hunique _ (List.getLast_mem hne) hstart] at hend
    omega

theorem Holds.length_lt (h : Holds stream done deque) (hs : Separated stream) {item : PacketTime}
    (hm : item ∈ stream) (hnew : item ∉ deque.mDeque) :
    deque.mDeque.length + 1 ≤ stream.length := by
  have hnodup : (item :: deque.mDeque).Nodup :=
    List.nodup_cons.mpr ⟨hnew, (h.nodup_startTime hs).of_map⟩
  have hsub : item :: deque.mDeque ⊆ stream :=
    List.cons_subset.mpr ⟨hm, fun x hx => ((h.mem x).mp hx).1⟩
  exact (List.subperm_of_subset hnodup hsub).length_le

theorem Holds.addPacket (h : Holds stream done deque) (hs : Separated stream)
    (hcapacity : stream.length ≤ deque.mMaximumNumberOfPackets) {item : PacketTime}
    (hm : item ∈ stream) :
    ∃ placed, deque.addPacket build item.packet = .ok () placed ∧
      Holds stream (done ++ [item.packet]) placed ∧
      placed.mMaximumNumberOfPackets = deque.mMaximumNumberOfPackets := by
  have hmax : 1 ≤ deque.mMaximumNumberOfPackets :=
    (List.length_pos_of_mem hm).trans_le hcapacity
  have hi := hs.interval item hm
  obtain ⟨placed, hp, ha, hr⟩ := h.reached.addPacket build hmax (hs.timed item hm) hi.le
  refine ⟨_, ha, ⟨hr, fun x => ?_⟩, rfl⟩
  rw [← h.mem_snoc hs hm]
  have hw := h.reached.wellFormed
  by_cases hstored : item ∈ deque.mDeque
  · have hsame := placePacket_repeated build hw hi hstored
      (fun x hx => hs.eq_of_startTime ((h.mem x).mp hx).1 hm)
    obtain rfl := Except.ok.inj (hsame.symm.trans hp)
    simp only [iff_or_self]
    rintro rfl
    exact hstored
  · have hnew : ∀ x ∈ deque.mDeque, x.startTime ≠ item.startTime := by
      intro x hx he
      rw [hs.eq_of_startTime ((h.mem x).mp hx).1 hm he] at hx
      exact hstored hx
    have hplace := placePacket_new build hw hmax hi.le hnew
    rw [rtake_of_length_le (by
      rw [length_insertKey]; exact (h.length_lt hs hm hstored).trans hcapacity)] at hplace
    obtain rfl := Except.ok.inj (hplace.symm.trans hp)
    exact mem_insertKey _

theorem Holds.addPackets (h : Holds stream done deque) (hs : Separated stream)
    (hcapacity : stream.length ≤ deque.mMaximumNumberOfPackets)
    (deliveries : List CacheApi.Packet)
    (hd : ∀ packet ∈ deliveries, ∃ item ∈ stream, item.packet = packet) :
    ∃ filled, addPackets build deliveries deque = .ok () filled ∧
      Holds stream (done ++ deliveries) filled := by
  induction deliveries generalizing done deque with
  | nil => exact ⟨deque, rfl, by rwa [List.append_nil]⟩
  | cons packet deliveries ih =>
    obtain ⟨item, hm, rfl⟩ := hd packet (by simp)
    obtain ⟨placed, ha, hp, hcap⟩ := h.addPacket build hs hcapacity hm
    rw [← hcap] at hcapacity
    obtain ⟨filled, hf, hh⟩ := ih hp hcapacity (fun x hx => hd x (by simp [hx]))
    refine ⟨filled, ?_, ?_⟩
    · rw [DequeRuns.addPackets, ha]
      exact hf
    · rwa [List.append_assoc] at hh

theorem answer_apart {first : PacketTime} {after : List PacketTime}
    (hapart : (first :: after).Pairwise (fun a b => a.endTime < b.startTime))
    (hend : t0 ≤ first.endTime) (hstart : first.startTime ≤ t1) :
    answer build t0 t1 first after = .ok ((selected t1 first after).map PacketTime.packet) := by
  by_cases heq : t0 = t1
  · have hnone : after.filter (fun item => item.startTime ≤ t1) = [] := by
      apply List.filter_eq_nil_iff.mpr
      intro item hm
      have := List.rel_of_pairwise_cons hapart hm
      simp only [decide_eq_true_eq]
      omega
    rw [answer, if_pos (Or.inl heq), selected_cons hstart, hnone]
    rfl
  · have hcopy : copyLoop t1 (selected t1 first after) =
        (selected t1 first after).map PacketTime.packet := by
      apply (copyLoop_eq_map t1 _).mpr
      apply (hapart.sublist List.filter_sublist).imp_of_mem
      intro a b _ hb hlt
      exact hlt.trans_le (by simpa using (List.mem_filter.mp hb).2)
    rw [answer_copy (by simp [selected_cons hstart]) heq, hcopy, if_neg (by simp)]

theorem Holds.getPackets (h : Holds stream done deque) (hs : Separated stream) (ht : t0 ≤ t1)
    (hlatest : ∃ item ∈ deque.mDeque, t0 ≤ item.startTime)
    (hmeets : ∃ item ∈ deque.mDeque, Meets t0 t1 item) :
    deque.getPackets build (t0, t1) =
      .ok ((deque.mDeque.filter (Meets t0 t1)).map PacketTime.packet) := by
  obtain ⟨before, first, after, hsplit, ho, heq⟩ :=
    getPackets_eq build h.reached.wellFormed.sorted ht hlatest
  have hw := h.reached.wellFormed
  have hapart := h.apart hs
  have hreach : ∀ e ∈ deque.mDeque, ∀ f ∈ deque.mDeque,
      e.startTime < f.startTime → f.startTime ≤ t0 → e.endTime < t0 := fun e he f hf hef hft =>
    (hs.endTime_lt ((h.mem e).mp he).1 ((h.mem f).mp hf).1 hef).trans_le hft
  obtain ⟨item, hm, hitem⟩ := hmeets
  rw [hsplit] at hw hapart hreach hm ⊢
  have hfilter := filter_meets t1 hw ho (before_endTime_lt hw ho hreach)
  rw [heq, hfilter]
  refine answer_apart build (List.pairwise_append.mp hapart).2.1
    (opening_endTime_ge hw ho first (by simp)) ?_
  by_contra hlate
  have hin : item ∈ (before ++ first :: after).filter (Meets t0 t1) :=
    List.mem_filter.mpr ⟨hm, by simpa using hitem⟩
  rw [hfilter, selected_eq_nil (List.pairwise_append.mp hw.sorted).2.1 hlate] at hin
  simp at hin

/-- However the packets of a stream arrive, a query finds what a scan of all of them,
in increasing start time, finds. -/
theorem getPackets_eq_linear_scan (build : Build) (options : StreamDequeOptions)
    (stream : List PacketTime) (hstream : Separated stream)
    (hcapacity : stream.length ≤ options.mMaximumNumberOfPackets)
    (deliveries : List CacheApi.Packet)
    (hdeliveries : ∀ packet, packet ∈ deliveries ↔ ∃ item ∈ stream, item.packet = packet)
    (t0 t1 : Int) (ht : t0 ≤ t1) (hlatest : ∃ item ∈ stream, t0 ≤ item.startTime)
    (hmeets : ∃ item ∈ stream, Meets t0 t1 item) :
    ∃ deque, addPackets build deliveries (StreamDequeImpl.construct options) = .ok () deque ∧
      deque.getPackets build (t0, t1) =
        .ok (((sortKey PacketTime.startTime stream).filter (Meets t0 t1)).map
          PacketTime.packet) := by
  have hempty : Holds stream [] (StreamDequeImpl.construct options) :=
    ⟨Reached.construct options, by simp [StreamDequeImpl.construct]⟩
  obtain ⟨deque, ha, h⟩ := hempty.addPackets build hstream hcapacity deliveries
    (fun packet hm => (hdeliveries packet).mp hm)
  rw [List.nil_append] at h
  have hmem : ∀ item, item ∈ deque.mDeque ↔ item ∈ stream := by
    intro item
    rw [h.mem, and_iff_left_iff_imp]
    exact fun hm => (hdeliveries item.packet).mpr ⟨item, hm, rfl⟩
  have hsorted : deque.mDeque = sortKey PacketTime.startTime stream :=
    eq_sortKey_of_mem _ h.reached.wellFormed.sorted (h.nodup_startTime hstream) hstream.nodup hmem
  refine ⟨deque, ha, ?_⟩
  rw [← hsorted]
  refine h.getPackets build hstream ht ?_ ?_
  · simpa only [hmem] using hlatest
  · simpa only [hmem] using hmeets

theorem getPackets_eq_linear_scan_repeated :
    ∃ deque, addPackets .debug [oneHertz 10 5, oneHertz 0 5, oneHertz 10 5]
        (StreamDequeImpl.construct {}) = .ok () deque ∧
      deque.getPackets .debug (3000000000, 12000000000) =
        .ok (((sortKey PacketTime.startTime [⟨oneHertz 0 5, 0, 4000000000⟩,
          ⟨oneHertz 10 5, 10000000000, 14000000000⟩]).filter
            (Meets 3000000000 12000000000)).map PacketTime.packet) := by
  refine getPackets_eq_linear_scan .debug {} _ ⟨?_, ?_, ?_⟩ (by decide) _ ?_ _ _ (by decide)
    ⟨⟨oneHertz 10 5, 10000000000, 14000000000⟩, by simp, by decide⟩
    ⟨⟨oneHertz 0 5, 0, 4000000000⟩, by simp, by decide⟩
  · have hearly : Timed ⟨oneHertz 0 5, 0, 4000000000⟩ := by
      exact ⟨by decide +kernel, by decide +kernel⟩
    have hlate : Timed ⟨oneHertz 10 5, 10000000000, 14000000000⟩ := by
      exact ⟨by decide +kernel, by decide +kernel⟩
    simp [hearly, hlate]
  · simp
  · simp
  · intro packet
    simp only [List.mem_cons, List.not_mem_nil, or_false, exists_eq_or_imp, exists_eq_left]
    constructor
    · rintro (rfl | rfl | rfl) <;> simp
    · rintro (rfl | rfl) <;> simp

end PacketCache.LinearScan
