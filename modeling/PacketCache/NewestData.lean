import PacketCache.DequeRuns

namespace PacketCache.NewestData

open PacketCache.DequeRuns PacketCache.Insertion PacketCache.Messages PacketCache.Platform
open PacketCache.SortedWindow PacketCache.StreamDeque

variable (build : Build) {maximum : Nat} {deque : StreamDequeImpl} {done : List PacketTime}

theorem mem_of_mem_newest {n : Nat} {item : PacketTime} {items : List PacketTime}
    (h : item ∈ newest PacketTime.startTime n items) : item ∈ items :=
  (perm_sortKey _ items).mem_iff.mp (List.mem_of_mem_drop h)

theorem addPacket_newest (h : Reached maximum deque) (hmax : 1 ≤ maximum)
    (hnewest : deque.mDeque = newest PacketTime.startTime maximum done) {item : PacketTime}
    (ht : Timed item) (hi : item.startTime ≤ item.endTime)
    (hnew : item.startTime ∉ done.map PacketTime.startTime) :
    ∃ moved, deque.addPacket build item.packet = .ok () moved ∧ Reached maximum moved ∧
      moved.mDeque = newest PacketTime.startTime maximum (item :: done) := by
  obtain ⟨placed, hp, ha, hr⟩ := h.addPacket build hmax ht hi
  refine ⟨_, ha, hr, ?_⟩
  have hdistinct : ∀ x ∈ deque.mDeque, x.startTime ≠ item.startTime := by
    intro x hx he
    rw [hnewest] at hx
    exact hnew (List.mem_map.mpr ⟨x, mem_of_mem_newest hx, he⟩)
  have hplace := placePacket_new build h.wellFormed hmax hi hdistinct
  obtain rfl := Except.ok.inj (hplace.symm.trans hp)
  rw [newest_cons, hnewest]

theorem addPackets_newest (h : Reached maximum deque) (hmax : 1 ≤ maximum)
    (hnewest : deque.mDeque = newest PacketTime.startTime maximum done) (items : List PacketTime)
    (ht : ∀ item ∈ items, Timed item) (hi : ∀ item ∈ items, item.startTime ≤ item.endTime)
    (hdistinct : ((items.reverse ++ done).map PacketTime.startTime).Nodup) :
    ∃ filled, addPackets build (items.map PacketTime.packet) deque = .ok () filled ∧
      filled.mDeque = newest PacketTime.startTime maximum (items.reverse ++ done) := by
  induction items generalizing done deque with
  | nil => exact ⟨deque, rfl, by simpa using hnewest⟩
  | cons item items ih =>
    rw [List.reverse_cons, List.append_assoc] at hdistinct ⊢
    have hnew : item.startTime ∉ done.map PacketTime.startTime := by
      rw [List.map_append] at hdistinct
      exact (List.nodup_cons.mp (List.Nodup.of_append_right hdistinct)).1
    obtain ⟨moved, ha, hr, hm⟩ := addPacket_newest build h hmax hnewest
      (ht item (by simp)) (hi item (by simp)) hnew
    obtain ⟨filled, hf, hn⟩ := ih hr hm (fun x hx => ht x (by simp [hx]))
      (fun x hx => hi x (by simp [hx])) hdistinct
    refine ⟨filled, ?_, hn⟩
    rw [List.map_cons, addPackets, ha]
    exact hf

/-- Whatever the order of arrival, a bounded buffer holds the newest packets. -/
theorem getAllPackets_eq_newest (build : Build) (options : StreamDequeOptions)
    (items : List PacketTime) (ht : ∀ item ∈ items, Timed item)
    (hi : ∀ item ∈ items, item.startTime ≤ item.endTime)
    (hdistinct : (items.map PacketTime.startTime).Nodup) (arrivals : List PacketTime)
    (harrivals : arrivals.Perm items) :
    ∃ deque, addPackets build (arrivals.map PacketTime.packet)
        (StreamDequeImpl.construct options) = .ok () deque ∧
      deque.getAllPackets = (newest PacketTime.startTime options.mMaximumNumberOfPackets
        items).map PacketTime.packet := by
  have hperm : (arrivals.reverse ++ []).Perm items := by
    simpa using (List.reverse_perm arrivals).trans harrivals
  have hempty : (StreamDequeImpl.construct options).mDeque =
      newest PacketTime.startTime options.mMaximumNumberOfPackets [] := by
    simp [StreamDequeImpl.construct, newest, sortKey, List.rtake]
  obtain ⟨deque, ha, hm⟩ := addPackets_newest build (Reached.construct options)
    options.positive hempty arrivals (fun item hm => ht item (harrivals.mem_iff.mp hm))
    (fun item hm => hi item (harrivals.mem_iff.mp hm))
    ((hperm.map PacketTime.startTime).nodup_iff.mpr hdistinct)
  refine ⟨deque, ha, ?_⟩
  rw [StreamDequeImpl.getAllPackets, hm, newest_eq_of_perm _ _ hperm
    ((hperm.map PacketTime.startTime).nodup_iff.mpr hdistinct)]

theorem getAllPackets_eq_newest_reversed :
    ∃ deque, addPackets .debug
        ([⟨oneHertz 10 5, 10000000000, 14000000000⟩, ⟨oneHertz 0 5, 0, 4000000000⟩].map
          PacketTime.packet) (StreamDequeImpl.construct ⟨1, by decide⟩) = .ok () deque ∧
      deque.getAllPackets = (newest PacketTime.startTime 1 [⟨oneHertz 0 5, 0, 4000000000⟩,
        ⟨oneHertz 10 5, 10000000000, 14000000000⟩]).map PacketTime.packet := by
  refine getAllPackets_eq_newest .debug ⟨1, by decide⟩ _ ?_ ?_ ?_ _ (List.Perm.swap _ _ _)
  · have hearly : Timed ⟨oneHertz 0 5, 0, 4000000000⟩ :=
      ⟨by decide +kernel, by decide +kernel⟩
    have hlate : Timed ⟨oneHertz 10 5, 10000000000, 14000000000⟩ :=
      ⟨by decide +kernel, by decide +kernel⟩
    simp [hearly, hlate]
  · simp
  · simp

end PacketCache.NewestData
