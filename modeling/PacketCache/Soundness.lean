import PacketCache.Completeness

namespace PacketCache.Soundness

open PacketCache.Completeness PacketCache.DequeRuns PacketCache.Insertion PacketCache.Messages
open PacketCache.Platform PacketCache.Query PacketCache.SortedWindow PacketCache.StreamDeque
open PacketCache.Times

variable {build : Build} {maximum : Nat} {self : StreamDequeImpl} {t0 t1 : Int}
variable {before after : List PacketTime} {first : PacketTime}

def InWindow (t0 t1 : Int) (packet : CacheApi.Packet) : Prop :=
  getStartTimeNanoSeconds packet ≤ t1 ∧
    ∃ endTime, getEndTimeNanoSeconds packet = .ok endTime ∧ t0 ≤ endTime

structure Sound (build : Build) (t0 t1 : Int) (deque : StreamDequeImpl) : Prop where
  inWindow : ∀ r, deque.getPackets build (t0, t1) = .ok r → ∀ packet ∈ r, InWindow t0 t1 packet
  nothing : (∀ item ∈ deque.mDeque, ¬ Meets t0 t1 item) →
    deque.getPackets build (t0, t1) = .ok []

/-- The window is not followed by a packet, or one starts in it, or the last one before it
reaches it. -/
def Occupied (t0 t1 : Int) (mDeque : List PacketTime) : Prop :=
  (∀ item ∈ mDeque, item.startTime ≤ t1) ∨
    (∃ item ∈ mDeque, t0 ≤ item.startTime ∧ item.startTime ≤ t1) ∨
    ∃ item ∈ mDeque, item.startTime < t0 ∧ t0 ≤ item.endTime ∧
      ∀ other ∈ mDeque, other.startTime < t0 → other.startTime ≤ item.startTime

theorem occupied_of_first_le (hw : WellFormed maximum (before ++ first :: after))
    (ho : Opening t0 before first after) (hle : first.startTime ≤ t1) :
    Occupied t0 t1 (before ++ first :: after) := by
  have hm : first ∈ before ++ first :: after := by simp
  cases ho.start with
  | inl hstay => exact Or.inr (Or.inl ⟨first, hm, hstay.1, hle⟩)
  | inr hback =>
    refine Or.inr (Or.inr ⟨first, hm, hback.1, hback.2.1, fun other hother hlt => ?_⟩)
    cases List.mem_append.mp hother with
    | inl hb => exact ((List.pairwise_append.mp hw.ordered).2.2 other hb first (by simp)).le
    | inr hr =>
      cases List.mem_cons.mp hr with
      | inl he => rw [he]
      | inr ha => exact absurd (hback.2.2 other ha) (by omega)

theorem first_le_of_reaching (hw : WellFormed maximum (before ++ first :: after)) (ht : t0 ≤ t1)
    (ho : Opening t0 before first after) {item : PacketTime}
    (hm : item ∈ before ++ first :: after) (hlt : item.startTime < t0) (hend : t0 ≤ item.endTime)
    (hmax : ∀ other ∈ before ++ first :: after, other.startTime < t0 →
      other.startTime ≤ item.startTime) : first.startTime ≤ t1 := by
  by_contra hgt
  -- then `first` was not moved back to, so the packet before it is too old
  have hstay := ho.start.resolve_right (fun hback => by omega)
  cases List.mem_append.mp hm with
  | inr hr =>
    cases List.mem_cons.mp hr with
    | inl he =>
      rw [he] at hlt
      omega
    | inr ha => exact absurd (ho.after_ge item ha) (by omega)
  | inl hb =>
    have hne : before ≠ [] := List.ne_nil_of_mem hb
    have hlast := List.getLast_mem hne
    have hold := hstay.2 (by omega) hne
    have hsub : WellFormed maximum before := hw.sublist (List.sublist_append_left _ _)
    cases hsub.precedes_getLast hne hb with
    | inl he =>
      rw [he] at hend
      omega
    | inr hp =>
      have hle := hmax _ (List.mem_append_left _ hlast) (ho.before_lt _ hlast)
      cases hp <;> omega

theorem first_le_of_occupied (hw : WellFormed maximum (before ++ first :: after)) (ht : t0 ≤ t1)
    (ho : Opening t0 before first after) (hocc : Occupied t0 t1 (before ++ first :: after)) :
    first.startTime ≤ t1 := by
  have hsorted : Sorted PacketTime.startTime (first :: after) :=
    (List.pairwise_append.mp hw.sorted).2.1
  obtain hall | ⟨item, hm, hge, hle⟩ | ⟨item, hm, hlt, hend, hmax⟩ := hocc
  · exact hall first (by simp)
  · cases List.mem_append.mp hm with
    | inl hb => exact absurd (ho.before_lt item hb) (by omega)
    | inr hr =>
      cases List.mem_cons.mp hr with
      | inl he => rwa [← he]
      | inr ha => exact (List.rel_of_pairwise_cons hsorted ha).trans hle
  · exact first_le_of_reaching hw ht ho hm hlt hend hmax

theorem answer_late (build : Build) (hs : Sorted PacketTime.startTime (first :: after))
    (hgt : ¬ first.startTime ≤ t1) : answer build t0 t1 first after = .ok [first.packet] := by
  rw [answer, if_pos (Or.inr (selected_eq_nil hs hgt))]

theorem Meets.inWindow {item : PacketTime} (hm : Meets t0 t1 item) (ht : Timed item) :
    InWindow t0 t1 item.packet :=
  ⟨ht.1.trans_le hm.1, item.endTime, ht.2, hm.2⟩

theorem sound_of_opening (h : Reached maximum self) (ht : t0 ≤ t1)
    (hnew : ∃ item ∈ self.mDeque, t0 ≤ item.startTime) :
    Sound build t0 t1 self ↔ Occupied t0 t1 self.mDeque := by
  obtain ⟨before, first, after, hsplit, ho, heq⟩ :=
    getPackets_eq build h.wellFormed.sorted ht hnew
  have hw := h.wellFormed
  rw [hsplit] at hw
  have hmem : ∀ item ∈ first :: after, item ∈ self.mDeque := by
    intro item hm
    rw [hsplit]
    exact List.mem_append_right _ hm
  have hend := opening_endTime_ge hw ho
  constructor
  · intro hs
    rw [hsplit]
    apply occupied_of_first_le hw ho
    -- otherwise the answer is `first`, which starts after the window
    by_contra hgt
    have hone : self.getPackets build (t0, t1) = .ok [first.packet] := by
      rw [heq, answer_late build (List.pairwise_append.mp hw.sorted).2.1 hgt]
    have hin := (hs.inWindow _ hone first.packet (by simp)).1
    rw [(h.timed first (hmem first (by simp))).1] at hin
    exact hgt hin
  · intro hocc
    rw [hsplit] at hocc
    have hle := first_le_of_occupied hw ht ho hocc
    refine ⟨?_, ?_⟩
    · intro r hr packet hp
      rw [heq] at hr
      obtain ⟨item, hanswered, rfl⟩ := mem_answer build hr hp
      have hm : item ∈ selected t1 first after := by
        cases hanswered with
        | inl hfirst => simp [hfirst, selected, hle]
        | inr hselected => exact hselected
      have hitem := List.mem_of_mem_filter hm
      have hstart : item.startTime ≤ t1 := by simpa using (List.mem_filter.mp hm).2
      exact Meets.inWindow ⟨hstart, hend item hitem⟩ (h.timed item (hmem item hitem))
    · intro hnone
      exact absurd ⟨hle, hend first (by simp)⟩ (hnone first (hmem first (by simp)))

theorem sound_of_newest (ht : t0 ≤ t1) (hlt : ∀ item ∈ self.mDeque, item.startTime < t0) :
    Sound build t0 t1 self ↔ Occupied t0 t1 self.mDeque := by
  have hnil : self.getPackets build (t0, t1) = .ok [] := getPackets_newest build hlt
  refine iff_of_true ⟨fun r hr packet hp => ?_, fun _ => hnil⟩
    (Or.inl (fun item hm => (hlt item hm).le.trans ht))
  rw [hnil] at hr
  obtain rfl := Except.ok.inj hr
  simp at hp

/-- After any run, a query is sound exactly for the occupied windows. -/
theorem getPackets_sound_iff_occupied (build : Build) (options : StreamDequeOptions)
    (calls : List Call) (hcalls : ∀ packet, .addPacket packet ∈ calls → EndsAfterStart packet)
    (t0 t1 : Int) (ht : t0 ≤ t1) :
    Sound build t0 t1 (run build (StreamDequeImpl.construct options) calls) ↔
      Occupied t0 t1 (run build (StreamDequeImpl.construct options) calls).mDeque := by
  have h := (Reached.construct options).run build options.positive calls hcalls
  by_cases hnew : ∃ item ∈ (run build (StreamDequeImpl.construct options) calls).mDeque,
      t0 ≤ item.startTime
  · exact sound_of_opening h ht hnew
  · exact sound_of_newest ht (fun item hm => not_le.mp (fun hle => hnew ⟨item, hm, hle⟩))

theorem getPackets_sound_iff_occupied_two_packets :
    Sound .debug 2 3 (run .debug (StreamDequeImpl.construct {})
        [.addPacket (oneHertz 10 5), .addPacket (oneHertz 0 5)]) ↔
      Occupied 2 3 (run .debug (StreamDequeImpl.construct {})
        [.addPacket (oneHertz 10 5), .addPacket (oneHertz 0 5)]).mDeque := by
  exact getPackets_sound_iff_occupied .debug {} _ oneHertz_endsAfterStart 2 3 (by decide)

/-- A window before the first packet is answered with that packet. -/
theorem getPackets_before_first :
    EndsAfterStart (oneHertz 10 5) ∧ (1000000000 : Int) ≤ 2000000000 ∧
      (run .release (StreamDequeImpl.construct {})
        [.addPacket (oneHertz 10 5)]).getPackets .release (1000000000, 2000000000) =
          .ok [oneHertz 10 5] ∧
      ¬ InWindow 1000000000 2000000000 (oneHertz 10 5) ∧
      ¬ Sound .release 1000000000 2000000000 (run .release (StreamDequeImpl.construct {})
        [.addPacket (oneHertz 10 5)]) := by
  have hone : (run .release (StreamDequeImpl.construct {})
      [.addPacket (oneHertz 10 5)]).getPackets .release (1000000000, 2000000000) =
        .ok [oneHertz 10 5] := by decide +kernel
  have hout : ¬ InWindow 1000000000 2000000000 (oneHertz 10 5) :=
    fun h => absurd h.1 (by decide +kernel)
  exact ⟨by decide +kernel, by decide, hone, hout,
    fun h => hout (h.inWindow _ hone _ (by simp))⟩

end PacketCache.Soundness
