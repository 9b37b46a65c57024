import PacketCache.Cleanup
import PacketCache.Transitions

namespace PacketCache.Retention

open PacketCache.Cleanup PacketCache.Insertion PacketCache.MapRuns PacketCache.Messages
open PacketCache.Platform PacketCache.StreamDeque PacketCache.StreamDequeMap
open PacketCache.Transitions (holds_of_since since_of_holds)

variable {maximum : Nat} {mDeque placed : List PacketTime} {p item : PacketTime}

theorem popWhenFull_cases (isFull : Bool) {l : List PacketTime} (hne : l ≠ []) :
    isFull = false ∧ popWhenFull isFull l = l ∨
      isFull = true ∧ ∃ dropped, dropped :: popWhenFull isFull l = l := by
  cases isFull with
  | false => exact Or.inl ⟨rfl, rfl⟩
  | true =>
    obtain ⟨dropped, rest, rfl⟩ := List.exists_cons_of_ne_nil hne
    exact Or.inr ⟨rfl, dropped, rfl⟩

/-- What a placing can do to the packets stored: nothing, add the packet, or put the packet
in the place of another one. Only a full buffer loses a packet. -/
inductive Placing (maximum : Nat) (mDeque : List PacketTime) (p : PacketTime)
    (placed : List PacketTime) : Prop
  | skipped (h : placed = mDeque)
  | stored (h : placed.Perm (p :: mDeque))
  | displaced (dropped : PacketTime) (hfull : maximum ≤ mDeque.length)
    (h : (dropped :: placed).Perm (p :: mDeque))

theorem Placing.popWhenFull {l : List PacketTime} (h : l.Perm (p :: mDeque)) :
    Placing maximum mDeque p (popWhenFull (decide (maximum ≤ mDeque.length)) l) := by
  have hne : l ≠ [] := fun he => by simp [he] at h
  obtain ⟨_, he⟩ | ⟨hfull, dropped, he⟩ :=
    popWhenFull_cases (decide (maximum ≤ mDeque.length)) hne
  · rw [he]
    exact .stored h
  · exact .displaced dropped (of_decide_eq_true hfull) (by rwa [he])

theorem insertFound_placing {build : Build}
    (h : insertFound build (decide (maximum ≤ mDeque.length)) mDeque p = .ok placed) :
    Placing maximum mDeque p placed := by
  rw [insertFound] at h
  cases hfound : mDeque[searchStart mDeque p.startTime]? with
  | none =>
    simp only [hfound, Except.ok.injEq] at h
    exact .skipped h.symm
  | some neighbor =>
    have hlt : searchStart mDeque p.startTime < mDeque.length :=
      (List.getElem?_eq_some_iff.mp hfound).1
    simp only [hfound] at h
    split_ifs at h
    · exact .skipped (Except.ok.inj h).symm
    · obtain rfl := Except.ok.inj h
      exact .popWhenFull (List.perm_insertIdx p mDeque hlt.le)

theorem placePacket_placing {build : Build}
    (h : placePacket build maximum mDeque p = .ok placed) : Placing maximum mDeque p placed := by
  cases mDeque with
  | nil =>
    obtain rfl := Except.ok.inj h
    exact .stored (.refl _)
  | cons front rest =>
    have hlast : Placing maximum (front :: rest) p
        (StreamDeque.popWhenFull (decide (maximum ≤ (front :: rest).length)) (front :: rest) ++
          [p]) := by
      rw [popWhenFull_append _ (List.cons_ne_nil _ _)]
      exact .popWhenFull (List.perm_append_singleton p _)
    simp only [placePacket] at h
    split_ifs at h
    · obtain rfl := Except.ok.inj h
      exact hlast
    · obtain rfl := Except.ok.inj h
      exact hlast
    · exact .skipped (Except.ok.inj h).symm
    · exact .skipped (Except.ok.inj h).symm
    · obtain rfl := Except.ok.inj h
      exact .stored (.refl _)
    · exact insertFound_placing h

theorem Placing.mem (h : Placing maximum mDeque p placed) (hm : item ∈ placed) :
    item = p ∨ item ∈ mDeque := by
  cases h with
  | skipped h => exact Or.inr (h ▸ hm)
  | stored h => exact List.mem_cons.mp (h.subset hm)
  | displaced dropped _ h => exact List.mem_cons.mp (h.subset (List.mem_cons_of_mem _ hm))

theorem Placing.keeps (h : Placing maximum mDeque p placed) (hlt : mDeque.length < maximum)
    (hm : item ∈ mDeque) : item ∈ placed := by
  cases h with
  | skipped h => exact h ▸ hm
  | stored h => exact h.symm.subset (List.mem_cons_of_mem _ hm)
  | displaced _ hfull _ => exact absurd hfull (not_le.mpr hlt)

theorem Placing.length_le (h : Placing maximum mDeque p placed) :
    placed.length ≤ mDeque.length + 1 := by
  cases h with
  | skipped h => rw [h]; exact Nat.le_succ _
  | stored h => exact h.length_eq.le
  | displaced dropped _ h =>
    have := h.length_eq
    simp only [List.length_cons] at this
    omega

section Runs

variable {build : Build} {map : StreamDequeMapImpl} {key : String} {packet : ServiceApi.Packet}

theorem dequeOf_removeExpiredPackets (oldestTime : Int) :
    (dequeOf (call build map (.removeExpiredPackets oldestTime)) key).mDeque =
      (dequeOf map key).mDeque.filter (fun item => !decide (item.endTime < oldestTime)) := by
  rw [dequeOf, call, removeExpiredPackets_getElem?]
  cases h : map.mStreamDequeMap[key]? with
  | none =>
    rw [dequeOf_none h]
    rfl
  | some deque =>
    rw [dequeOf_some h]
    rfl

theorem dequeOf_addPacket (hk : Keyed map) (packet : ServiceApi.Packet) (key : String) :
    dequeOf (call build map (.addPacket packet)) key = dequeOf map key ∨
      ∃ item placed, accept packet = .ok (key, item) ∧
        placePacket build (dequeOf map key).mMaximumNumberOfPackets (dequeOf map key).mDeque
          item = .ok placed ∧
        dequeOf (call build map (.addPacket packet)) key =
          { dequeOf map key with mDeque := placed } := by
  obtain ⟨e, final, hf, hsame, _⟩ | ⟨name, item, placed, final, ha, hp, hf, hu⟩ :=
    addPacket_cases build hk packet
  · left
    rw [call, hf, finalState_error, dequeOf, dequeOf, hsame key]
  · by_cases he : key = name
    · subst he
      refine Or.inr ⟨item, placed, ha, hp, ?_⟩
      rw [call, hf, finalState_ok, dequeOf, hu key, if_pos rfl]
      rfl
    · left
      rw [call, hf, finalState_ok, dequeOf, dequeOf, hu key, if_neg he]

theorem dequeOf_addPacket_ok (hk : Keyed map) (ha : accept packet = .ok (key, item))
    (hp : placePacket build (dequeOf map key).mMaximumNumberOfPackets (dequeOf map key).mDeque
      item = .ok placed) :
    dequeOf (call build map (.addPacket packet)) key = { dequeOf map key with mDeque := placed } := by
  have hadd := addPacket_accept build hk packet
  simp only [ha, hp] at hadd
  obtain ⟨final, hf, hu⟩ := hadd
  rw [call, hf, finalState_ok, dequeOf, hu key, if_pos rfl]
  rfl

theorem capacity_run (build : Build) (calls : List Call) (key : String) :
    (dequeOf (run build calls) key).mMaximumNumberOfPackets = 2147483647 := by
  induction calls using List.reverseRecOn with
  | nil => rfl
  | append_singleton calls c ih =>
    rw [run_snoc]
    cases c with
    | removeExpiredPackets oldestTime =>
      rw [dequeOf, call, removeExpiredPackets_getElem?]
      cases h : (run build calls).mStreamDequeMap[key]? with
      | none => rfl
      | some deque =>
        rw [dequeOf_some h] at ih
        exact ih
    | addPacket packet =>
      obtain h | ⟨_, _, _, _, h⟩ := dequeOf_addPacket (Keyed.run build calls) packet key
      · rw [h, ih]
      · rw [h]
        exact ih

theorem placing_run {calls : List Call}
    (h : placePacket build (dequeOf (run build calls) key).mMaximumNumberOfPackets
      (dequeOf (run build calls) key).mDeque item = .ok placed) :
    Placing 2147483647 (dequeOf (run build calls) key).mDeque item placed := by
  rw [capacity_run] at h
  exact placePacket_placing h

theorem added_addPacket (calls : List Call) (ha : accept packet = .ok (key, item)) :
    added (calls ++ [.addPacket packet]) key = added calls key ++ [item] := by
  rw [added_snoc, addedBy, ha]
  simp

theorem length_added_le (calls : List Call) (c : Call) (key : String) :
    (added calls key).length ≤ (added (calls ++ [c]) key).length := by
  rw [added_snoc, List.length_append]
  omega

theorem length_run_le (build : Build) (calls : List Call) (key : String) :
    (dequeOf (run build calls) key).mDeque.length ≤ (added calls key).length := by
  induction calls using List.reverseRecOn with
  | nil => exact Nat.zero_le _
  | append_singleton calls c ih =>
    rw [run_snoc]
    have hle := length_added_le calls c key
    cases c with
    | removeExpiredPackets oldestTime =>
      rw [dequeOf_removeExpiredPackets]
      exact (List.length_filter_le _ _).trans (ih.trans hle)
    | addPacket packet =>
      obtain h | ⟨item, placed, ha, hp, h⟩ :=
        dequeOf_addPacket (Keyed.run build calls) packet key
      · rw [h]
        exact ih.trans hle
      · rw [h, added_addPacket calls ha, List.length_append]
        exact (placing_run hp).length_le.trans (Nat.succ_le_succ ih)

def Expires (endTime : Int) (c : Call) : Prop :=
  ∃ oldestTime, c = .removeExpiredPackets oldestTime ∧ endTime < oldestTime

theorem not_mem_of_expires (calls : List Call) {c : Call} (h : Expires item.endTime c) :
    item ∉ (dequeOf (run build (calls ++ [c])) key).mDeque := by
  obtain ⟨oldestTime, rfl, hlt⟩ := h
  rw [run_snoc, dequeOf_removeExpiredPackets]
  simp [hlt]

theorem mem_of_not_expires {calls : List Call} {c : Call} (h : ¬ Expires item.endTime c)
    (hcount : (added (calls ++ [c]) key).length ≤ 2147483647)
    (hm : item ∈ (dequeOf (run build calls) key).mDeque) :
    item ∈ (dequeOf (run build (calls ++ [c])) key).mDeque := by
  rw [run_snoc]
  cases c with
  | removeExpiredPackets oldestTime =>
    rw [dequeOf_removeExpiredPackets]
    have hle : ¬ item.endTime < oldestTime := fun hlt => h ⟨oldestTime, rfl, hlt⟩
    exact List.mem_filter.mpr ⟨hm, by simpa using hle⟩
  | addPacket packet =>
    obtain hsame | ⟨other, placed, ha, hp, hplaced⟩ :=
      dequeOf_addPacket (Keyed.run build calls) packet key
    · rwa [hsame]
    · rw [hplaced]
      have hlength := length_run_le build calls key
      rw [added_addPacket calls ha, List.length_append] at hcount
      exact (placing_run hp).keeps (by simp only [List.length_singleton] at hcount; omega) hm

theorem accept_of_new {calls : List Call} {c : Call}
    (hnot : item ∉ (dequeOf (run build calls) key).mDeque)
    (hm : item ∈ (dequeOf (run build (calls ++ [c])) key).mDeque) :
    ∃ packet, c = .addPacket packet ∧ accept packet = .ok (key, item) := by
  rw [run_snoc] at hm
  cases c with
  | removeExpiredPackets oldestTime =>
    rw [dequeOf_removeExpiredPackets] at hm
    exact absurd (List.mem_of_mem_filter hm) hnot
  | addPacket packet =>
    obtain hsame | ⟨other, placed, ha, hp, hplaced⟩ :=
      dequeOf_addPacket (Keyed.run build calls) packet key
    · exact absurd (hsame ▸ hm) hnot
    · rw [hplaced] at hm
      cases (placing_run hp).mem hm with
      | inl he => exact ⟨packet, rfl, he ▸ ha⟩
      | inr hm => exact absurd hm hnot

/-- A stream holds exactly the packets that some call stored in it and that no clean-up since
then has found expired, however the calls interleave and as long as a stream gets no more
packets than it has room for. -/
theorem mem_run_iff_unexpired (build : Build) (calls : List Call) (key : String)
    (item : PacketTime) (hcount : (added calls key).length ≤ 2147483647) :
    item ∈ (dequeOf (run build calls) key).mDeque ↔
      ∃ before packet after, calls = before ++ .addPacket packet :: after ∧
        accept packet = .ok (key, item) ∧
        item ∈ (dequeOf (run build (before ++ [.addPacket packet])) key).mDeque ∧
        ∀ oldestTime, .removeExpiredPackets oldestTime ∈ after → oldestTime ≤ item.endTime := by
  have hexpires : ∀ after : List Call, (∀ later ∈ after, ¬ Expires item.endTime later) ↔
      ∀ oldestTime, .removeExpiredPackets oldestTime ∈ after → oldestTime ≤ item.endTime := by
    intro after
    constructor
    · exact fun h oldestTime hm => not_lt.mp (fun hlt => h _ hm ⟨oldestTime, rfl, hlt⟩)
    · rintro h later hm ⟨oldestTime, rfl, hlt⟩
      exact absurd (h oldestTime hm) (not_le.mpr hlt)
  constructor
  · intro h
    obtain ⟨before, c, after, rfl, hnot, hm, hafter⟩ := since_of_holds
      (P := fun history => item ∈ (dequeOf (run build history) key).mDeque)
      (List.not_mem_nil) (fun before c => not_mem_of_expires before) h
    obtain ⟨packet, rfl, ha⟩ := accept_of_new hnot hm
    exact ⟨before, packet, after, rfl, ha, hm, (hexpires after).mp hafter⟩
  · rintro ⟨before, packet, after, rfl, _, hm, hafter⟩
    rw [List.append_cons] at hcount ⊢
    refine holds_of_since (P := fun history => item ∈ (dequeOf (run build history) key).mDeque)
      hm ((hexpires after).mpr hafter) (fun events c hearlier hc => ?_)
    refine mem_of_not_expires hc (le_trans ?_ hcount)
    exact (hearlier.filterMap (addedBy key)).length_le

def expiredThenLater : List Call :=
  [.addPacket (fiveSamples (named "UU" "FTU" "HHZ" "01") 0), .removeExpiredPackets 5000000000,
    .addPacket (fiveSamples (named "UU" "FTU" "HHZ" "01") 10)]

def laterItem : PacketTime :=
  ⟨⟨some ⟨10, 0⟩, some 1, some .unknown, some 5, some []⟩, 10000000000, 14000000000⟩

theorem mem_run_iff_unexpired_later :
    laterItem ∈ (dequeOf (run .debug expiredThenLater) "UU.FTU.HHZ.01").mDeque ↔
      ∃ before packet after, expiredThenLater = before ++ .addPacket packet :: after ∧
        accept packet = .ok ("UU.FTU.HHZ.01", laterItem) ∧
        laterItem ∈
          (dequeOf (run .debug (before ++ [.addPacket packet])) "UU.FTU.HHZ.01").mDeque ∧
        ∀ oldestTime, .removeExpiredPackets oldestTime ∈ after →
          oldestTime ≤ laterItem.endTime :=
  mem_run_iff_unexpired .debug _ _ laterItem ((List.length_filterMap_le _ _).trans (by decide))

end Runs

end PacketCache.Retention
