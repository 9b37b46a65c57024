import PacketCache.DequeRuns

namespace PacketCache.Redelivery

open PacketCache.DequeRuns PacketCache.Insertion PacketCache.Messages PacketCache.Platform
open PacketCache.SortedWindow PacketCache.StreamDeque

variable {build : Build} {maximum : Nat} {mDeque : List PacketTime} {p : PacketTime}
variable {self : StreamDequeImpl} {calls : List Call}

def Stored (mDeque : List PacketTime) (p : PacketTime) : Prop :=
  ∃ item ∈ mDeque, item.startTime = p.startTime

/-- The packet is taken for the next one of the stream although its start time is stored: the
newest packet ends where it starts, being of one sample or of a rate that rounds to no time at
all. A full buffer that holds nothing but the packet looks the same afterwards. -/
structure Clashes (maximum : Nat) (mDeque : List PacketTime) (p : PacketTime) : Prop where
  stored : Stored mDeque p
  newest : ∃ back ∈ mDeque.getLast?, back.endTime ≤ p.startTime
  visible : ¬ (maximum ≤ mDeque.length ∧ ∀ item ∈ mDeque, item = p)

theorem append_singleton_eq_cons {α : Type} {a b : α} {l : List α} :
    l ++ [b] = a :: l ↔ ∀ x ∈ a :: l, x = b := by
  induction l generalizing a with
  | nil => simp [eq_comm]
  | cons c l ih =>
    rw [List.cons_append, List.cons.injEq, ih]
    constructor
    · rintro ⟨rfl, h⟩ x hx
      cases List.mem_cons.mp hx with
      | inl he => rw [he, h c (by simp)]
      | inr hx => exact h x hx
    · intro h
      exact ⟨(h c (by simp)).trans (h a (by simp)).symm,
        fun x hx => h x (List.mem_cons_of_mem a hx)⟩

theorem placePacket_afterBack {back : PacketTime} (hb : back ∈ mDeque.getLast?)
    (h : back.endTime ≤ p.startTime) :
    placePacket build maximum mDeque p =
      .ok (popWhenFull (decide (maximum ≤ mDeque.length)) mDeque ++ [p]) := by
  cases mDeque with
  | nil => simp at hb
  | cons front rest =>
    have hl : (front :: rest).getLast (by simp) = back := by
      rw [List.getLast?_eq_some_getLast (by simp)] at hb
      exact Option.some.inj hb
    simp only [placePacket, hl, if_pos h]

theorem popWhenFull_append_eq (hne : mDeque ≠ []) :
    popWhenFull (decide (maximum ≤ mDeque.length)) mDeque ++ [p] = mDeque ↔
      maximum ≤ mDeque.length ∧ ∀ item ∈ mDeque, item = p := by
  cases mDeque with
  | nil => exact absurd rfl hne
  | cons front rest =>
    by_cases hf : maximum ≤ (front :: rest).length
    · simp only [popWhenFull, hf, decide_true, if_true, List.tail_cons, true_and]
      exact append_singleton_eq_cons
    · simp only [popWhenFull, hf, decide_false, Bool.false_eq_true, if_false, false_and, iff_false]
      intro he
      have hl := congrArg List.length he
      simp at hl

theorem placePacket_stored_iff (build : Build) (h : WellFormed maximum mDeque)
    (hp : p.startTime ≤ p.endTime) (hs : Stored mDeque p) :
    placePacket build maximum mDeque p = .ok mDeque ↔ ¬ Clashes maximum mDeque p := by
  obtain ⟨item, hm, he⟩ := hs
  have hne : mDeque ≠ [] := List.ne_nil_of_mem hm
  by_cases hback : ∃ back ∈ mDeque.getLast?, back.endTime ≤ p.startTime
  · obtain ⟨back, hb, hle⟩ := hback
    rw [placePacket_afterBack hb hle, Except.ok.injEq, popWhenFull_append_eq hne]
    constructor
    · intro hv hc
      exact hc.visible hv
    · intro hc
      exact not_not.mp (fun hv => hc ⟨⟨item, hm, he⟩, ⟨back, hb, hle⟩, hv⟩)
  · refine iff_of_true ?_ (fun hc => hback hc.newest)
    cases placePacket_stored build h hp hm he with
    | inl hsame => exact hsame
    | inr hlast =>
      obtain ⟨_, _, hend, _⟩ := hlast
      exact absurd ⟨_, List.getLast?_eq_some_getLast hne, hend.le⟩ hback

theorem addPacket_stored_iff (build : Build) (h : Reached maximum self) (hmax : 1 ≤ maximum)
    (ht : Timed p) (hp : p.startTime ≤ p.endTime) (hs : Stored self.mDeque p) :
    self.addPacket build p.packet = .ok () self ↔ ¬ Clashes maximum self.mDeque p := by
  obtain ⟨placed, hplaced, hadd, _⟩ := h.addPacket build hmax ht hp
  rw [← placePacket_stored_iff build h.wellFormed hp hs, hadd, hplaced,
    Except.ok.injEq]
  constructor
  · intro he
    injection he with _ hself
    exact congrArg StreamDequeImpl.mDeque hself
  · intro he
    rw [he]

theorem addPackets_stored (h : Reached maximum self) (hmax : 1 ≤ maximum)
    (hn : ∀ item ∈ self.mDeque, ¬ Clashes maximum self.mDeque item) (items : List PacketTime)
    (hi : ∀ item ∈ items, item ∈ self.mDeque) :
    addPackets build (items.map PacketTime.packet) self = .ok () self := by
  induction items with
  | nil => rfl
  | cons item items ih =>
    have hm := hi item (by simp)
    have hsame := (addPacket_stored_iff build h hmax (h.timed item hm)
      (h.wellFormed.interval item hm) ⟨item, hm, rfl⟩).mpr (hn item hm)
    simp only [List.map_cons, addPackets, hsame]
    exact ih (fun x hx => hi x (by simp [hx]))

theorem addPackets_stored_iff (h : Reached maximum self) (hmax : 1 ≤ maximum) :
    (∀ items : List PacketTime, (∀ item ∈ items, item ∈ self.mDeque) →
      addPackets build (items.map PacketTime.packet) self = .ok () self) ↔
      ∀ item ∈ self.mDeque, ¬ Clashes maximum self.mDeque item := by
  constructor
  · intro hreplay item hm
    have hone := hreplay [item] (by simpa using hm)
    apply (addPacket_stored_iff build h hmax (h.timed item hm)
      (h.wellFormed.interval item hm) ⟨item, hm, rfl⟩).mp
    simp only [List.map_cons, List.map_nil, addPackets] at hone
    cases hadd : self.addPacket build item.packet with
    | ok _ next => rwa [hadd] at hone
    | error e next => simp [hadd] at hone
  · exact fun hn items hi => addPackets_stored h hmax hn items hi

def Distinct (self : StreamDequeImpl) : Prop := (self.mDeque.map PacketTime.startTime).Nodup

theorem nodup_insertKey (hd : (mDeque.map PacketTime.startTime).Nodup)
    (hnew : ¬ Stored mDeque p) :
    ((insertKey PacketTime.startTime p mDeque).map PacketTime.startTime).Nodup := by
  have hperm : (insertKey PacketTime.startTime p mDeque).Perm (p :: mDeque) :=
    List.perm_orderedInsert _ p mDeque
  rw [(hperm.map PacketTime.startTime).nodup_iff, List.map_cons, List.nodup_cons]
  refine ⟨fun hm => hnew ?_, hd⟩
  obtain ⟨item, hi, he⟩ := List.mem_map.mp hm
  exact ⟨item, hi, he⟩

theorem Distinct.call (hd : Distinct self) (h : Reached maximum self) (hmax : 1 ≤ maximum)
    (c : Call) (hc : ∀ packet, c = .addPacket packet → EndsAfterStart packet)
    (hn : ∀ p, c = .addPacket p.packet → Timed p → ¬ Clashes maximum self.mDeque p) :
    Distinct (DequeRuns.call build self c) := by
  cases c with
  | removeExpiredPackets oldestTime =>
    exact hd.sublist (List.Sublist.map _ List.filter_sublist)
  | addPacket packet =>
    cases exists_timed_or_refused build self packet with
    | inr hrefused => rwa [hrefused]
    | inl htimed =>
      obtain ⟨p, rfl, ht⟩ := htimed
      have hp : p.startTime ≤ p.endTime := ht.1 ▸ hc _ rfl p.endTime ht.2
      change Distinct (finalState (self.addPacket build p.packet))
      by_cases hs : Stored self.mDeque p
      · rw [(addPacket_stored_iff build h hmax ht hp hs).mpr (hn p rfl ht)]
        exact hd
      · have hnew : ∀ item ∈ self.mDeque, item.startTime ≠ p.startTime :=
          fun item hm he => hs ⟨item, hm, he⟩
        rw [addPacket_timed build ht, h.capacity,
          placePacket_new build h.wellFormed hmax hp hnew]
        exact (nodup_insertKey hd hs).sublist (List.Sublist.map _ (List.drop_sublist _ _))

/-- In every state of the run the start times are distinct and a redelivery changes nothing. -/
structure Idempotent (build : Build) (start : StreamDequeImpl) (calls : List Call) : Prop where
  unchanged : ∀ before p after, calls = before ++ .addPacket p.packet :: after → Timed p →
    Stored (run build start before).mDeque p →
    run build start (before ++ [.addPacket p.packet]) = run build start before
  distinct : ∀ before after, calls = before ++ after → Distinct (run build start before)

def Unclashing (build : Build) (maximum : Nat) (self : StreamDequeImpl) (calls : List Call) :
    Prop :=
  ∀ before p after, calls = before ++ .addPacket p.packet :: after → Timed p →
    ¬ Clashes maximum (run build self before).mDeque p

theorem Distinct.run (hd : Distinct self) (h : Reached maximum self) (hmax : 1 ≤ maximum)
    (hc : ∀ packet, .addPacket packet ∈ calls → EndsAfterStart packet)
    (hn : Unclashing build maximum self calls) : Distinct (run build self calls) := by
  induction calls generalizing self with
  | nil => exact hd
  | cons c calls ih =>
    have hstart : ∀ packet, c = .addPacket packet → EndsAfterStart packet :=
      fun packet he => hc packet (by simp [he])
    apply ih
    · exact hd.call h hmax c hstart (fun p he ht => hn [] p calls (by rw [he]; rfl) ht)
    · exact h.call build hmax c hstart
    · exact fun packet hm => hc packet (by simp [hm])
    · exact fun before p after he ht => hn (c :: before) p after (by rw [he]; rfl) ht

theorem call_stored_iff (h : Reached maximum self) (hmax : 1 ≤ maximum) (ht : Timed p)
    (hp : p.startTime ≤ p.endTime) (hs : Stored self.mDeque p) :
    call build self (.addPacket p.packet) = self ↔ ¬ Clashes maximum self.mDeque p := by
  rw [← addPacket_stored_iff build h hmax ht hp hs]
  obtain ⟨placed, _, hadd, _⟩ := h.addPacket build hmax ht hp
  constructor
  · intro he
    rw [DequeRuns.call, hadd, finalState_ok] at he
    rw [hadd, he]
  · intro he
    rw [DequeRuns.call, he, finalState_ok]

theorem run_concat (calls : List Call) (c : Call) :
    run build self (calls ++ [c]) = call build (run build self calls) c := by
  rw [run, List.foldl_append]
  rfl

theorem idempotent_iff (hd : Distinct self) (h : Reached maximum self) (hmax : 1 ≤ maximum)
    (hc : ∀ packet, .addPacket packet ∈ calls → EndsAfterStart packet) :
    Idempotent build self calls ↔ Unclashing build maximum self calls := by
  have hreached : ∀ before after, calls = before ++ after →
      Reached maximum (run build self before) := by
    intro before after he
    exact h.run build hmax before (fun packet hm => hc packet (by simp [he, hm]))
  have hends : ∀ before p after, calls = before ++ .addPacket p.packet :: after → Timed p →
      p.startTime ≤ p.endTime := by
    intro before p after he ht
    have hp := hc p.packet (by simp [he]) p.endTime ht.2
    rwa [ht.1] at hp
  constructor
  · intro hi before p after he ht hclash
    have hsame := hi.unchanged before p after he ht hclash.stored
    rw [run_concat] at hsame
    exact (call_stored_iff (hreached _ _ he) hmax ht (hends _ _ _ he ht) hclash.stored).mp
      hsame hclash
  · intro hn
    refine ⟨?_, ?_⟩
    · intro before p after he ht hs
      rw [run_concat]
      exact (call_stored_iff (hreached _ _ he) hmax ht (hends _ _ _ he ht) hs).mpr
        (hn before p after he ht)
    · intro before after he
      apply hd.run h hmax (fun packet hm => hc packet (by simp [he, hm]))
      intro before' p after' he' ht
      exact hn before' p (after' ++ after) (by simp [he, he']) ht

/-- A run is idempotent exactly when none of its packets clashes. In each state a redelivered
packet, or a replay of what is stored, changes nothing on the same condition. -/
theorem redelivery_idempotent_iff (build : Build) (options : StreamDequeOptions)
    (calls : List Call) (hcalls : ∀ packet, .addPacket packet ∈ calls → EndsAfterStart packet) :
    (Idempotent build (StreamDequeImpl.construct options) calls ↔
      Unclashing build options.mMaximumNumberOfPackets (StreamDequeImpl.construct options)
        calls) ∧
    (∀ p, Timed p → p.startTime ≤ p.endTime →
      Stored (run build (StreamDequeImpl.construct options) calls).mDeque p →
      ((run build (StreamDequeImpl.construct options) calls).addPacket build p.packet =
          .ok () (run build (StreamDequeImpl.construct options) calls) ↔
        ¬ Clashes options.mMaximumNumberOfPackets
          (run build (StreamDequeImpl.construct options) calls).mDeque p)) ∧
    ((∀ items : List PacketTime,
        (∀ item ∈ items, item ∈ (run build (StreamDequeImpl.construct options) calls).mDeque) →
        addPackets build (items.map PacketTime.packet)
          (run build (StreamDequeImpl.construct options) calls) =
            .ok () (run build (StreamDequeImpl.construct options) calls)) ↔
      ∀ item ∈ (run build (StreamDequeImpl.construct options) calls).mDeque,
        ¬ Clashes options.mMaximumNumberOfPackets
          (run build (StreamDequeImpl.construct options) calls).mDeque item) := by
  have hstart : Reached options.mMaximumNumberOfPackets (StreamDequeImpl.construct options) :=
    Reached.construct options
  have h := hstart.run build options.positive calls hcalls
  refine ⟨idempotent_iff List.nodup_nil hstart options.positive hcalls, ?_, ?_⟩
  · exact fun p ht hp hs => addPacket_stored_iff build h options.positive ht hp hs
  · exact addPackets_stored_iff h options.positive

theorem redelivery_idempotent_iff_two_packets :
    (Idempotent .debug (StreamDequeImpl.construct {})
        [.addPacket (oneHertz 0 5), .addPacket (oneHertz 0 5)] ↔
      Unclashing .debug 2147483647 (StreamDequeImpl.construct {})
        [.addPacket (oneHertz 0 5), .addPacket (oneHertz 0 5)]) := by
  refine (redelivery_idempotent_iff .debug {} _ ?_).1
  have h : EndsAfterStart (oneHertz 0 5) := by decide +kernel
  simp [h]

/-- A packet of one sample that comes twice in a row is stored twice. -/
theorem one_sample_stored_twice :
    EndsAfterStart (oneHertz 0 1) ∧ Timed ⟨oneHertz 0 1, 0, 0⟩ ∧
      (run .release (StreamDequeImpl.construct {}) [.addPacket (oneHertz 0 1)]).mDeque =
        [⟨oneHertz 0 1, 0, 0⟩] ∧
      (run .release (StreamDequeImpl.construct {})
        [.addPacket (oneHertz 0 1), .addPacket (oneHertz 0 1)]).mDeque =
          [⟨oneHertz 0 1, 0, 0⟩, ⟨oneHertz 0 1, 0, 0⟩] ∧
      ¬ Idempotent .release (StreamDequeImpl.construct {})
        [.addPacket (oneHertz 0 1), .addPacket (oneHertz 0 1)] := by
  have htwo : (run .release (StreamDequeImpl.construct {})
      [.addPacket (oneHertz 0 1), .addPacket (oneHertz 0 1)]).mDeque =
        [⟨oneHertz 0 1, 0, 0⟩, ⟨oneHertz 0 1, 0, 0⟩] := by decide +kernel
  refine ⟨by decide +kernel, ⟨by decide +kernel, by decide +kernel⟩, by decide +kernel, htwo, ?_⟩
  intro h
  have hd := h.distinct _ [] (List.append_nil _).symm
  rw [Distinct, htwo] at hd
  simp at hd

end PacketCache.Redelivery
