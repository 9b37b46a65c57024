import PacketCache.Insertion

namespace PacketCache.Query

open PacketCache.Bisection PacketCache.Insertion PacketCache.Messages PacketCache.Platform
open PacketCache.SortedWindow PacketCache.StreamDeque

variable (build : Build) {self : StreamDequeImpl} {t0 t1 : Int}

/-- How a query divides the buffer at its first iterator `it0`. Either `first` is the
first packet from `t0` on and the packet before it is too old or not looked at, or the
iterator has moved back to a packet that starts before `t0` and reaches it. -/
structure Opening (t0 : Int) (before : List PacketTime) (first : PacketTime)
    (after : List PacketTime) : Prop where
  before_lt : ∀ item ∈ before, item.startTime < t0
  after_ge : ∀ item ∈ after, t0 ≤ item.startTime
  start : (t0 ≤ first.startTime ∧
      (t0 < first.startTime → ∀ hne : before ≠ [], (before.getLast hne).endTime < t0)) ∨
    (first.startTime < t0 ∧ t0 ≤ first.endTime ∧ ∀ item ∈ after, t0 < item.startTime)

def selected (t1 : Int) (first : PacketTime) (after : List PacketTime) : List PacketTime :=
  (first :: after).filter (fun item => item.startTime ≤ t1)

theorem searchEnd_append {lo hi : List PacketTime} (hs : Sorted PacketTime.startTime (lo ++ hi))
    (hlo : ∀ item ∈ lo, item.startTime ≤ t1) (hhi : ∀ item ∈ hi, t1 < item.startTime) :
    searchEnd (lo ++ hi) t1 = lo.length := by
  have hb : lowerBound (fun item value => decide (item.startTime ≤ value)) (lo ++ hi) t1 =
      lo.length :=
    lowerBound_append _ t1 lo hi (fun item hm => by simpa using hlo item hm)
      (fun item hm => by simpa using hhi item hm)
  cases List.eq_nil_or_concat hi with
  | inl hnil =>
    subst hnil
    rw [searchEnd, if_neg]
    · simp
    · rw [List.append_nil]
      cases hl : lo.getLast? with
      | none => simp
      | some back => simpa using hlo back (List.mem_of_getLast? hl)
  | inr hconcat =>
    obtain ⟨hi', back, rfl⟩ := hconcat
    have hl : (lo ++ hi'.concat back).getLast? = some back := by simp
    have hback := hhi back (by simp)
    rw [searchEnd, hl, if_pos (by simpa using hback), hb]

/-- The copy loop either copies everything or leaves at a packet that reaches `t1`. -/
theorem copyLoop_cases (t1 : Int) (l : List PacketTime) :
    copyLoop t1 l = l.map PacketTime.packet ∨
      ∃ lo last hi, l = lo ++ last :: hi ∧ hi ≠ [] ∧ (∀ item ∈ lo, item.endTime < t1) ∧
        t1 ≤ last.endTime ∧ copyLoop t1 l = (lo ++ [last]).map PacketTime.packet := by
  induction l with
  | nil => exact Or.inl rfl
  | cons item l ih =>
    by_cases hi : t1 ≤ item.endTime
    · cases l with
      | nil => exact Or.inl (by simp [copyLoop])
      | cons b l =>
        exact Or.inr ⟨[], item, b :: l, rfl, List.cons_ne_nil b l, by simp, hi,
          by simp [copyLoop, hi]⟩
    · cases ih with
      | inl he => exact Or.inl (by simp [copyLoop, hi, he])
      | inr hleft =>
        obtain ⟨lo, last, hi', hl, hne, hlo, hlast, he⟩ := hleft
        refine Or.inr ⟨item :: lo, last, hi', by rw [hl]; rfl, hne, ?_, hlast, ?_⟩
        · intro x hx
          cases List.mem_cons.mp hx with
          | inl hx => rw [hx]; exact not_le.mp hi
          | inr hx => exact hlo x hx
        · simp [copyLoop, hi, he]

theorem copyLoop_isPrefixOf (t1 : Int) (l : List PacketTime) :
    copyLoop t1 l <+: l.map PacketTime.packet := by
  induction l with
  | nil => exact List.prefix_rfl
  | cons item l ih =>
    by_cases hi : t1 ≤ item.endTime
    · simp [copyLoop, hi]
    · simpa [copyLoop, hi] using ih

theorem getPackets_newest (hnew : ∀ item ∈ self.mDeque, item.startTime < t0) :
    self.getPackets build (t0, t1) = .ok [] := by
  have hs := searchStart_append t0 self.mDeque [] hnew (by simp)
  rw [List.append_nil] at hs
  simp [StreamDequeImpl.getPackets, hs]

theorem stepBack_stay {lo hi : List PacketTime} {item : PacketTime}
    (h : t0 < item.startTime → ∀ hne : lo ≠ [], (lo.getLast hne).endTime < t0) :
    stepBack (lo ++ item :: hi) t0 lo.length item = .ok lo.length := by
  by_cases hlt : t0 < item.startTime
  · cases List.eq_nil_or_concat lo with
    | inl hnil => simp [stepBack, hnil]
    | inr hconcat =>
      obtain ⟨lo', previous, rfl⟩ := hconcat
      have hold : previous.endTime < t0 := by simpa using h hlt (by simp)
      simp [stepBack, prev, hlt, hold]
  · simp only [stepBack, hlt, and_false, ↓reduceIte]

theorem stepBack_back {lo hi : List PacketTime} {previous item : PacketTime}
    (hlt : t0 < item.startTime) (hreach : t0 ≤ previous.endTime) :
    stepBack (lo ++ previous :: item :: hi) t0 (lo.length + 1) item = .ok lo.length := by
  simp [stepBack, prev, hlt, not_lt.mpr hreach]

theorem exists_opening (hs : Sorted PacketTime.startTime self.mDeque)
    (hnew : ∃ item ∈ self.mDeque, t0 ≤ item.startTime) :
    ∃ before first after item, self.mDeque = before ++ first :: after ∧
      Opening t0 before first after ∧
      self.mDeque[searchStart self.mDeque t0]? = some item ∧
      stepBack self.mDeque t0 (searchStart self.mDeque t0) item = .ok before.length := by
  obtain ⟨newest, hm, hge⟩ := hnew
  obtain ⟨lo, item, hi, hsplit, hlo, hhi⟩ := exists_split PacketTime.startTime t0 hs hm hge
  have hget : (lo ++ item :: hi)[lo.length]? = some item := by simp
  rw [hsplit] at hs ⊢
  rw [searchStart_append t0 lo _ hlo hhi]
  by_cases hold : t0 < item.startTime → ∀ hne : lo ≠ [], (lo.getLast hne).endTime < t0
  · exact ⟨lo, item, hi, item, rfl, ⟨hlo, fun x hx => hhi x (by simp [hx]),
      Or.inl ⟨hhi item (by simp), hold⟩⟩, hget, stepBack_stay hold⟩
  · push Not at hold
    obtain ⟨hlt, hne, hreach⟩ := hold
    obtain ⟨lo', previous, rfl⟩ := (List.eq_nil_or_concat lo).resolve_left hne
    simp only [List.concat_eq_append, List.getLast_append_singleton, List.append_assoc,
      List.cons_append, List.nil_append, List.length_append, List.length_cons,
      List.length_nil, Nat.zero_add] at hs hlo hreach hget ⊢
    have hlater : ∀ x ∈ item :: hi, t0 < x.startTime := by
      intro x hx
      cases List.mem_cons.mp hx with
      | inl hx => rwa [hx]
      | inr hx =>
        have ho := (List.pairwise_cons.mp (List.pairwise_append.mp hs).2.1).2
        exact hlt.trans_le (List.rel_of_pairwise_cons ho hx)
    exact ⟨lo', previous, item :: hi, item, rfl, ⟨fun x hx => hlo x (by simp [hx]), hhi,
      Or.inr ⟨hlo previous (by simp), hreach, hlater⟩⟩, hget, stepBack_back hlt hreach⟩

def answer (build : Build) (t0 t1 : Int) (first : PacketTime) (after : List PacketTime) :
    Except Fault (List CacheApi.Packet) :=
  if t0 = t1 ∨ selected t1 first after = [] then .ok [first.packet]
  else if build = .debug ∧
      (copyLoop t1 (selected t1 first after)).length ≠ (selected t1 first after).length then
    .error .assertionFailed
  else .ok (copyLoop t1 (selected t1 first after))

theorem mem_answer {r : List CacheApi.Packet} (h : answer build t0 t1 first after = .ok r)
    {packet : CacheApi.Packet} (hm : packet ∈ r) :
    ∃ item, (item = first ∨ item ∈ selected t1 first after) ∧ item.packet = packet := by
  rw [answer] at h
  split_ifs at h
  · obtain rfl := Except.ok.inj h
    exact ⟨first, Or.inl rfl, (List.mem_singleton.mp hm).symm⟩
  · obtain rfl := Except.ok.inj h
    obtain ⟨item, hi, he⟩ := List.mem_map.mp ((copyLoop_isPrefixOf t1 _).mem hm)
    exact ⟨item, Or.inr hi, he⟩

theorem onePacket_append (before after : List PacketTime) (first : PacketTime) :
    onePacket (before ++ first :: after) before.length = .ok [first.packet] := by
  have hget : (before ++ first :: after)[before.length]? = some first := by simp
  simp only [onePacket, hget]

theorem searchEnd_selected {before after : List PacketTime} {first : PacketTime}
    (hs : Sorted PacketTime.startTime (before ++ first :: after)) (ht : t0 ≤ t1)
    (ho : Opening t0 before first after) :
    searchEnd (before ++ first :: after) t1 = before.length + (selected t1 first after).length ∧
      ((before ++ first :: after).drop before.length).take (selected t1 first after).length =
        selected t1 first after := by
  have hsplit := filter_append_filter PacketTime.startTime (t1 + 1)
    (List.pairwise_append.mp hs).2.1
  simp only [Int.lt_add_one_iff, Int.add_one_le_iff] at hsplit
  change first :: after = selected t1 first after ++ _ at hsplit
  have hlo : ∀ item ∈ before ++ selected t1 first after, item.startTime ≤ t1 := by
    intro item hm
    cases List.mem_append.mp hm with
    | inl hm => exact (ho.before_lt item hm).le.trans ht
    | inr hm => simpa using (List.mem_filter.mp hm).2
  constructor
  · rw [hsplit, ← List.append_assoc] at hs ⊢
    rw [searchEnd_append hs hlo (fun item hm => by simpa using (List.mem_filter.mp hm).2),
      List.length_append]
  · rw [List.drop_left, hsplit, List.take_left]

/-- The answer is read off the packets from `first` on. No end iterator is dereferenced
and the iterators are in order. -/
theorem getPackets_eq (hs : Sorted PacketTime.startTime self.mDeque) (ht : t0 ≤ t1)
    (hnew : ∃ item ∈ self.mDeque, t0 ≤ item.startTime) :
    ∃ before first after, self.mDeque = before ++ first :: after ∧
      Opening t0 before first after ∧
      self.getPackets build (t0, t1) = answer build t0 t1 first after := by
  obtain ⟨before, first, after, item, hsplit, ho, hitem, hback⟩ := exists_opening hs hnew
  refine ⟨before, first, after, hsplit, ho, ?_⟩
  have hempty : (before ++ first :: after).isEmpty = false := by simp
  rw [hsplit] at hs hitem hback
  obtain ⟨hend, hrun⟩ := searchEnd_selected hs ht ho
  simp only [StreamDequeImpl.getPackets, hempty, hsplit, hitem, hback, hend, hrun, answer,
    onePacket_append, Bool.false_eq_true, ↓reduceIte, Nat.add_sub_cancel_left]
  by_cases hsel : selected t1 first after = []
  · simp [hsel]
  · have hpos : 0 < (selected t1 first after).length := List.length_pos_iff.mpr hsel
    have hne : before.length ≠ before.length + (selected t1 first after).length := by omega
    have hlt : before.length < before.length + (selected t1 first after).length := by omega
    have hn : ¬ ((before.length + (selected t1 first after).length : Nat) : Int) - before.length < 1 := by
      omega
    have hcount : (((before.length + (selected t1 first after).length : Nat) : Int) - before.length ≠
        (copyLoop t1 (selected t1 first after)).length) ↔
        (copyLoop t1 (selected t1 first after)).length ≠ (selected t1 first after).length := by
      omega
    simp only [hsel, hne, hlt, hn, hcount, or_false, not_true_eq_false, and_false, ↓reduceIte]

end PacketCache.Query
