import PacketCache.SortedWindow
import PacketCache.StreamDeque

namespace PacketCache.Insertion

open PacketCache.Bisection PacketCache.Platform PacketCache.SortedWindow PacketCache.StreamDeque

/-- The order of two stored packets. Equal start times happen behind a packet that ends
where it starts, as one of a single sample does. -/
def Precedes (a b : PacketTime) : Prop :=
  a.startTime < b.startTime ∨ a.startTime = b.startTime ∧ a.endTime = a.startTime

structure WellFormed (maximum : Nat) (mDeque : List PacketTime) : Prop where
  ordered : mDeque.Pairwise Precedes
  interval : ∀ item ∈ mDeque, item.startTime ≤ item.endTime
  bounded : mDeque.length ≤ maximum

variable {maximum : Nat} {mDeque : List PacketTime} {p : PacketTime} (build : Build)

theorem Precedes.le {a b : PacketTime} (h : Precedes a b) : a.startTime ≤ b.startTime := by
  cases h <;> omega

theorem WellFormed.sorted (h : WellFormed maximum mDeque) : Sorted PacketTime.startTime mDeque :=
  h.ordered.imp Precedes.le

theorem WellFormed.nil (maximum : Nat) : WellFormed maximum [] :=
  ⟨List.Pairwise.nil, by simp, by simp⟩

theorem WellFormed.sublist {l : List PacketTime} (h : WellFormed maximum mDeque)
    (hl : l.Sublist mDeque) : WellFormed maximum l :=
  ⟨h.ordered.sublist hl, fun item hm => h.interval item (hl.mem hm), hl.length_le.trans h.bounded⟩

theorem WellFormed.precedes_getLast (h : WellFormed maximum mDeque) (hne : mDeque ≠ [])
    {item : PacketTime} (hm : item ∈ mDeque) :
    item = mDeque.getLast hne ∨ Precedes item (mDeque.getLast hne) := by
  have ho := h.ordered
  rw [← List.dropLast_append_getLast hne] at ho hm
  cases List.mem_append.mp hm with
  | inl hm => exact Or.inr ((List.pairwise_append.mp ho).2.2 item hm _ (by simp))
  | inr hm => exact Or.inl (by simpa using hm)

theorem WellFormed.le_getLast (h : WellFormed maximum mDeque) (hne : mDeque ≠ [])
    {item : PacketTime} (hm : item ∈ mDeque) :
    item.startTime ≤ (mDeque.getLast hne).startTime := by
  cases h.precedes_getLast hne hm with
  | inl he => exact le_of_eq (congrArg PacketTime.startTime he)
  | inr hp => exact hp.le

theorem WellFormed.head_le {front : PacketTime} {rest : List PacketTime}
    (h : WellFormed maximum (front :: rest)) {item : PacketTime} (hm : item ∈ front :: rest) :
    front.startTime ≤ item.startTime := by
  cases List.mem_cons.mp hm with
  | inl he => rw [he]
  | inr hm => exact (List.rel_of_pairwise_cons h.ordered hm).le

theorem isSorted_of_sorted {l : List PacketTime} (h : Sorted PacketTime.startTime l) :
    isSorted l = true := by
  induction l with
  | nil => rfl
  | cons a l ih =>
    cases l with
    | nil => rfl
    | cons b l =>
      obtain ⟨ha, hl⟩ := List.pairwise_cons.mp h
      have hab := ha b (by simp)
      simpa [isSorted, ih hl] using hab

theorem searchStart_append (t : Int) (lo hi : List PacketTime)
    (hlo : ∀ item ∈ lo, item.startTime < t) (hhi : ∀ item ∈ hi, t ≤ item.startTime) :
    searchStart (lo ++ hi) t = lo.length :=
  upperBound_append _ t lo hi (fun item hm => by simpa using hlo item hm)
    (fun item hm => by simpa using hhi item hm)

theorem popWhenFull_eq_rtake {l : List PacketTime} (hl : l.length = mDeque.length + 1)
    (hb : mDeque.length ≤ maximum) :
    popWhenFull (decide (maximum ≤ mDeque.length)) l = l.rtake maximum := by
  by_cases hf : maximum ≤ mDeque.length
  · have hd : l.length - maximum = 1 := by omega
    simp [popWhenFull, hf, List.rtake, hd]
  · have hd : l.length - maximum = 0 := by omega
    simp [popWhenFull, hf, List.rtake, hd]

theorem popWhenFull_append (isFull : Bool) (hne : mDeque ≠ []) :
    popWhenFull isFull mDeque ++ [p] = popWhenFull isFull (mDeque ++ [p]) := by
  cases mDeque with
  | nil => exact absurd rfl hne
  | cons front rest => cases isFull <;> rfl

theorem insertKey_getLast (h : WellFormed maximum mDeque) (hne : mDeque ≠ [])
    (hlt : (mDeque.getLast hne).startTime < p.startTime) :
    insertKey PacketTime.startTime p mDeque = mDeque ++ [p] := by
  have hi := insertKey_append PacketTime.startTime p mDeque []
    (fun item hm => (h.le_getLast hne hm).trans_lt hlt) (by simp)
  simpa using hi

theorem insertIdx_length (lo hi : List PacketTime) :
    (lo ++ hi).insertIdx lo.length p = lo ++ p :: hi := by
  induction lo with
  | nil => rfl
  | cons a lo ih => simpa using ih

theorem insertFound_append (isFull : Bool) (lo hi : List PacketTime) (neighbor : PacketTime)
    (hlo : ∀ item ∈ lo, item.startTime < p.startTime)
    (hhi : ∀ item ∈ neighbor :: hi, p.startTime ≤ item.startTime) :
    insertFound build isFull (lo ++ neighbor :: hi) p =
      if p.startTime = neighbor.startTime then .ok (lo ++ neighbor :: hi)
      else
        let inserted := popWhenFull isFull
          (insertKey PacketTime.startTime p (lo ++ neighbor :: hi))
        if build = .debug ∧ !isSorted inserted then .error .assertionFailed
        else .ok inserted := by
  have hs := searchStart_append p.startTime lo _ hlo hhi
  have hn : (lo ++ neighbor :: hi)[lo.length]? = some neighbor := by simp
  simp only [insertFound, hs, hn, insertIdx_length, insertKey_append _ p lo _ hlo hhi]

theorem insertFound_new (h : WellFormed maximum mDeque) (hne : mDeque ≠ [])
    (hle : p.startTime ≤ (mDeque.getLast hne).startTime)
    (hnew : ∀ item ∈ mDeque, item.startTime ≠ p.startTime) :
    insertFound build (decide (maximum ≤ mDeque.length)) mDeque p =
      .ok ((insertKey PacketTime.startTime p mDeque).rtake maximum) := by
  obtain ⟨lo, neighbor, hi, hs, hlo, hhi⟩ :=
    exists_split PacketTime.startTime p.startTime h.sorted (List.getLast_mem hne) hle
  have hn : p.startTime ≠ neighbor.startTime :=
    fun he => hnew neighbor (by rw [hs]; simp) he.symm
  have hsorted : isSorted ((insertKey PacketTime.startTime p mDeque).rtake maximum) :=
    isSorted_of_sorted ((sorted_insertKey _ p h.sorted).sublist (List.drop_sublist _ _))
  have hpop := popWhenFull_eq_rtake (length_insertKey PacketTime.startTime p mDeque) h.bounded
  have hf := insertFound_append build (decide (maximum ≤ mDeque.length)) lo hi neighbor hlo hhi
  rw [← hs, if_neg hn, hpop] at hf
  simpa [hsorted] using hf

theorem insertFound_stored (h : WellFormed maximum mDeque) (isFull : Bool) {item : PacketTime}
    (hm : item ∈ mDeque) (hs : item.startTime = p.startTime) :
    insertFound build isFull mDeque p = .ok mDeque := by
  obtain ⟨lo, neighbor, hi, hsplit, hlo, hhi⟩ :=
    exists_split PacketTime.startTime p.startTime h.sorted hm hs.symm.le
  subst hsplit
  have hord : Sorted PacketTime.startTime (neighbor :: hi) :=
    (List.pairwise_append.mp h.sorted).2.1
  have hmem : item ∈ neighbor :: hi := by
    cases List.mem_append.mp hm with
    | inl hm => exact absurd hs (hlo item hm).ne
    | inr hm => exact hm
  have hn : p.startTime = neighbor.startTime := by
    apply le_antisymm (hhi neighbor (by simp))
    cases List.mem_cons.mp hmem with
    | inl he => exact (congrArg PacketTime.startTime he).symm.le.trans hs.le
    | inr hmem => exact (List.rel_of_pairwise_cons hord hmem).trans hs.le
  rw [insertFound_append build isFull lo hi neighbor hlo hhi, if_pos hn]

theorem placePacket_new (h : WellFormed maximum mDeque) (hmax : 1 ≤ maximum)
    (hp : p.startTime ≤ p.endTime) (hnew : ∀ item ∈ mDeque, item.startTime ≠ p.startTime) :
    placePacket build maximum mDeque p =
      .ok ((insertKey PacketTime.startTime p mDeque).rtake maximum) := by
  cases mDeque with
  | nil => exact congrArg Except.ok (rtake_of_length_le (by simpa using hmax)).symm
  | cons front rest =>
    have hne : front :: rest ≠ [] := List.cons_ne_nil front rest
    have hback := h.interval _ (List.getLast_mem hne)
    have hlast := hnew _ (List.getLast_mem hne)
    have happend : ((front :: rest).getLast hne).startTime < p.startTime →
        popWhenFull (decide (maximum ≤ (front :: rest).length)) (front :: rest) ++ [p] =
          (insertKey PacketTime.startTime p (front :: rest)).rtake maximum := by
      intro hlt
      rw [popWhenFull_append _ hne, insertKey_getLast h hne hlt,
        popWhenFull_eq_rtake (by simp) h.bounded]
    simp only [placePacket]
    split_ifs with h1 h2 h3 h4 h5
    · rw [happend (by omega)]
    · rw [happend h2]
    · exact absurd h3.symm (hnew front (by simp))
    · have hfull : maximum ≤ (front :: rest).length := by simpa using h4.2
      rw [insertKey_cons_of_le _ _ h4.1.le, rtake_cons_of_length_le hfull,
        rtake_of_length_le h.bounded]
    · have hroom : (front :: rest).length < maximum := by simpa using h5.2
      rw [insertKey_cons_of_le _ _ (hp.trans h5.1), rtake_of_length_le hroom]
    · exact insertFound_new build h hne (not_lt.mp h2) hnew

/-- A packet whose start time is stored changes nothing, unless it starts where the newest
packet both starts and ends. -/
theorem placePacket_stored (h : WellFormed maximum mDeque) (hp : p.startTime ≤ p.endTime)
    {item : PacketTime} (hm : item ∈ mDeque) (hs : item.startTime = p.startTime) :
    placePacket build maximum mDeque p = .ok mDeque ∨
      ∃ hne : mDeque ≠ [], (mDeque.getLast hne).startTime = p.startTime ∧
        (mDeque.getLast hne).endTime = p.startTime ∧
        placePacket build maximum mDeque p =
          .ok (popWhenFull (decide (maximum ≤ mDeque.length)) (mDeque ++ [p])) := by
  cases mDeque with
  | nil => simp at hm
  | cons front rest =>
    have hne : front :: rest ≠ [] := List.cons_ne_nil front rest
    have hback := h.interval _ (List.getLast_mem hne)
    have hle := h.le_getLast hne hm
    have hfront := h.head_le hm
    simp only [placePacket]
    split_ifs with h1 h2 h3 h4 h5
    · exact Or.inr ⟨hne, by omega, by omega, by rw [popWhenFull_append _ hne]⟩
    · omega
    · exact Or.inl rfl
    · exact Or.inl rfl
    · omega
    · exact Or.inl (insertFound_stored build h _ hm hs)

theorem placePacket_total (h : WellFormed maximum mDeque) :
    ∃ placed, placePacket build maximum mDeque p = .ok placed := by
  cases mDeque with
  | nil => exact ⟨_, rfl⟩
  | cons front rest =>
    have hne : front :: rest ≠ [] := List.cons_ne_nil front rest
    simp only [placePacket]
    split_ifs with h1 h2 h3 h4 h5
    · exact ⟨_, rfl⟩
    · exact ⟨_, rfl⟩
    · exact ⟨_, rfl⟩
    · exact ⟨_, rfl⟩
    · exact ⟨_, rfl⟩
    · by_cases hstored : ∃ item ∈ front :: rest, item.startTime = p.startTime
      · obtain ⟨item, hm, hs⟩ := hstored
        exact ⟨_, insertFound_stored build h _ hm hs⟩
      · exact ⟨_, insertFound_new build h hne (not_lt.mp h2)
          (fun item hm hs => hstored ⟨item, hm, hs⟩)⟩

theorem placePacket_release (maximum : Nat) (mDeque : List PacketTime) (p : PacketTime) :
    ∃ placed, placePacket .release maximum mDeque p = .ok placed := by
  cases mDeque with
  | nil => exact ⟨_, rfl⟩
  | cons front rest =>
    simp only [placePacket]
    split_ifs
    · exact ⟨_, rfl⟩
    · exact ⟨_, rfl⟩
    · exact ⟨_, rfl⟩
    · exact ⟨_, rfl⟩
    · exact ⟨_, rfl⟩
    · rw [insertFound]
      cases (front :: rest)[searchStart (front :: rest) p.startTime]? with
      | none => exact ⟨_, rfl⟩
      | some neighbor =>
        by_cases hn : p.startTime = neighbor.startTime
        · simp [hn]
        · simp [hn]

/-- The builds differ only where the assertion of a debug build fails. -/
theorem placePacket_builds (maximum : Nat) (mDeque : List PacketTime) (p : PacketTime) :
    placePacket .debug maximum mDeque p = placePacket .release maximum mDeque p ∨
      placePacket .debug maximum mDeque p = .error .assertionFailed := by
  cases mDeque with
  | nil => exact Or.inl rfl
  | cons front rest =>
    simp only [placePacket]
    split_ifs
    · exact Or.inl rfl
    · exact Or.inl rfl
    · exact Or.inl rfl
    · exact Or.inl rfl
    · exact Or.inl rfl
    · rw [insertFound, insertFound]
      cases (front :: rest)[searchStart (front :: rest) p.startTime]? with
      | none => exact Or.inl rfl
      | some neighbor =>
        simp only [true_and, reduceCtorEq, false_and, ↓reduceIte]
        split_ifs
        · exact Or.inl rfl
        · exact Or.inr rfl
        · exact Or.inl rfl

theorem placePacket_error {maximum : Nat} {mDeque : List PacketTime} {p : PacketTime} {e : Fault}
    (h : placePacket build maximum mDeque p = .error e) : e = .assertionFailed := by
  obtain ⟨placed, hr⟩ := placePacket_release maximum mDeque p
  cases build with
  | release => simp [hr] at h
  | debug =>
    cases placePacket_builds maximum mDeque p with
    | inl hsame => simp [hsame, hr] at h
    | inr hfailed =>
      rw [hfailed] at h
      exact (Except.error.inj h).symm

theorem ordered_insertKey (h : WellFormed maximum mDeque)
    (hnew : ∀ item ∈ mDeque, item.startTime ≠ p.startTime) :
    (insertKey PacketTime.startTime p mDeque).Pairwise Precedes := by
  have hs := filter_append_filter PacketTime.startTime p.startTime h.sorted
  have ho := h.ordered
  rw [hs] at ho ⊢
  obtain ⟨hlo, hhi, hlohi⟩ := List.pairwise_append.mp ho
  rw [insertKey_append _ p _ _ (fun x hx => by simpa using (List.mem_filter.mp hx).2)
    (fun x hx => by simpa using (List.mem_filter.mp hx).2)]
  refine List.pairwise_append.mpr ⟨hlo, List.pairwise_cons.mpr ⟨?_, hhi⟩, ?_⟩
  · intro x hx
    obtain ⟨hm, hle⟩ := List.mem_filter.mp hx
    exact Or.inl (lt_of_le_of_ne (by simpa using hle) (hnew x hm).symm)
  · intro x hx y hy
    have hlt : x.startTime < p.startTime := by simpa using (List.mem_filter.mp hx).2
    cases List.mem_cons.mp hy with
    | inl he => exact Or.inl (by rw [he]; exact hlt)
    | inr hy => exact hlohi x hx y hy

theorem ordered_append (h : WellFormed maximum mDeque) (hne : mDeque ≠ [])
    (hstart : (mDeque.getLast hne).startTime = p.startTime)
    (hend : (mDeque.getLast hne).endTime = p.startTime) : (mDeque ++ [p]).Pairwise Precedes := by
  refine List.pairwise_append.mpr ⟨h.ordered, List.pairwise_singleton _ _, ?_⟩
  intro a ha b hb
  obtain rfl := List.mem_singleton.mp hb
  cases h.precedes_getLast hne ha with
  | inl he =>
    subst he
    exact Or.inr ⟨hstart, by omega⟩
  | inr hp =>
    cases hp with
    | inl hlt => exact Or.inl (by omega)
    | inr heq => exact Or.inr ⟨by omega, heq.2⟩

theorem WellFormed.rtake {l : List PacketTime} (h : WellFormed maximum mDeque)
    (ho : l.Pairwise Precedes) (hp : p.startTime ≤ p.endTime)
    (hl : ∀ item, item ∈ l ↔ item = p ∨ item ∈ mDeque) : WellFormed maximum (l.rtake maximum) := by
  refine ⟨ho.sublist (List.drop_sublist _ _), ?_, ?_⟩
  · intro item hm
    cases (hl item).mp (List.mem_of_mem_drop hm) with
    | inl he => rwa [he]
    | inr hm => exact h.interval item hm
  · rw [length_rtake]
    exact Nat.min_le_left _ _

theorem placePacket_wellFormed (h : WellFormed maximum mDeque) (hmax : 1 ≤ maximum)
    (hp : p.startTime ≤ p.endTime) :
    ∃ placed, placePacket build maximum mDeque p = .ok placed ∧ WellFormed maximum placed ∧
      ∀ item ∈ placed, item = p ∨ item ∈ mDeque := by
  by_cases hstored : ∃ item ∈ mDeque, item.startTime = p.startTime
  · obtain ⟨item, hm, hs⟩ := hstored
    cases placePacket_stored build h hp hm hs with
    | inl he => exact ⟨mDeque, he, h, fun item hm => Or.inr hm⟩
    | inr hl =>
      obtain ⟨hne, hstart, hend, he⟩ := hl
      have hl : ∀ item, item ∈ mDeque ++ [p] ↔ item = p ∨ item ∈ mDeque := by
        intro item
        rw [List.mem_append, List.mem_singleton, or_comm]
      rw [popWhenFull_eq_rtake (by simp) h.bounded] at he
      exact ⟨_, he, h.rtake (ordered_append h hne hstart hend) hp hl,
        fun item hm => (hl item).mp (List.mem_of_mem_drop hm)⟩
  · have hnew : ∀ item ∈ mDeque, item.startTime ≠ p.startTime :=
      fun item hm hs => hstored ⟨item, hm, hs⟩
    exact ⟨_, placePacket_new build h hmax hp hnew,
      h.rtake (ordered_insertKey h hnew) hp (fun item => mem_insertKey _),
      fun item hm => (mem_insertKey _).mp (List.mem_of_mem_drop hm)⟩

end PacketCache.Insertion
