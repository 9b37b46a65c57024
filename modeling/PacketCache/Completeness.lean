import PacketCache.DequeRuns
import PacketCache.Query

namespace PacketCache.Completeness

open PacketCache.DequeRuns PacketCache.Insertion PacketCache.Messages PacketCache.Platform
open PacketCache.Query PacketCache.SortedWindow PacketCache.StreamDeque

variable {build : Build} {maximum : Nat} {self : StreamDequeImpl} {t0 t1 : Int}
variable {before after : List PacketTime} {first : PacketTime}

/-- The interval of a packet meets the window, ends included. -/
def Meets (t0 t1 : Int) (item : PacketTime) : Prop := item.startTime ≤ t1 ∧ t0 ≤ item.endTime

instance (t0 t1 : Int) : DecidablePred (Meets t0 t1) := fun item =>
  inferInstanceAs (Decidable (item.startTime ≤ t1 ∧ t0 ≤ item.endTime))

/-- Reaching the end of the window ends the copy, unless the next packet is the same one
stored again. A debug build refuses to skip even that one. -/
def LeavesNothing (build : Build) (t0 t1 : Int) (e f : PacketTime) : Prop :=
  e.endTime < t1 ∨ e.packet = f.packet ∧ (build = .release ∨ t0 = t1)

/-- The windows and buffers for which a query misses no packet. -/
structure Served (build : Build) (t0 t1 : Int) (mDeque : List PacketTime) : Prop where
  newest : (∃ item ∈ mDeque, t0 ≤ item.startTime) ∨ ∀ item ∈ mDeque, ¬ Meets t0 t1 item
  reach : ∀ e ∈ mDeque, ∀ f ∈ mDeque,
    e.startTime < f.startTime → f.startTime ≤ t0 → e.endTime < t0
  covered : (mDeque.filter (Meets t0 t1)).Pairwise (LeavesNothing build t0 t1)

theorem precedes_endTime_lt {e f : PacketTime} (h : Precedes e f) (he : e.startTime < t0)
    (hf : f.startTime ≤ t0) (hr : e.startTime < f.startTime → f.startTime ≤ t0 → e.endTime < t0) :
    e.endTime < t0 := by
  cases h with
  | inl hlt => exact hr hlt hf
  | inr heq => omega

theorem endTime_lt_of_mem_before (hw : WellFormed maximum (before ++ first :: after))
    (ho : Opening t0 before first after) {item : PacketTime} (hm : item ∈ before)
    (hr : ∀ f ∈ before ++ first :: after,
      item.startTime < f.startTime → f.startTime ≤ t0 → item.endTime < t0) :
    item.endTime < t0 := by
  have hlt := ho.before_lt item hm
  have hprec : ∀ b ∈ first :: after, Precedes item b :=
    (List.pairwise_append.mp hw.ordered).2.2 item hm
  have hfirst : first ∈ before ++ first :: after := by simp
  cases ho.start with
  | inr hback =>
    exact precedes_endTime_lt (hprec first (by simp)) hlt hback.1.le (hr first hfirst)
  | inl hstay =>
    by_cases hgt : t0 < first.startTime
    · have hne : before ≠ [] := List.ne_nil_of_mem hm
      have hlast := List.getLast_mem hne
      have hsub : WellFormed maximum before := hw.sublist (List.sublist_append_left _ _)
      cases hsub.precedes_getLast hne hm with
      | inl he => rw [he]; exact hstay.2 hgt hne
      | inr hp =>
        exact precedes_endTime_lt hp hlt (ho.before_lt _ hlast).le
          (hr _ (List.mem_append_left _ hlast))
    · exact hr first hfirst (by omega) (not_lt.mp hgt)

theorem before_endTime_lt (hw : WellFormed maximum (before ++ first :: after))
    (ho : Opening t0 before first after)
    (hr : ∀ e ∈ before ++ first :: after, ∀ f ∈ before ++ first :: after,
      e.startTime < f.startTime → f.startTime ≤ t0 → e.endTime < t0) :
    ∀ item ∈ before, item.endTime < t0 :=
  fun item hm => endTime_lt_of_mem_before hw ho hm (hr item (List.mem_append_left _ hm))

theorem opening_endTime_ge (hw : WellFormed maximum (before ++ first :: after))
    (ho : Opening t0 before first after) : ∀ item ∈ first :: after, t0 ≤ item.endTime := by
  intro item hm
  have hi := hw.interval item (List.mem_append_right _ hm)
  cases List.mem_cons.mp hm with
  | inl he =>
    subst he
    cases ho.start with
    | inl hstay => exact hstay.1.trans hi
    | inr hback => exact hback.2.1
  | inr hm => exact (ho.after_ge item hm).trans hi

theorem filter_meets (t1 : Int) (hw : WellFormed maximum (before ++ first :: after))
    (ho : Opening t0 before first after) (hend : ∀ item ∈ before, item.endTime < t0) :
    (before ++ first :: after).filter (Meets t0 t1) = selected t1 first after := by
  have hnone : before.filter (Meets t0 t1) = [] := by
    apply List.filter_eq_nil_iff.mpr
    intro item hm
    have hlt := hend item hm
    simpa using fun h : Meets t0 t1 item => not_lt.mpr h.2 hlt
  have hall : (first :: after).filter (Meets t0 t1) = selected t1 first after := by
    apply List.filter_congr
    intro item hm
    have := opening_endTime_ge hw ho item hm
    simp only [Meets, this, and_true]
  rw [List.filter_append, hnone, hall, List.nil_append]

theorem copyLoop_eq_map (t1 : Int) (l : List PacketTime) :
    copyLoop t1 l = l.map PacketTime.packet ↔ l.Pairwise (fun e _ => e.endTime < t1) := by
  induction l with
  | nil => simp [copyLoop]
  | cons item l ih =>
    cases l with
    | nil => simp [copyLoop]
    | cons b l =>
      by_cases hi : t1 ≤ item.endTime
      · apply iff_of_false (by simp [copyLoop, hi])
        intro hp
        exact not_lt.mpr hi (List.rel_of_pairwise_cons hp List.mem_cons_self)
      · rw [copyLoop, if_neg hi, List.map_cons, List.cons.injEq, ih, List.pairwise_cons]
        simp [not_le.mp hi]

theorem copyLoop_rest {lo hi : List PacketTime} {last : PacketTime}
    (hw : WellFormed maximum (lo ++ last :: hi)) (ht : ∀ item ∈ lo ++ last :: hi, Timed item)
    (hlo : ∀ item ∈ lo, item.endTime < t1) (hlast : t1 ≤ last.endTime)
    {item : PacketTime} (hm : item ∈ hi)
    (hp : item.packet ∈ (lo ++ [last]).map PacketTime.packet) : item = last := by
  obtain ⟨copied, hc, he⟩ := List.mem_map.mp hp
  have hcm : copied ∈ lo ++ last :: hi := by
    cases List.mem_append.mp hc with
    | inl hc => simp [hc]
    | inr hc => simp [List.mem_singleton.mp hc]
  have hitem : item ∈ lo ++ last :: hi := by simp [hm]
  obtain rfl := Timed.eq_of_packet (ht copied hcm) (ht item hitem) he
  cases List.mem_append.mp hc with
  | inr hc => exact List.mem_singleton.mp hc
  | inl hc =>
    have hend := hlo copied hc
    obtain ⟨_, hright, hcross⟩ := List.pairwise_append.mp hw.ordered
    have h1 := (hcross copied hc last (by simp)).le
    have h2 := List.rel_of_pairwise_cons hright hm
    have h3 := hw.interval copied hitem
    cases h2 <;> omega

theorem answer_copy (hsel : selected t1 first after ≠ []) (ht : t0 ≠ t1) :
    answer build t0 t1 first after =
      if build = .debug ∧
        (copyLoop t1 (selected t1 first after)).length ≠ (selected t1 first after).length then
        .error .assertionFailed
      else .ok (copyLoop t1 (selected t1 first after)) := by
  rw [answer, if_neg]
  simp [ht, hsel]

theorem leavesNothing_of_eq {lo hi : List PacketTime} {last : PacketTime}
    (hlo : ∀ item ∈ lo, item.endTime < t1) (hrest : ∀ item ∈ hi, item = last) :
    (lo ++ last :: hi).Pairwise (LeavesNothing .release t0 t1) := by
  have hright : ∀ item ∈ last :: hi, item = last := by
    intro item hm
    cases List.mem_cons.mp hm with
    | inl he => exact he
    | inr hm => exact hrest item hm
  refine List.pairwise_append.mpr ⟨?_, ?_, fun e he _ _ => Or.inl (hlo e he)⟩
  · exact List.pairwise_of_forall_mem_list (fun e he _ _ => Or.inl (hlo e he))
  · refine List.pairwise_of_forall_mem_list (fun e he f hf => Or.inr ⟨?_, Or.inl rfl⟩)
    rw [hright e he, hright f hf]

theorem rest_of_leavesNothing {lo hi : List PacketTime} {last : PacketTime}
    (hlast : t1 ≤ last.endTime) (ht : t0 ≠ t1)
    (h : (lo ++ last :: hi).Pairwise (LeavesNothing build t0 t1)) :
    ∀ item ∈ hi, last.packet = item.packet ∧ build = .release := by
  intro item hm
  cases List.rel_of_pairwise_cons (List.pairwise_append.mp h).2.1 hm with
  | inl hlt => omega
  | inr hs => exact ⟨hs.1, hs.2.resolve_right ht⟩

theorem copy_complete {l : List PacketTime} (hw : WellFormed maximum l)
    (htimed : ∀ item ∈ l, Timed item) (ht : t0 ≠ t1) :
    (∃ r, (if build = .debug ∧ (copyLoop t1 l).length ≠ l.length then
        .error .assertionFailed else .ok (copyLoop t1 l)) = (.ok r : Except Fault _) ∧
      ∀ item ∈ l, item.packet ∈ r) ↔ l.Pairwise (LeavesNothing build t0 t1) := by
  cases copyLoop_cases t1 l with
  | inl hall =>
    have hp := (copyLoop_eq_map t1 l).mp hall
    refine iff_of_true ⟨copyLoop t1 l, if_neg (by simp [hall]), fun item hm => ?_⟩
      (hp.imp (fun h => Or.inl h))
    rw [hall]
    exact List.mem_map_of_mem hm
  | inr hleft =>
    obtain ⟨lo, last, hi, rfl, hne, hlo, hlast, hcopy⟩ := hleft
    have hlen : ((lo ++ [last]).map PacketTime.packet).length ≠ (lo ++ last :: hi).length := by
      have := List.length_pos_iff.mpr hne
      simp only [List.length_map, List.length_append, List.length_cons, List.length_nil]
      omega
    rw [hcopy]
    constructor
    · rintro ⟨r, hr, hin⟩
      cases build with
      | debug => rw [if_pos ⟨rfl, hlen⟩] at hr; cases hr
      | release =>
        simp only [reduceCtorEq, false_and, ↓reduceIte, Except.ok.injEq] at hr
        subst hr
        exact leavesNothing_of_eq hlo
          (fun item hm => copyLoop_rest hw htimed hlo hlast hm (hin item (by simp [hm])))
    · intro hp
      have hsame := rest_of_leavesNothing hlast ht hp
      obtain ⟨other, hother⟩ := List.exists_mem_of_ne_nil hi hne
      refine ⟨_, if_neg (by simp [(hsame other hother).2]), fun item hm => ?_⟩
      cases List.mem_append.mp hm with
      | inl hm => exact List.mem_map_of_mem (List.mem_append_left _ hm)
      | inr hm =>
        cases List.mem_cons.mp hm with
        | inl he => simp [he]
        | inr hm => simp [← (hsame item hm).1]

theorem selected_cons (h : first.startTime ≤ t1) :
    selected t1 first after = first :: after.filter (fun item => item.startTime ≤ t1) := by
  simp [selected, h]

theorem selected_eq_nil (hs : Sorted PacketTime.startTime (first :: after))
    (h : ¬ first.startTime ≤ t1) : selected t1 first after = [] := by
  apply List.filter_eq_nil_iff.mpr
  intro item hm
  have hle : first.startTime ≤ item.startTime := by
    cases List.mem_cons.mp hm with
    | inl he => rw [he]
    | inr hm => exact List.rel_of_pairwise_cons hs hm
  simp only [decide_eq_true_eq]
  omega

theorem answer_complete (build : Build) (t1 : Int) (hw : WellFormed maximum (first :: after))
    (htimed : ∀ item ∈ first :: after, Timed item)
    (hge : ∀ item ∈ first :: after, t0 ≤ item.endTime) :
    (∃ r, answer build t0 t1 first after = .ok r ∧
      ∀ item ∈ selected t1 first after, item.packet ∈ r) ↔
      (selected t1 first after).Pairwise (LeavesNothing build t0 t1) := by
  have hsub : (selected t1 first after).Sublist (first :: after) := List.filter_sublist
  by_cases hstart : first.startTime ≤ t1
  · by_cases ht : t0 = t1
    · rw [answer, if_pos (Or.inl ht)]
      constructor
      · rintro ⟨r, hr, hin⟩
        obtain rfl := Except.ok.inj hr
        refine List.pairwise_of_forall_mem_list (fun e he f hf => Or.inr ⟨?_, Or.inr ht⟩)
        rw [List.mem_singleton.mp (hin e he), List.mem_singleton.mp (hin f hf)]
      · intro hp
        rw [selected_cons hstart] at hp ⊢
        refine ⟨_, rfl, fun item hm => ?_⟩
        cases List.mem_cons.mp hm with
        | inl he => simp [he]
        | inr hm =>
          have hfirst := hge first (by simp)
          cases List.rel_of_pairwise_cons hp hm with
          | inl hlt => omega
          | inr hs => simp [hs.1]
    · rw [answer_copy (by simp [selected_cons hstart]) ht]
      exact copy_complete (hw.sublist hsub) (fun item hm => htimed item (hsub.mem hm)) ht
  · have hnil := selected_eq_nil hw.sorted hstart
    simp [answer, hnil]

theorem reach_of_complete (h : Reached maximum self) (ht : t0 ≤ t1)
    (hsplit : self.mDeque = before ++ first :: after) (ho : Opening t0 before first after)
    {r : List CacheApi.Packet} (hr : answer build t0 t1 first after = .ok r)
    (hin : ∀ item ∈ self.mDeque, Meets t0 t1 item → item.packet ∈ r) :
    ∀ e ∈ self.mDeque, ∀ f ∈ self.mDeque,
      e.startTime < f.startTime → f.startTime ≤ t0 → e.endTime < t0 := by
  intro e he f hf hef hft
  by_contra hge
  have hmeets : Meets t0 t1 e := ⟨by omega, not_lt.mp hge⟩
  obtain ⟨item, hanswered, hp⟩ := mem_answer build hr (hin e he hmeets)
  have hm : item ∈ first :: after := by
    cases hanswered with
    | inl hfirst => simp [hfirst]
    | inr hselected => exact List.mem_of_mem_filter hselected
  have hitem : item ∈ self.mDeque := by rw [hsplit]; exact List.mem_append_right _ hm
  obtain rfl := Timed.eq_of_packet (h.timed item hitem) (h.timed e he) hp
  have hfirst : item = first := by
    cases List.mem_cons.mp hm with
    | inl he => exact he
    | inr hm =>
      have := ho.after_ge item hm
      omega
  subst hfirst
  have hback := ho.start.resolve_left (fun hstay => by omega)
  rw [hsplit] at hf
  have hordered := h.wellFormed.ordered
  rw [hsplit] at hordered
  cases List.mem_append.mp hf with
  | inl hf =>
    have := ((List.pairwise_append.mp hordered).2.2 f hf item (by simp)).le
    omega
  | inr hf =>
    cases List.mem_cons.mp hf with
    | inl hfe => rw [hfe] at hef; omega
    | inr hf =>
      have := hback.2.2 f hf
      omega

theorem complete_of_opening (h : Reached maximum self) (ht : t0 ≤ t1)
    (hnew : ∃ item ∈ self.mDeque, t0 ≤ item.startTime) :
    (∃ r, self.getPackets build (t0, t1) = .ok r ∧
      ∀ item ∈ self.mDeque, Meets t0 t1 item → item.packet ∈ r) ↔
      Served build t0 t1 self.mDeque := by
  obtain ⟨before, first, after, hsplit, ho, heq⟩ :=
    getPackets_eq build h.wellFormed.sorted ht hnew
  have hw := h.wellFormed
  have htimed := h.timed
  rw [hsplit] at hw htimed
  have hright : (first :: after).Sublist (before ++ first :: after) :=
    List.sublist_append_right _ _
  have hanswer := answer_complete build t1 (hw.sublist hright)
    (fun item hm => htimed item (hright.mem hm)) (opening_endTime_ge hw ho)
  have hfilter : (∀ e ∈ self.mDeque, ∀ f ∈ self.mDeque,
      e.startTime < f.startTime → f.startTime ≤ t0 → e.endTime < t0) →
      self.mDeque.filter (Meets t0 t1) = selected t1 first after := by
    intro hreach
    rw [hsplit] at hreach ⊢
    exact filter_meets t1 hw ho (before_endTime_lt hw ho hreach)
  rw [heq]
  constructor
  · rintro ⟨r, hr, hin⟩
    have hreach := reach_of_complete h ht hsplit ho hr hin
    refine ⟨Or.inl hnew, hreach, ?_⟩
    rw [hfilter hreach]
    refine hanswer.mp ⟨r, hr, fun item hm => ?_⟩
    rw [← hfilter hreach, List.mem_filter] at hm
    exact hin item hm.1 (by simpa using hm.2)
  · intro hserved
    have hcovered := hserved.covered
    rw [hfilter hserved.reach] at hcovered
    obtain ⟨r, hr, hin⟩ := hanswer.mpr hcovered
    refine ⟨r, hr, fun item hm hmeets => hin item ?_⟩
    rw [← hfilter hserved.reach, List.mem_filter]
    exact ⟨hm, by simpa using hmeets⟩

theorem complete_of_newest (ht : t0 ≤ t1) (hlt : ∀ item ∈ self.mDeque, item.startTime < t0) :
    (∃ r, self.getPackets build (t0, t1) = .ok r ∧
      ∀ item ∈ self.mDeque, Meets t0 t1 item → item.packet ∈ r) ↔
      Served build t0 t1 self.mDeque := by
  rw [getPackets_newest build hlt]
  constructor
  · rintro ⟨r, hr, hin⟩
    obtain rfl := Except.ok.inj hr
    have hnone : ∀ item ∈ self.mDeque, ¬ Meets t0 t1 item :=
      fun item hm hmeets => by simpa using hin item hm hmeets
    have hcovered : self.mDeque.filter (Meets t0 t1) = [] :=
      List.filter_eq_nil_iff.mpr (by simpa using hnone)
    refine ⟨Or.inr hnone, fun e he f hf hef hft => ?_, by rw [hcovered]; exact List.Pairwise.nil⟩
    exact not_le.mp (fun hge => hnone e he ⟨by omega, hge⟩)
  · intro hserved
    refine ⟨[], rfl, fun item hm hmeets => ?_⟩
    cases hserved.newest with
    | inl hnew =>
      obtain ⟨item, hm, hge⟩ := hnew
      exact absurd (hlt item hm) (not_lt.mpr hge)
    | inr hnone => exact absurd hmeets (hnone item hm)

theorem getPackets_complete (h : Reached maximum self) (ht : t0 ≤ t1) :
    (∃ r, self.getPackets build (t0, t1) = .ok r ∧
      ∀ item ∈ self.mDeque, Meets t0 t1 item → item.packet ∈ r) ↔
      Served build t0 t1 self.mDeque := by
  by_cases hnew : ∃ item ∈ self.mDeque, t0 ≤ item.startTime
  · exact complete_of_opening h ht hnew
  · exact complete_of_newest ht (fun item hm => not_le.mp (fun hle => hnew ⟨item, hm, hle⟩))

/-- After any run, a query returns every stored packet that meets its window exactly for
the windows and buffers described by `Served`. -/
theorem getPackets_complete_iff_served (build : Build) (options : StreamDequeOptions)
    (calls : List Call) (hcalls : ∀ packet, .addPacket packet ∈ calls → EndsAfterStart packet)
    (t0 t1 : Int) (ht : t0 ≤ t1) :
    (∃ r, (run build (StreamDequeImpl.construct options) calls).getPackets build (t0, t1) = .ok r ∧
      ∀ item ∈ (run build (StreamDequeImpl.construct options) calls).mDeque,
        Meets t0 t1 item → item.packet ∈ r) ↔
      Served build t0 t1 (run build (StreamDequeImpl.construct options) calls).mDeque := by
  have h := (Reached.construct options).run build options.positive calls hcalls
  exact getPackets_complete h ht

theorem getPackets_complete_iff_served_two_packets :
    (∃ r, (run .debug (StreamDequeImpl.construct {})
        [.addPacket (oneHertz 10 5), .addPacket (oneHertz 0 5)]).getPackets .debug (2, 3) = .ok r ∧
      ∀ item ∈ (run .debug (StreamDequeImpl.construct {})
        [.addPacket (oneHertz 10 5), .addPacket (oneHertz 0 5)]).mDeque,
        Meets 2 3 item → item.packet ∈ r) ↔
      Served .debug 2 3 (run .debug (StreamDequeImpl.construct {})
        [.addPacket (oneHertz 10 5), .addPacket (oneHertz 0 5)]).mDeque := by
  exact getPackets_complete_iff_served .debug {} _ oneHertz_endsAfterStart 2 3 (by decide)

theorem getPackets_inside_newest :
    EndsAfterStart (oneHertz 0 5) ∧ (1000000000 : Int) ≤ 2000000000 ∧
      ¬ ∃ r, (run .release (StreamDequeImpl.construct {})
          [.addPacket (oneHertz 0 5)]).getPackets .release (1000000000, 2000000000) = .ok r ∧
        ∀ item ∈ (run .release (StreamDequeImpl.construct {}) [.addPacket (oneHertz 0 5)]).mDeque,
          Meets 1000000000 2000000000 item → item.packet ∈ r := by
  refine ⟨by decide +kernel, by decide, ?_⟩
  rintro ⟨r, hr, hin⟩
  have hempty : (run .release (StreamDequeImpl.construct {})
      [.addPacket (oneHertz 0 5)]).getPackets .release (1000000000, 2000000000) = .ok [] := by
    decide +kernel
  rw [hempty] at hr
  obtain rfl := Except.ok.inj hr
  simpa using hin ⟨oneHertz 0 5, 0, 4000000000⟩ (by decide +kernel) (by decide)

end PacketCache.Completeness
