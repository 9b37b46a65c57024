import PacketCache.Completeness
import PacketCache.Iterators

namespace PacketCache.EarlyExit

open PacketCache.Completeness PacketCache.DequeRuns PacketCache.Insertion PacketCache.Iterators
open PacketCache.Messages PacketCache.Platform PacketCache.Query PacketCache.SortedWindow
open PacketCache.StreamDeque

variable {build : Build} {maximum : Nat} {self : StreamDequeImpl} {t0 t1 : Int}
variable {before after : List PacketTime} {first : PacketTime}

def Entered (t0 t1 : Int) (self : StreamDequeImpl) : Prop :=
  t0 ≠ t1 ∧ ∃ it0 ∈ firstPosition self.mDeque t0, it0 ≠ searchEnd self.mDeque t1

structure CopiesAll (t0 t1 : Int) (deque : StreamDequeImpl) : Prop where
  loop : ∀ it0 ∈ firstPosition deque.mDeque t0,
    copyLoop t1 (range deque.mDeque t1 it0) = (range deque.mDeque t1 it0).map PacketTime.packet
  assertion : deque.getPackets .debug (t0, t1) ≠ .error .assertionFailed
  builds : deque.getPackets .debug (t0, t1) = deque.getPackets .release (t0, t1)

/-- The packet starts in the window or later, or it reaches the window and no other packet
starts between it and the window's first instant. -/
def FromFirst (t0 : Int) (mDeque : List PacketTime) (item : PacketTime) : Prop :=
  t0 ≤ item.startTime ∨ (item.startTime < t0 ∧ t0 ≤ item.endTime ∧
    ∀ other ∈ mDeque, item.startTime < other.startTime → t0 < other.startTime)

def EndsFirst (t0 t1 : Int) (mDeque : List PacketTime) : Prop :=
  mDeque.Pairwise (fun e f => FromFirst t0 mDeque e → f.startTime ≤ t1 → e.endTime < t1)

theorem fromFirst_of_mem (hw : WellFormed maximum (before ++ first :: after))
    (ho : Opening t0 before first after) {item : PacketTime} (hm : item ∈ first :: after) :
    FromFirst t0 (before ++ first :: after) item := by
  cases List.mem_cons.mp hm with
  | inr ha => exact Or.inl (ho.after_ge item ha)
  | inl he =>
    rw [he]
    cases ho.start with
    | inl hstay => exact Or.inl hstay.1
    | inr hback =>
      refine Or.inr ⟨hback.1, hback.2.1, fun other hother hlt => ?_⟩
      cases List.mem_append.mp hother with
      | inl hb =>
        have hle := ((List.pairwise_append.mp hw.ordered).2.2 other hb first (by simp)).le
        omega
      | inr hr =>
        cases List.mem_cons.mp hr with
        | inl he => exact absurd hlt (by rw [he]; omega)
        | inr ha => exact hback.2.2 other ha

theorem not_fromFirst_of_mem (hw : WellFormed maximum (before ++ first :: after))
    (ho : Opening t0 before first after) {item : PacketTime} (hm : item ∈ before) :
    ¬ FromFirst t0 (before ++ first :: after) item := by
  have hlt := ho.before_lt item hm
  rintro (hge | ⟨_, hend, hother⟩)
  · omega
  · have hold := endTime_lt_of_mem_before hw ho hm (fun f hf hlt hle => by
      have := hother f hf hlt
      omega)
    omega

theorem endsFirst_iff (hw : WellFormed maximum (before ++ first :: after))
    (ho : Opening t0 before first after) :
    EndsFirst t0 t1 (before ++ first :: after) ↔
      (selected t1 first after).Pairwise (fun e _ => e.endTime < t1) := by
  have hsorted : Sorted PacketTime.startTime (first :: after) :=
    (List.pairwise_append.mp hw.sorted).2.1
  rw [selected, List.pairwise_filter, EndsFirst, List.pairwise_append]
  constructor
  · rintro ⟨_, hright, _⟩
    apply hright.imp_of_mem
    intro e f he _ hef _ hf
    exact hef (fromFirst_of_mem hw ho he) (by simpa using hf)
  · intro hright
    refine ⟨?_, ?_, ?_⟩
    · exact List.pairwise_of_forall_mem_list
        (fun e he _ _ hfrom => absurd hfrom (not_fromFirst_of_mem hw ho he))
    · apply (hright.and hsorted).imp
      rintro e f ⟨hef, hle⟩ _ hf
      exact hef (by simpa using hle.trans hf) (by simpa using hf)
    · exact fun e he _ _ hfrom => absurd hfrom (not_fromFirst_of_mem hw ho he)

theorem copyLoop_length_eq_iff (t1 : Int) (l : List PacketTime) :
    (copyLoop t1 l).length = l.length ↔ copyLoop t1 l = l.map PacketTime.packet := by
  constructor
  · intro hl
    exact (copyLoop_isPrefixOf t1 l).eq_of_length (by rw [hl, List.length_map])
  · intro he
    rw [he, List.length_map]

theorem copiesAll_iff (hs : Sorted PacketTime.startTime self.mDeque) (ht : t0 ≤ t1)
    (hentered : Entered t0 t1 self) {it0 : Nat} (hit : it0 ∈ firstPosition self.mDeque t0) :
    CopiesAll t0 t1 self ↔
      copyLoop t1 (range self.mDeque t1 it0) =
        (range self.mDeque t1 it0).map PacketTime.packet := by
  constructor
  · exact fun h => h.loop it0 hit
  · intro hall
    obtain ⟨hne, it0', hit', hmany⟩ := hentered
    obtain rfl := Option.some.inj (hit.symm.trans hit')
    have hlength := (copyLoop_length_eq_iff t1 _).mpr hall
    have hanswer : ∀ build, self.getPackets build (t0, t1) =
        .ok (copyLoop t1 (range self.mDeque t1 it0)) := by
      intro build
      rw [getPackets_range hs ht hit, if_neg (by simp [hne, hmany]), if_neg (by simp [hlength])]
    refine ⟨?_, by simp [hanswer], by rw [hanswer, hanswer]⟩
    intro it hit''
    obtain rfl := Option.some.inj (hit.symm.trans hit'')
    exact hall

/-- After any run, for a query that gets as far as its copy loop, the early exit leaves
nothing behind exactly when each packet of the answer ends before the window unless it is
the last one. -/
theorem earlyExit_copies_all_iff (build : Build) (options : StreamDequeOptions)
    (calls : List Call) (hcalls : ∀ packet, .addPacket packet ∈ calls → EndsAfterStart packet)
    (t0 t1 : Int) (ht : t0 ≤ t1)
    (hentered : Entered t0 t1 (run build (StreamDequeImpl.construct options) calls)) :
    CopiesAll t0 t1 (run build (StreamDequeImpl.construct options) calls) ↔
      EndsFirst t0 t1 (run build (StreamDequeImpl.construct options) calls).mDeque := by
  have h := (Reached.construct options).run build options.positive calls hcalls
  obtain ⟨it0, hit, _⟩ := hentered.2
  obtain ⟨before, first, after, hsplit, ho, _, _, hrange⟩ :=
    exists_range h.wellFormed.sorted ht hit
  have hw := h.wellFormed
  rw [copiesAll_iff h.wellFormed.sorted ht hentered hit, hrange, copyLoop_eq_map]
  rw [hsplit] at hw ⊢
  exact (endsFirst_iff hw ho).symm

theorem earlyExit_copies_all_iff_two_packets :
    CopiesAll 1000000000 12000000000 (run .debug (StreamDequeImpl.construct {})
        [.addPacket (oneHertz 0 5), .addPacket (oneHertz 10 5)]) ↔
      EndsFirst 1000000000 12000000000 (run .debug (StreamDequeImpl.construct {})
        [.addPacket (oneHertz 0 5), .addPacket (oneHertz 10 5)]).mDeque := by
  have hearly : EndsAfterStart (oneHertz 0 5) := by decide +kernel
  have hlate : EndsAfterStart (oneHertz 10 5) := by decide +kernel
  apply earlyExit_copies_all_iff .debug {} _ (by simp [hearly, hlate]) _ _ (by decide)
  exact ⟨by decide, 0, by decide +kernel, by decide +kernel⟩

/-- The second packet lies inside the first. A query that ends inside both leaves the
second one behind, and a debug build aborts. -/
theorem earlyExit_inside_first :
    EndsAfterStart (oneHertz 0 11) ∧ EndsAfterStart (oneHertz 5 3) ∧
      Entered 3000000000 6000000000 (run .debug (StreamDequeImpl.construct {})
        [.addPacket (oneHertz 0 11), .addPacket (oneHertz 5 3)]) ∧
      (run .debug (StreamDequeImpl.construct {})
        [.addPacket (oneHertz 0 11), .addPacket (oneHertz 5 3)]).getPackets .debug
          (3000000000, 6000000000) = .error .assertionFailed ∧
      (run .debug (StreamDequeImpl.construct {})
        [.addPacket (oneHertz 0 11), .addPacket (oneHertz 5 3)]).getPackets .release
          (3000000000, 6000000000) = .ok [oneHertz 0 11] ∧
      ¬ CopiesAll 3000000000 6000000000 (run .debug (StreamDequeImpl.construct {})
        [.addPacket (oneHertz 0 11), .addPacket (oneHertz 5 3)]) := by
  have hfault : (run .debug (StreamDequeImpl.construct {})
      [.addPacket (oneHertz 0 11), .addPacket (oneHertz 5 3)]).getPackets .debug
        (3000000000, 6000000000) = .error .assertionFailed := by decide +kernel
  refine ⟨by decide +kernel, by decide +kernel, ?_, hfault, by decide +kernel,
    fun h => h.assertion hfault⟩
  exact ⟨by decide, 0, by decide +kernel, by decide +kernel⟩

end PacketCache.EarlyExit
