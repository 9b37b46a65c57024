import PacketCache.QueueRuns

namespace PacketCache.QueueOverflow

open PacketCache.BoundedQueue PacketCache.ImportQueue PacketCache.Messages PacketCache.QueueRuns

variable {Q : Type} {operations : Operations Q ServiceApi.Packet} {maximum : Nat}
variable {contents : Q → List ServiceApi.Packet} {s s' : State Q} {self : AddPacket}

structure Conserved (contents : Q → List ServiceApi.Packet) (s : State Q) : Prop where
  total : s.history.handed.length = s.packetsReceivedCounter +
    (contents s.mImportQueue).length + s.importOverflowPacketCounter
  overflow : s.importOverflowPacketCounter = s.history.discarded.length

/-- The next step of the producer is a `try_pop` of the loop that finds a packet. -/
def Evicts (operations : Operations Q ServiceApi.Packet) (s : State Q) (event : Event) : Prop :=
  event = .producer ∧ ∃ self, s.addPacket = some self ∧ self.stage = .pop ∧
    (operations.tryPop s.mImportQueue).isSome

def Unevicted (operations : Operations Q ServiceApi.Packet) (maximum : Nat) (s : State Q)
    (events : List Event) : Prop :=
  ∀ before event after, events = before ++ event :: after →
    ∀ mid, run operations maximum s before = some mid → ¬ Evicts operations mid event

theorem discarded_of_evicts {event : Event} (hstep : step operations maximum s event = some s')
    (he : Evicts operations s event) :
    s'.history.discarded.length = s.history.discarded.length + 1 := by
  obtain ⟨_, work, _, _, _, _, _, rfl⟩ | ⟨_, hnone⟩ := step_cases hstep
  · exact List.length_append
  · obtain ⟨hevent, self, hs, hstage, hsome⟩ := he
    rw [hnone self hevent hs hstage] at hsome
    cases hsome

theorem discarded_of_not_evicts {event : Event} (hstep : step operations maximum s event = some s')
    (he : ¬ Evicts operations s event) : s'.history.discarded = s.history.discarded := by
  obtain ⟨self, work, queue, hevent, hs, hstage, ht, _⟩ | ⟨hd, _⟩ := step_cases hstep
  · exact absurd ⟨hevent, self, hs, hstage, by simp [ht]⟩ he
  · exact hd

theorem unevicted_cons {event : Event} {events : List Event} :
    Unevicted operations maximum s (event :: events) ↔ ¬ Evicts operations s event ∧
      ∀ mid, step operations maximum s event = some mid →
        Unevicted operations maximum mid events := by
  constructor
  · intro h
    refine ⟨h [] event events rfl s rfl, ?_⟩
    intro mid hmid before e after he last hlast
    exact h (event :: before) e after (by rw [he]; rfl) last (run_cons.mpr ⟨mid, hmid, hlast⟩)
  · rintro ⟨hevent, hrest⟩ before e after he last hlast
    cases before with
    | nil =>
      obtain ⟨rfl, rfl⟩ := List.cons.inj he
      obtain rfl := Option.some.inj hlast
      exact hevent
    | cons first before =>
      obtain ⟨rfl, rfl⟩ := List.cons.inj he
      obtain ⟨mid, hmid, hlast⟩ := run_cons.mp hlast
      exact hrest mid hmid before e after rfl last hlast

theorem unevicted_iff_discarded {events : List Event}
    (hrun : run operations maximum s events = some s') :
    s.history.discarded.length ≤ s'.history.discarded.length ∧
      (s'.history.discarded.length = s.history.discarded.length ↔
        Unevicted operations maximum s events) := by
  induction events generalizing s with
  | nil =>
    obtain rfl := Option.some.inj hrun
    exact ⟨le_rfl, iff_of_true rfl (by simp [Unevicted])⟩
  | cons event events ih =>
    obtain ⟨mid, hmid, hrest⟩ := run_cons.mp hrun
    obtain ⟨hle, hiff⟩ := ih hrest
    have hsame : (∀ mid, step operations maximum s event = some mid →
        Unevicted operations maximum mid events) ↔ Unevicted operations maximum mid events := by
      simp [hmid]
    rw [unevicted_cons, hsame, ← hiff]
    by_cases he : Evicts operations s event
    · have hd := discarded_of_evicts hmid he
      exact ⟨by omega, iff_of_false (by omega) (fun h => h.1 he)⟩
    · rw [discarded_of_not_evicts hmid he] at hle ⊢
      exact ⟨hle, by simp [he]⟩

theorem conserved_iff (h : Invariant contents maximum s) (hidle : s.addPacket = none) :
    Conserved contents s ↔ s.history.discarded.length = 0 ∧ uncounted s.processPackets = 0 := by
  have hhanded : s.history.handed = s.history.enqueued := by simp [h.handed, h.enqueued, hidle]
  have htraced : s.history.enqueued.length =
      s.history.removed.length + (contents s.mImportQueue).length := by
    rw [h.traced, List.length_append]
  have hremoved := h.removed
  have hreceived := h.received
  have hoverflow := h.overflow
  constructor
  · intro hc
    have htotal := hc.total
    have hdropped := hc.overflow
    rw [hhanded] at htotal
    omega
  · rintro ⟨hd, hu⟩
    refine ⟨?_, by omega⟩
    rw [hhanded]
    omega

/-- Between two calls the counters account for every packet exactly when the loop of no call
has dropped one and `processPackets` does not stand between its `try_pop` and its counter. -/
theorem conserved_iff_unevicted (hf : Fifo operations maximum contents) (hmax : 1 ≤ maximum)
    {queue : Q} (hq : contents queue = []) {events : List Event}
    (hrun : run operations maximum { mImportQueue := queue } events = some s)
    (hidle : s.addPacket = none) :
    Conserved contents s ↔
      Unevicted operations maximum { mImportQueue := queue } events ∧
        ∀ packet, s.processPackets ≠ .popped packet := by
  have hstart : Invariant contents maximum { mImportQueue := queue } := Invariant.start hq
  have h := hstart.run hf hmax hrun
  obtain ⟨_, hiff⟩ := unevicted_iff_discarded hrun
  have hpopped : uncounted s.processPackets = 0 ↔
      ∀ packet, s.processPackets ≠ .popped packet := by
    cases s.processPackets <;> simp [uncounted]
  rw [conserved_iff h hidle, hpopped]
  exact and_congr_left (fun _ => hiff)

theorem conserved_iff_unevicted_overfull :
    ∃ s, run (bounded _ 1) 1 { mImportQueue := [] }
        (overfull {} { numberOfSamples := some 5 }) = some s ∧
      (Conserved id s ↔
        Unevicted (bounded _ 1) 1 { mImportQueue := [] }
            (overfull {} { numberOfSamples := some 5 }) ∧
          ∀ packet, s.processPackets ≠ .popped packet) :=
  ⟨_, rfl, conserved_iff_unevicted (bounded_fifo _ 1) (by decide) rfl rfl rfl⟩

/-- Two packets are handed over at capacity one. One is in the queue, none is counted. -/
theorem overfull_not_conserved :
    Fifo (bounded ServiceApi.Packet 1) 1 id ∧ ∃ s, run (bounded _ 1) 1 { mImportQueue := [] }
        (overfull {} { numberOfSamples := some 5 }) = some s ∧
      s.addPacket = none ∧ s.processPackets = .poll ∧ ¬ Conserved id s :=
  ⟨bounded_fifo _ 1, _, rfl, rfl, rfl, fun h => absurd h.total (by decide)⟩

end PacketCache.QueueOverflow
