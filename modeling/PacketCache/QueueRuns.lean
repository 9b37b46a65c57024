import PacketCache.ImportQueue

namespace PacketCache.QueueRuns

open PacketCache.BoundedQueue PacketCache.ImportQueue PacketCache.Messages

variable {Q : Type} {operations : Operations Q ServiceApi.Packet} {maximum : Nat}
variable {contents : Q → List ServiceApi.Packet} {s s' : State Q} {self : AddPacket}

/-- What a call may have done when it reaches a stage. Once it has seen room in the queue,
there is room until it pushes, since only the consumer can come in between. -/
inductive Course (room : Prop) : Stage → List Action → Prop
  | entered : Course room .check []
  | full : Course room .loop [.observed true]
  | stillFull : Course room .pop [.observed true, .observed true]
  | evicted (work : ServiceApi.Packet) (h : room) :
      Course room .loop [.observed true, .observed true, .discarded work]
  | free (h : room) : Course room .push [.observed false]
  | freed (h : room) : Course room .push [.observed true, .observed false]
  | drained (h : room) : Course room .push [.observed true, .observed true, .foundEmpty]
  | replaced (work : ServiceApi.Packet) (h : room) :
      Course room .push [.observed true, .observed true, .discarded work, .observed false]

theorem Course.imp {room room' : Prop} {stage : Stage} {log : List Action}
    (h : Course room stage log) (hr : room → room') : Course room' stage log := by
  cases h with
  | entered => exact .entered
  | full => exact .full
  | stillFull => exact .stillFull
  | evicted work h => exact .evicted work (hr h)
  | free h => exact .free (hr h)
  | freed h => exact .freed (hr h)
  | drained h => exact .drained (hr h)
  | replaced work h => exact .replaced work (hr h)

theorem Course.length_le {room : Prop} {stage : Stage} {log : List Action}
    (h : Course room stage log) : log.length ≤ 4 := by
  cases h <;> simp

theorem Course.room {room : Prop} {log : List Action} (h : Course room .push log) : room := by
  cases h <;> assumption

def Ended (self : AddPacket) : Prop :=
  ∃ log, Course True .push log ∧ self.log = log ++ [.pushed]

def uncounted : ProcessPackets → Nat
  | .popped _ => 1
  | .poll | .received _ => 0

structure Invariant (contents : Q → List ServiceApi.Packet) (maximum : Nat) (s : State Q) :
    Prop where
  bounded : (contents s.mImportQueue).length ≤ maximum
  course : ∀ self, s.addPacket = some self →
    Course ((contents s.mImportQueue).length < maximum) self.stage self.log
  ended : ∀ self ∈ s.history.finished, Ended self
  handed : s.history.handed =
    s.history.finished.map AddPacket.packet ++ s.addPacket.toList.map AddPacket.packet
  enqueued : s.history.enqueued = s.history.finished.map AddPacket.packet
  traced : Traced contents s.history.enqueued s.history.removed s.mImportQueue
  obtained : s.history.obtained.Sublist s.history.removed
  removed : s.history.removed.length = s.history.obtained.length + s.history.discarded.length
  received : s.history.obtained.length = s.packetsReceivedCounter + uncounted s.processPackets
  overflow : s.importOverflowPacketCounter = 0

theorem Invariant.goOn (h : Invariant contents maximum s) (hs : s.addPacket = some self)
    {stage : Stage} {action : Action}
    (hc : Course ((contents s.mImportQueue).length < maximum) stage (self.log ++ [action])) :
    Invariant contents maximum (s.goOn self stage action) := by
  refine ⟨h.bounded, ?_, h.ended, ?_, h.enqueued, h.traced, h.obtained, h.removed, h.received,
    h.overflow⟩
  · intro next hn
    obtain rfl := Option.some.inj hn
    exact hc
  · have hh := h.handed
    rw [hs] at hh
    exact hh

theorem Invariant.discard (h : Invariant contents maximum s)
    (hf : Fifo operations maximum contents) {work : ServiceApi.Packet} {queue : Q}
    (ht : operations.tryPop s.mImportQueue = some (work, queue)) :
    Invariant contents maximum (s.discard work queue) ∧ (contents queue).length < maximum := by
  have hq := hf.tryPop_some _ _ _ ht
  have hb := h.bounded
  rw [hq, List.length_cons] at hb
  refine ⟨⟨by simpa [State.discard] using by omega, ?_, h.ended, h.handed, h.enqueued,
    h.traced.tryPop hf ht, h.obtained.trans (List.sublist_append_left _ _), ?_, h.received,
    h.overflow⟩, by omega⟩
  · intro self hs
    exact (h.course self hs).imp (fun _ => by simpa [State.discard] using by omega)
  · have hr := h.removed
    simp only [State.discard, List.length_append, List.length_cons, List.length_nil]
    omega

theorem Invariant.obtain (h : Invariant contents maximum s)
    (hf : Fifo operations maximum contents) (hp : uncounted s.processPackets = 0)
    {packet : ServiceApi.Packet} {queue : Q}
    (ht : operations.tryPop s.mImportQueue = some (packet, queue)) :
    Invariant contents maximum (s.obtain packet queue) := by
  have hq := hf.tryPop_some _ _ _ ht
  have hb := h.bounded
  rw [hq, List.length_cons] at hb
  refine ⟨by simpa [State.obtain] using by omega, ?_, h.ended, h.handed, h.enqueued,
    h.traced.tryPop hf ht, h.obtained.append (List.Sublist.refl _), ?_, ?_, h.overflow⟩
  · intro self hs
    exact (h.course self hs).imp (fun _ => by simpa [State.obtain] using by omega)
  · have hr := h.removed
    simp only [State.obtain, List.length_append, List.length_cons, List.length_nil]
    omega
  · have hr := h.received
    simp only [State.obtain, List.length_append, List.length_cons, List.length_nil, uncounted]
    omega

theorem Invariant.enqueue (h : Invariant contents maximum s)
    (hf : Fifo operations maximum contents) (hs : s.addPacket = some self) {queue : Q}
    (hc : Course ((contents s.mImportQueue).length < maximum) .push self.log)
    (ht : operations.tryPush self.packet s.mImportQueue = some queue) :
    Invariant contents maximum ((s.enqueue self.packet queue).finish self .pushed) := by
  have hq := hf.tryPush_some _ _ _ ht
  have hroom := hc.room
  have hhanded := h.handed
  rw [hs] at hhanded
  refine ⟨?_, ?_, ?_, ?_, ?_, h.traced.tryPush hf ht, h.obtained, h.removed, h.received,
    h.overflow⟩
  · simpa [State.enqueue, State.finish, hq] using Nat.succ_le_of_lt hroom
  · intro call hn
    simp [State.finish] at hn
  · intro call hm
    cases List.mem_append.mp hm with
    | inl hm => exact h.ended call hm
    | inr hm =>
      obtain rfl := List.mem_singleton.mp hm
      exact ⟨self.log, hc.imp (fun _ => trivial), rfl⟩
  · simpa [State.enqueue, State.finish, AddPacket.next] using hhanded
  · simpa [State.enqueue, State.finish, AddPacket.next] using h.enqueued

theorem Invariant.stepAddPacket (h : Invariant contents maximum s)
    (hf : Fifo operations maximum contents) (hmax : 1 ≤ maximum) (hs : s.addPacket = some self) :
    Invariant contents maximum (stepAddPacket operations maximum s self) := by
  obtain ⟨packet, stage, log⟩ := self
  have hc := h.course _ hs
  have hsize := hf.size s.mImportQueue
  simp only at hc
  cases hc with
  | entered =>
    by_cases hfull : maximum ≤ operations.size s.mImportQueue
    · simpa [ImportQueue.stepAddPacket, hfull] using h.goOn hs .full
    · simpa [ImportQueue.stepAddPacket, hfull] using h.goOn hs (.free (by omega))
  | full =>
    by_cases hfull : maximum ≤ operations.size s.mImportQueue
    · simpa [ImportQueue.stepAddPacket, hfull] using h.goOn hs .stillFull
    · simpa [ImportQueue.stepAddPacket, hfull] using h.goOn hs (.freed (by omega))
  | evicted work hroom =>
    have hfull : ¬ maximum ≤ operations.size s.mImportQueue := by omega
    simpa [ImportQueue.stepAddPacket, hfull] using h.goOn hs (.replaced work hroom)
  | stillFull =>
    cases ht : operations.tryPop s.mImportQueue with
    | none =>
      have hempty := hf.tryPop_none _ ht
      simpa [ImportQueue.stepAddPacket, ht] using h.goOn hs (.drained (by simpa [hempty]))
    | some popped =>
      obtain ⟨work, queue⟩ := popped
      obtain ⟨hd, hroom⟩ := h.discard hf ht
      have hs' : (s.discard work queue).addPacket =
          some ⟨packet, .pop, [.observed true, .observed true]⟩ := hs
      simpa [ImportQueue.stepAddPacket, ht] using hd.goOn hs' (.evicted work hroom)
  | free _ | freed _ | drained _ | replaced _ _ =>
    have hpush := h.course _ hs
    cases ht : operations.tryPush packet s.mImportQueue with
    | none =>
      -- only a full queue refuses a packet
      have hle := hf.tryPush_none _ _ ht
      exact absurd hle (not_le.mpr hpush.room)
    | some queue =>
      simpa [ImportQueue.stepAddPacket, ht] using h.enqueue hf hs hpush ht

theorem Invariant.stepProcessPackets (h : Invariant contents maximum s)
    (hf : Fifo operations maximum contents) :
    Invariant contents maximum (stepProcessPackets operations s) := by
  cases hp : s.processPackets with
  | poll =>
    cases ht : operations.tryPop s.mImportQueue with
    | none => simpa [ImportQueue.stepProcessPackets, hp, ht] using h
    | some popped =>
      obtain ⟨packet, queue⟩ := popped
      simpa [ImportQueue.stepProcessPackets, hp, ht] using h.obtain hf (by simp [hp, uncounted]) ht
  | popped packet | received packet =>
    have hr := h.received
    rw [hp] at hr
    simp only [ImportQueue.stepProcessPackets, hp]
    exact ⟨h.bounded, h.course, h.ended, h.handed, h.enqueued, h.traced, h.obtained, h.removed,
      hr, h.overflow⟩

theorem Invariant.enter (h : Invariant contents maximum s) (hs : s.addPacket = none)
    (packet : ServiceApi.Packet) : Invariant contents maximum (s.enter packet) := by
  refine ⟨h.bounded, ?_, h.ended, ?_, h.enqueued, h.traced, h.obtained, h.removed, h.received,
    h.overflow⟩
  · intro self hn
    obtain rfl := Option.some.inj hn
    exact .entered
  · have hh := h.handed
    rw [hs] at hh
    simpa [State.enter] using hh

theorem Invariant.step (h : Invariant contents maximum s)
    (hf : Fifo operations maximum contents) (hmax : 1 ≤ maximum) {event : Event}
    (hstep : step operations maximum s event = some s') : Invariant contents maximum s' := by
  cases event with
  | call packet =>
    obtain ⟨hs, rfl⟩ := step_call.mp hstep
    exact h.enter hs packet
  | producer =>
    obtain ⟨self, hs, rfl⟩ := step_producer.mp hstep
    exact h.stepAddPacket hf hmax hs
  | consumer =>
    obtain rfl := step_consumer.mp hstep
    exact h.stepProcessPackets hf

theorem Invariant.start {queue : Q} (hq : contents queue = []) :
    Invariant contents maximum { mImportQueue := queue } :=
  ⟨by simp [hq], by simp, by simp, rfl, rfl, by simp [Traced, hq], List.Sublist.refl _, rfl, rfl,
    rfl⟩

theorem Invariant.run (h : Invariant contents maximum s) (hf : Fifo operations maximum contents)
    (hmax : 1 ≤ maximum) {events : List Event} (hrun : run operations maximum s events = some s') :
    Invariant contents maximum s' := by
  induction events generalizing s with
  | nil => exact Option.some.inj hrun ▸ h
  | cons event events ih =>
    obtain ⟨mid, hmid, hrest⟩ := run_cons.mp hrun
    exact ih (h.step hf hmax hmid) hrest

def overfull (first second : ServiceApi.Packet) : List Event :=
  [.call first, .producer, .producer, .call second, .producer, .producer, .producer, .producer,
    .producer]

end PacketCache.QueueRuns
