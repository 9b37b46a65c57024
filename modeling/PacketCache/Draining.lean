import PacketCache.Ledger
import PacketCache.Provenance

namespace PacketCache.Draining

open PacketCache.BoundedQueue PacketCache.Importing PacketCache.Ledger PacketCache.MapRuns
open PacketCache.Messages PacketCache.Packets PacketCache.Platform PacketCache.Process
open PacketCache.Provenance PacketCache.Reactors PacketCache.StreamDeque
open PacketCache.StreamDequeMap PacketCache.Times
open PacketCache.ImportQueue (ProcessPackets stepProcessPackets)

variable {packet : ServiceApi.Packet} {e : Fault}

theorem convertPacket_error (h : convertPacket packet = .error e) : e.isException = true := by
  rw [convertPacket] at h
  cases hrate : packet.samplingRate with
  | none => simp only [hrate, Except.error.injEq] at h; rw [← h]; rfl
  | some samplingRate =>
    simp only [hrate] at h
    split_ifs at h
    · rw [← Except.error.inj h]; rfl
    cases hstart : packet.startTime with
    | none => simp only [hstart, Except.error.injEq] at h; rw [← h]; rfl
    | some startTime =>
      cases hn : packet.numberOfSamples with
      | none => simp only [hstart, hn, Except.error.injEq] at h; rw [← h]; rfl
      | some nSamples =>
        cases htype : packet.dataType.getD .unknown <;>
          simp only [hstart, hn, htype, convertDataType, reduceCtorEq, Except.error.injEq] at h <;>
            rw [← h] <;> rfl

theorem getEndTimeNanoSeconds_error {converted : CacheApi.Packet}
    (h : getEndTimeNanoSeconds converted = .error e) : e.isException = true := by
  simp only [getEndTimeNanoSeconds] at h
  split_ifs at h
  · rw [← Except.error.inj h]; rfl
  · rw [← Except.error.inj h]; rfl

theorem entry_error (h : entry packet = .error e) : e.isException = true := by
  rw [entry] at h
  split_ifs at h
  · rw [← Except.error.inj h]; rfl
  · rw [← Except.error.inj h]; rfl
  · rw [← Except.error.inj h]; rfl
  · rw [← Except.error.inj h]; rfl
  · cases hc : convertPacket packet with
    | error _ =>
      simp only [hc, Except.error.injEq] at h
      exact h ▸ convertPacket_error hc
    | ok converted =>
      cases hend : getEndTimeNanoSeconds converted with
      | error _ =>
        simp only [hc, hend, Except.error.injEq] at h
        exact h ▸ getEndTimeNanoSeconds_error hend
      | ok endTime => simp [hc, hend] at h

theorem accept_error (h : accept packet = .error e) : e.isException = true := by
  rw [accept] at h
  cases bind_eq_error h with
  | inl hkey => exact (toString_error hkey).1
  | inr hrest =>
    obtain ⟨key, _, hrest⟩ := hrest
    cases bind_eq_error hrest with
    | inl hentry => exact entry_error hentry
    | inr hpure =>
      obtain ⟨item, _, hpure⟩ := hpure
      cases hpure

/-- The map does not end the program, if a debug build only gets packets that end no earlier
than they start. -/
theorem addPacket_exception {build : Build} (calls : List Call) {final : StreamDequeMapImpl}
    (hcalls : build = .debug → ∀ packet, .addPacket packet ∈ calls → Intact packet)
    (h : (MapRuns.run build calls).addPacket build packet = .error e final) :
    e.isException = true := by
  obtain ⟨_, _, hf, _, haccept | ⟨key, item, _, hp⟩⟩ | ⟨_, _, _, _, _, _, hf, _⟩ :=
    addPacket_cases build (Keyed.run build calls) packet
  · rw [h] at hf
    injection hf with he
    exact accept_error (he ▸ haccept)
  · obtain ⟨placed, hplaced⟩ := placePacket_run build calls hcalls key item
    rw [hplaced] at hp
    cases hp
  · rw [h] at hf
    cases hf

section Runs

variable {build : Build} {Q : Type} {operations : Operations Q ServiceApi.Packet} {capacity : Nat}
variable {mOptions : IniFile.ProgramOptions} {contents : Q → List ServiceApi.Packet}
variable {s s' : State Q} {queue : Q} {events : List Event}

/-- The steps of `processPackets` that are left until the queue is empty and every packet
that it held is dealt with. -/
def pending (contents : Q → List ServiceApi.Packet) (s : State Q) : Nat :=
  3 * (contents s.importQueue.mImportQueue).length +
    match s.importQueue.processPackets with
    | .poll => 0
    | .popped _ => 2
    | .received _ => 1

def isInternal : Event → Bool
  | .consumer _ | .cleaner _ => true
  | .call _ | .producer => false

structure Undisturbed (s s' : State Q) : Prop where
  addPacket : s'.importQueue.addPacket = s.importQueue.addPacket
  handed : s'.importQueue.history.handed = s.importQueue.history.handed
  discarded : s'.importQueue.history.discarded = s.importQueue.history.discarded

theorem Undisturbed.trans {s'' : State Q} (h : Undisturbed s s') (h' : Undisturbed s' s'') :
    Undisturbed s s'' :=
  ⟨h'.addPacket.trans h.addPacket, h'.handed.trans h.handed, h'.discarded.trans h.discarded⟩

theorem importPacket_enabled (now : Int) (packet : ServiceApi.Packet) (hi : Imported build s)
    (hcalls : build = .debug → ∀ packet ∈ offered s.history.calls, Intact packet) :
    ∃ s', importPacket build operations mOptions now packet s = some s' := by
  have hmap : build = .debug → ∀ packet, .addPacket packet ∈ s.history.calls → Intact packet :=
    fun hb packet hm => hcalls hb packet (List.mem_filterMap.mpr ⟨_, hm, rfl⟩)
  rw [importPacket]
  cases hr : isRefused mOptions now packet with
  | true => exact ⟨_, by rw [processPacket_refused (isRefused_iff.mp hr)]⟩
  | false =>
    have hnot : ¬ Refused (limits mOptions) now packet := by rw [← isRefused_iff, hr]; simp
    simp only [Refused, not_or, not_not, Bool.not_eq_true] at hnot
    obtain ⟨hv, hexpired, hfuture⟩ := hnot
    simp only [processPacket, hv, hexpired, hfuture, Bool.false_eq_true, ↓reduceIte]
    cases ha : s.mStreamDequeMap.addPacket build packet with
    | ok u map => exact ⟨_, rfl⟩
    | error e map =>
      rw [hi.map] at ha
      simp only [addPacket_exception s.history.calls hmap ha, ↓reduceIte]
      exact ⟨_, rfl⟩

theorem stepProcessPackets_received {q : ImportQueue.State Q}
    (hp : q.processPackets = .received packet) :
    stepProcessPackets operations q = { q with processPackets := .poll } := by
  simp [stepProcessPackets, hp]

theorem consumer_drains (now : Int) (hf : Fifo operations capacity contents)
    (hi : Imported build s)
    (hcalls : build = .debug → ∀ packet ∈ offered s.history.calls, Intact packet) :
    ∃ s', step build operations mOptions s (.consumer now) = some s' ∧ Undisturbed s s' ∧
      pending contents s' = pending contents s - 1 := by
  cases hp : s.importQueue.processPackets with
  | poll =>
    refine ⟨{ s with importQueue := stepProcessPackets operations s.importQueue },
      by simp only [step, hp], ?_⟩
    cases ht : operations.tryPop s.importQueue.mImportQueue with
    | none =>
      have hempty := hf.tryPop_none _ ht
      have hsame : stepProcessPackets operations s.importQueue = s.importQueue := by
        simp [stepProcessPackets, hp, ht]
      rw [hsame]
      exact ⟨⟨rfl, rfl, rfl⟩, by simp [pending, hp, hempty]⟩
    | some popped =>
      obtain ⟨packet, rest⟩ := popped
      have hpopped := hf.tryPop_some _ _ _ ht
      have hstep : stepProcessPackets operations s.importQueue = s.importQueue.obtain packet rest := by
        simp [stepProcessPackets, hp, ht]
      rw [hstep]
      refine ⟨⟨rfl, rfl, rfl⟩, ?_⟩
      simp only [pending, ImportQueue.State.obtain, hp, hpopped, List.length_cons]
      omega
  | popped packet =>
    refine ⟨{ s with importQueue := stepProcessPackets operations s.importQueue },
      by simp only [step, hp], ?_⟩
    simp only [stepProcessPackets, hp]
    exact ⟨⟨rfl, rfl, rfl⟩, by simp [pending, hp]⟩
  | received packet =>
    obtain ⟨s', hs'⟩ := @importPacket_enabled build Q operations mOptions s now packet hi hcalls
    have hqueue : s'.importQueue = { s.importQueue with processPackets := .poll } := by
      rw [← @stepProcessPackets_received packet Q operations _ hp]
      obtain ⟨_, rfl⟩ | ⟨_, rfl⟩ := importPacket_cases hs' <;> rfl
    refine ⟨s', by simp only [step, hp, hs'], ⟨?_, ?_, ?_⟩, ?_⟩
    · rw [hqueue]
    · rw [hqueue]
    · rw [hqueue]
    · simp [pending, hqueue, hp]

theorem cleaner_undisturbed (now : Int) :
    ∃ s', step build operations mOptions s (.cleaner now) = some s' ∧ Undisturbed s s' ∧
      pending contents s' = pending contents s := by
  refine ⟨cleanDeques mOptions now s, rfl, ?_⟩
  cases hc : s.cleanDeques with
  | remove =>
    rw [cleanDeques, hc]
    exact ⟨⟨rfl, rfl, rfl⟩, rfl⟩
  | removed nRemoved =>
    rw [cleanDeques, hc]
    exact ⟨⟨rfl, rfl, rfl⟩, rfl⟩

theorem run_snoc {event : Event}
    (hrun : Process.run build operations mOptions queue events = some s)
    (hstep : step build operations mOptions s event = some s') :
    Process.run build operations mOptions queue (events ++ [event]) = some s' :=
  Transitions.run_snoc.mpr ⟨s, hrun, hstep⟩

theorem intact_offered (hf : Fifo operations (mMaximumImportQueueSize mOptions) contents)
    (hmax : 1 ≤ mMaximumImportQueueSize mOptions) (hq : contents queue = [])
    (hrun : Process.run build operations mOptions queue events = some s)
    (hintact : build = .debug → ∀ packet ∈ s.importQueue.history.handed, Intact packet) :
    build = .debug → ∀ packet ∈ offered s.history.calls, Intact packet := by
  obtain ⟨seen, hseen⟩ := run_importQueue hrun
  have hinvariant := (QueueRuns.Invariant.start hq).run hf hmax hseen
  exact fun hb packet hm =>
    hintact hb packet ((offered_sublist_handed hinvariant (Imported.run hrun)).subset hm)

theorem run_pending (hf : Fifo operations (mMaximumImportQueueSize mOptions) contents)
    (hmax : 1 ≤ mMaximumImportQueueSize mOptions) (hq : contents queue = [])
    (hrun : Process.run build operations mOptions queue events = some s)
    (hintact : build = .debug → ∀ packet ∈ s.importQueue.history.handed, Intact packet)
    {later : List Event} (hlater : ∀ event ∈ later, isInternal event = true) :
    ∃ final, Process.run build operations mOptions queue (events ++ later) = some final ∧
      Undisturbed s final ∧
      pending contents final = pending contents s - (readings later).length := by
  induction later generalizing events s with
  | nil => exact ⟨s, by rwa [List.append_nil], ⟨rfl, rfl, rfl⟩, rfl⟩
  | cons event later ih =>
    have hcalls := intact_offered hf hmax hq hrun hintact
    have hnext : ∃ s', step build operations mOptions s event = some s' ∧ Undisturbed s s' ∧
        pending contents s' = pending contents s - (readings [event]).length := by
      cases event with
      | consumer now => exact consumer_drains now hf (Imported.run hrun) hcalls
      | cleaner now => exact cleaner_undisturbed now
      | call packet => exact absurd (hlater (.call packet) (by simp)) (by simp [isInternal])
      | producer => exact absurd (hlater .producer (by simp)) (by simp [isInternal])
    obtain ⟨s', hstep, hundisturbed, hpending⟩ := hnext
    obtain ⟨final, hfinal, hrest, hdone⟩ := ih (run_snoc hrun hstep)
      (by rwa [hundisturbed.handed]) (fun other hm => hlater other (by simp [hm]))
    refine ⟨final, ?_, hundisturbed.trans hrest, ?_⟩
    · rwa [List.append_cons]
    · rw [hdone, hpending, Nat.sub_sub, ← List.length_append, readings, readings, readings,
        ← List.filterMap_append]
      rfl

/-- The import never gets stuck: from every state that is reached, whatever the cleaner does
in between, enough steps of `processPackets` empty the queue and deal with every packet,
without a failed assertion. -/
theorem run_drains (build : Build) (mOptions : IniFile.ProgramOptions)
    (hf : Fifo operations (mMaximumImportQueueSize mOptions) contents)
    (hmax : 1 ≤ mMaximumImportQueueSize mOptions) (hq : contents queue = [])
    (hrun : Process.run build operations mOptions queue events = some s)
    (hintact : build = .debug → ∀ packet ∈ s.importQueue.history.handed, Intact packet)
    (later : List Event) (hlater : ∀ event ∈ later, isInternal event = true)
    (hlong : pending contents s ≤ (readings later).length) :
    ∃ final, Process.run build operations mOptions queue (events ++ later) = some final ∧
      Undisturbed s final ∧ contents final.importQueue.mImportQueue = [] ∧
      final.importQueue.processPackets = .poll ∧
      s.importQueue.history.handed.length = s.importQueue.addPacket.toList.length +
        s.importQueue.history.discarded.length + final.invalidPacketsReceivedCounter +
        final.history.declined.length + final.history.cached.length := by
  obtain ⟨final, hfinal, hundisturbed, hpending⟩ := run_pending hf hmax hq hrun hintact hlater
  rw [Nat.sub_eq_zero_of_le hlong, pending] at hpending
  obtain ⟨seen, hseen⟩ := run_importQueue hfinal
  have hbalanced := queue_balanced ((QueueRuns.Invariant.start hq).run hf hmax hseen)
  have himported := Imported.run hfinal
  have hinvalid := himported.invalid
  have hobtained := himported.obtained.length_eq
  have hpoll : final.importQueue.processPackets = .poll := by
    cases hp : final.importQueue.processPackets with
    | poll => rfl
    | popped packet | received packet => simp [hp] at hpending
  refine ⟨final, hfinal, hundisturbed, List.eq_nil_of_length_eq_zero (by omega), hpoll, ?_⟩
  rw [← hundisturbed.handed, ← hundisturbed.addPacket, ← hundisturbed.discarded]
  simp only [hpoll, inHand, List.length_append, List.length_nil] at hobtained
  omega

theorem run_drains_one_packet :
    ∃ s, Process.run .debug (bounded ServiceApi.Packet 4096) {} []
        [.call (sampled (some ⟨0, 0⟩) .integer32), .producer, .producer] = some s ∧
      ∃ final, Process.run .debug (bounded ServiceApi.Packet 4096) {} []
          ([.call (sampled (some ⟨0, 0⟩) .integer32), .producer, .producer] ++
            [.consumer 0, .cleaner 0, .consumer 0, .cleaner 0, .consumer 0]) = some final ∧
        Undisturbed s final ∧ final.importQueue.mImportQueue = [] ∧
        final.importQueue.processPackets = .poll ∧
        s.importQueue.history.handed.length = s.importQueue.addPacket.toList.length +
          s.importQueue.history.discarded.length + final.invalidPacketsReceivedCounter +
          final.history.declined.length + final.history.cached.length := by
  have hreached : (Process.run .debug (bounded ServiceApi.Packet 4096) {} []
      [.call (sampled (some ⟨0, 0⟩) .integer32), .producer, .producer]).map
        (fun s => (s.importQueue.history.handed, pending id s)) =
      some ([sampled (some ⟨0, 0⟩) .integer32], 3) := by
    decide +kernel
  obtain ⟨s, hrun, hs⟩ := Option.map_eq_some_iff.mp hreached
  obtain ⟨hhanded, hpending⟩ := Prod.mk.inj hs
  refine ⟨s, hrun, run_drains .debug {} (bounded_fifo _ _) (by decide) rfl hrun ?_ _ ?_ ?_⟩
  · intro _ packet hm
    rw [hhanded, List.mem_singleton] at hm
    exact hm ▸ intact_sampled
  · decide
  · rw [hpending]
    decide

end Runs

end PacketCache.Draining
