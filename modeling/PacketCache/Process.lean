import PacketCache.Importing
import PacketCache.IniFile
import PacketCache.QueueRuns
import PacketCache.Transitions

namespace PacketCache.Process

open PacketCache.BoundedQueue PacketCache.Importing PacketCache.MapRuns PacketCache.Messages
open PacketCache.Packets PacketCache.Platform PacketCache.StreamDeque PacketCache.StreamDequeMap
open PacketCache.ImportQueue (ProcessPackets stepAddPacket stepAddPacket_cases stepProcessPackets)

inductive CleanDeques
  | remove
  | removed (nRemoved : UInt32)

/-- The calls of the map by both threads, and what became of the packets that
`processPackets` got: counted as invalid, offered to the map in vain, or cached. -/
structure History where
  calls : List Call := []
  rejected : List ServiceApi.Packet := []
  declined : List ServiceApi.Packet := []
  cached : List ServiceApi.Packet := []

structure State (Q : Type) where
  importQueue : ImportQueue.State Q
  mStreamDequeMap : StreamDequeMapImpl := StreamDequeMapImpl.construct
  invalidPacketsReceivedCounter : Nat := 0
  cleanDeques : CleanDeques := .remove
  packetsRemovedCounter : Nat := 0
  history : History := {}

/-- A step of the subscriber, which calls `Process::addPacket`, of `processPackets` or of
`cleanDeques`. Both loops read the clock. -/
inductive Event
  | call (packet : ServiceApi.Packet)
  | producer
  | consumer (now : Int)
  | cleaner (now : Int)

variable {Q : Type} (build : Build) (operations : Operations Q ServiceApi.Packet)
variable (mOptions : IniFile.ProgramOptions)

def limits : Importing.ProgramOptions :=
  ⟨mOptions.maximumPacketLatency, mOptions.maximumPacketFutureTime⟩

def mMaximumImportQueueSize : Nat := mOptions.maximumImportQueueSize.toNat

def isRefused (now : Int) (packet : ServiceApi.Packet) : Bool :=
  !(isValidPacket packet).isOk || hasExpiredData (limits mOptions) now packet ||
    hasDataFromFuture (limits mOptions) now packet

def takes (map : StreamDequeMapImpl) (packet : ServiceApi.Packet) : Bool :=
  match accept packet with
  | .error _ => false
  | .ok (key, item) =>
    match placePacket build (dequeOf map key).mMaximumNumberOfPackets (dequeOf map key).mDeque
        item with
    | .error _ => false
    | .ok placed => placed ≠ (dequeOf map key).mDeque

def History.record (history : History) (refused taken : Bool) (packet : ServiceApi.Packet) :
    History :=
  if refused then { history with rejected := history.rejected ++ [packet] }
  else if taken then { history with
    calls := history.calls ++ [.addPacket packet], cached := history.cached ++ [packet] }
  else { history with
    calls := history.calls ++ [.addPacket packet], declined := history.declined ++ [packet] }

/-- What `processPackets` does with a packet that it has counted as received. A failed
assertion ends the program. -/
def importPacket (now : Int) (packet : ServiceApi.Packet) (s : State Q) : Option (State Q) :=
  match processPacket build (limits mOptions) now packet
      ⟨s.mStreamDequeMap, s.importQueue.packetsReceivedCounter,
        s.invalidPacketsReceivedCounter⟩ with
  | .error _ _ => none
  | .ok _ after => some { s with
      importQueue := stepProcessPackets operations s.importQueue
      mStreamDequeMap := after.mStreamDequeMap
      invalidPacketsReceivedCounter := after.invalidPacketsReceivedCounter
      history := s.history.record (isRefused mOptions now packet)
        (takes build s.mStreamDequeMap packet) packet }

/-- A round of the loop of `cleanDeques`. The removal throws nothing, so no error is ever
counted. -/
def cleanDeques (now : Int) (s : State Q) : State Q :=
  match s.cleanDeques with
  | .remove =>
    let oldestTime := toInt64 (now - mOptions.streamDequeMapOptions.mMaximumDuration)
    let (nRemoved, map) := s.mStreamDequeMap.removeExpiredPackets oldestTime
    { s with
      mStreamDequeMap := map
      cleanDeques := .removed nRemoved
      history := { s.history with
        calls := s.history.calls ++ [.removeExpiredPackets oldestTime] } }
  | .removed nRemoved =>
    { s with
      cleanDeques := .remove
      packetsRemovedCounter := s.packetsRemovedCounter + nRemoved.toNat }

def step (s : State Q) : Event → Option (State Q)
  | .call packet =>
    (ImportQueue.step operations (mMaximumImportQueueSize mOptions) s.importQueue
      (.call packet)).map (fun queue => { s with importQueue := queue })
  | .producer =>
    (ImportQueue.step operations (mMaximumImportQueueSize mOptions) s.importQueue
      .producer).map (fun queue => { s with importQueue := queue })
  | .consumer now =>
    match s.importQueue.processPackets with
    | .received packet => importPacket build operations mOptions now packet s
    | .poll | .popped _ =>
      some { s with importQueue := stepProcessPackets operations s.importQueue }
  | .cleaner now => some (cleanDeques mOptions now s)

def run (queue : Q) (events : List Event) : Option (State Q) :=
  Transitions.run (step build operations mOptions) { importQueue := { mImportQueue := queue } }
    events

variable {build operations mOptions} {s s' : State Q} {now : Int} {packet : ServiceApi.Packet}

theorem isRefused_iff :
    isRefused mOptions now packet = true ↔ Refused (limits mOptions) now packet := by
  cases hv : isValidPacket packet with
  | ok u => simp [isRefused, Refused, hv, Except.isOk, Except.toBool]
  | error reason => simp [isRefused, Refused, hv, Except.isOk, Except.toBool]

theorem importPacket_cases (h : importPacket build operations mOptions now packet s = some s') :
    (isRefused mOptions now packet = true ∧ s' = { s with
        importQueue := stepProcessPackets operations s.importQueue
        invalidPacketsReceivedCounter := s.invalidPacketsReceivedCounter + 1
        history := s.history.record true (takes build s.mStreamDequeMap packet) packet }) ∨
      isRefused mOptions now packet = false ∧ s' = { s with
        importQueue := stepProcessPackets operations s.importQueue
        mStreamDequeMap := call build s.mStreamDequeMap (.addPacket packet)
        history := s.history.record false (takes build s.mStreamDequeMap packet) packet } := by
  rw [importPacket] at h
  cases hr : isRefused mOptions now packet with
  | true =>
    simp only [processPacket_refused (isRefused_iff.mp hr), hr, Option.some.injEq] at h
    exact Or.inl ⟨rfl, h.symm⟩
  | false =>
    refine Or.inr ⟨rfl, ?_⟩
    have hnot : ¬ Refused (limits mOptions) now packet := by rw [← isRefused_iff, hr]; simp
    simp only [Refused, not_or, not_not, Bool.not_eq_true] at hnot
    obtain ⟨hv, hexpired, hfuture⟩ := hnot
    simp only [processPacket, hv, hexpired, hfuture, Bool.false_eq_true, ↓reduceIte] at h
    rw [call]
    cases ha : s.mStreamDequeMap.addPacket build packet with
    | ok u map =>
      simp only [ha, hr, Option.some.injEq] at h
      rw [← h, finalState_ok]
    | error e map =>
      simp only [ha] at h
      split_ifs at h with he
      · simp only [hr, Option.some.injEq] at h
        rw [← h, finalState_error]

def inHand : ProcessPackets → List ServiceApi.Packet
  | .poll => []
  | .popped packet | .received packet => [packet]

/-- What a step can do: move the queue on, count a packet as invalid, call the map with it,
clean the map up, or count what the clean-up removed. -/
inductive Stepped (build : Build) (operations : Operations Q ServiceApi.Packet)
    (mOptions : IniFile.ProgramOptions) (s : State Q) : Event → State Q → Prop
  | queue (event : Event) (moved : ImportQueue.Event) (queue : ImportQueue.State Q)
    (h : ImportQueue.step operations (mMaximumImportQueueSize mOptions) s.importQueue moved =
      some queue)
    (hi : moved = .consumer → ∀ packet, s.importQueue.processPackets ≠ .received packet) :
    Stepped build operations mOptions s event { s with importQueue := queue }
  | rejected (now : Int) (packet : ServiceApi.Packet)
    (hp : s.importQueue.processPackets = .received packet)
    (hr : isRefused mOptions now packet = true) :
    Stepped build operations mOptions s (.consumer now) { s with
      importQueue := stepProcessPackets operations s.importQueue
      invalidPacketsReceivedCounter := s.invalidPacketsReceivedCounter + 1
      history := s.history.record true (takes build s.mStreamDequeMap packet) packet }
  | offered (now : Int) (packet : ServiceApi.Packet)
    (hp : s.importQueue.processPackets = .received packet)
    (hr : isRefused mOptions now packet = false) :
    Stepped build operations mOptions s (.consumer now) { s with
      importQueue := stepProcessPackets operations s.importQueue
      mStreamDequeMap := call build s.mStreamDequeMap (.addPacket packet)
      history := s.history.record false (takes build s.mStreamDequeMap packet) packet }
  | cleaned (now oldestTime : Int) (hc : s.cleanDeques = .remove)
    (ho : oldestTime = toInt64 (now - mOptions.streamDequeMapOptions.mMaximumDuration)) :
    Stepped build operations mOptions s (.cleaner now) { s with
      mStreamDequeMap := call build s.mStreamDequeMap (.removeExpiredPackets oldestTime)
      cleanDeques := .removed (s.mStreamDequeMap.removeExpiredPackets oldestTime).1
      history := { s.history with
        calls := s.history.calls ++ [.removeExpiredPackets oldestTime] } }
  | counted (now : Int) (nRemoved : UInt32) (hc : s.cleanDeques = .removed nRemoved) :
    Stepped build operations mOptions s (.cleaner now) { s with
      cleanDeques := .remove
      packetsRemovedCounter := s.packetsRemovedCounter + nRemoved.toNat }

theorem step_stepped {event : Event} (h : step build operations mOptions s event = some s') :
    Stepped build operations mOptions s event s' := by
  cases event with
  | call packet =>
    obtain ⟨queue, hq, rfl⟩ := Option.map_eq_some_iff.mp h
    exact .queue _ (.call packet) queue hq (by simp)
  | producer =>
    obtain ⟨queue, hq, rfl⟩ := Option.map_eq_some_iff.mp h
    exact .queue _ .producer queue hq (by simp)
  | consumer now =>
    cases hp : s.importQueue.processPackets with
    | poll | popped packet =>
      simp only [step, hp, Option.some.injEq] at h
      rw [← h]
      exact .queue _ .consumer _ rfl (by simp [hp])
    | received packet =>
      simp only [step, hp] at h
      obtain ⟨hr, rfl⟩ | ⟨hr, rfl⟩ := importPacket_cases h
      · exact .rejected now packet hp hr
      · exact .offered now packet hp hr
  | cleaner now =>
    rw [step, Option.some.injEq] at h
    rw [← h]
    cases hc : s.cleanDeques with
    | remove =>
      rw [cleanDeques, hc]
      exact .cleaned now _ hc rfl
    | removed nRemoved =>
      rw [cleanDeques, hc]
      exact .counted now nRemoved hc

theorem run_importQueue {queue : Q} {events : List Event}
    (hrun : run build operations mOptions queue events = some s) :
    ∃ seen, ImportQueue.run operations (mMaximumImportQueueSize mOptions)
      { mImportQueue := queue } seen = some s.importQueue := by
  refine Transitions.run_view State.importQueue (fun s event s' h => ?_) hrun
  cases step_stepped h with
  | queue event moved queue hq hi => exact ⟨[moved], by simp [Transitions.run, hq]⟩
  | rejected now packet hp hr => exact ⟨[.consumer], rfl⟩
  | offered now packet hp hr => exact ⟨[.consumer], rfl⟩
  | cleaned now oldestTime hc ho => exact ⟨[], rfl⟩
  | counted now nRemoved hc => exact ⟨[], rfl⟩

def offered (calls : List Call) : List ServiceApi.Packet :=
  calls.filterMap (fun c => match c with
    | .addPacket packet => some packet
    | .removeExpiredPackets _ => none)

theorem offered_addPacket (calls : List Call) (packet : ServiceApi.Packet) :
    offered (calls ++ [.addPacket packet]) = offered calls ++ [packet] := by
  simp [offered]

theorem offered_removeExpiredPackets (calls : List Call) (oldestTime : Int) :
    offered (calls ++ [.removeExpiredPackets oldestTime]) = offered calls := by
  simp [offered]

theorem record_calls (history : History) (taken : Bool) (packet : ServiceApi.Packet) :
    (history.record false taken packet).calls = history.calls ++ [.addPacket packet] := by
  cases taken <;> rfl

theorem record_perm (history : History) (refused taken : Bool) (packet : ServiceApi.Packet) :
    ((history.record refused taken packet).rejected ++
        (history.record refused taken packet).declined ++
        (history.record refused taken packet).cached).Perm
      (history.rejected ++ history.declined ++ history.cached ++ [packet]) := by
  cases refused with
  | true =>
    simp only [History.record, ↓reduceIte, List.append_assoc, List.perm_append_left_iff]
    rw [← List.append_assoc history.declined]
    exact List.perm_append_comm
  | false =>
    cases taken with
    | true => simp [History.record]
    | false =>
      simp only [History.record, Bool.false_eq_true, ↓reduceIte, List.append_assoc,
        List.perm_append_left_iff]
      exact List.perm_append_comm

structure Imported (build : Build) (s : State Q) : Prop where
  map : s.mStreamDequeMap = MapRuns.run build s.history.calls
  obtained : s.importQueue.history.obtained.Perm (s.history.rejected ++ s.history.declined ++
    s.history.cached ++ inHand s.importQueue.processPackets)
  order : (offered s.history.calls ++ inHand s.importQueue.processPackets).Sublist
    s.importQueue.history.obtained
  invalid : s.invalidPacketsReceivedCounter = s.history.rejected.length

theorem step_obtained {q q' : ImportQueue.State Q} {maximum : Nat} {event : ImportQueue.Event}
    (h : ImportQueue.step operations maximum q event = some q')
    (hi : event = .consumer → ∀ packet, q.processPackets ≠ .received packet) :
    ∃ new, q'.history.obtained = q.history.obtained ++ new ∧
      inHand q'.processPackets = inHand q.processPackets ++ new := by
  cases event with
  | call packet =>
    obtain ⟨_, rfl⟩ := ImportQueue.step_call.mp h
    exact ⟨[], by simp [ImportQueue.State.enter]⟩
  | producer =>
    obtain ⟨self, _, rfl⟩ := ImportQueue.step_producer.mp h
    refine ⟨[], ?_⟩
    obtain ⟨_, _, _, _, he⟩ | ⟨_, _, _, he⟩ | ⟨_, _, he⟩ | ⟨_, _, _, he⟩ :=
      stepAddPacket_cases operations maximum q self
    all_goals
      rw [he, List.append_nil, List.append_nil]
      exact ⟨rfl, rfl⟩
  | consumer =>
    obtain rfl := ImportQueue.step_consumer.mp h
    cases hp : q.processPackets with
    | received packet => exact absurd hp (hi rfl packet)
    | popped packet => exact ⟨[], by simp [stepProcessPackets, hp, inHand]⟩
    | poll =>
      cases ht : operations.tryPop q.mImportQueue with
      | none => exact ⟨[], by simp [stepProcessPackets, hp, ht, inHand]⟩
      | some popped =>
        obtain ⟨packet, queue⟩ := popped
        exact ⟨[packet], by simp [stepProcessPackets, hp, ht, inHand, ImportQueue.State.obtain]⟩

theorem step_received {q : ImportQueue.State Q} (hp : q.processPackets = .received packet) :
    (stepProcessPackets operations q).history = q.history ∧
      inHand (stepProcessPackets operations q).processPackets = [] := by
  simp [stepProcessPackets, hp, inHand]

theorem Imported.record (h : Imported build s) (hp : s.importQueue.processPackets = .received packet)
    (refused taken : Bool) :
    s.importQueue.history.obtained.Perm
      ((s.history.record refused taken packet).rejected ++
        (s.history.record refused taken packet).declined ++
        (s.history.record refused taken packet).cached ++ []) := by
  have hobtained := h.obtained
  rw [hp] at hobtained
  rw [List.append_nil]
  exact hobtained.trans (record_perm s.history refused taken packet).symm

theorem Imported.step {event : Event} (h : Imported build s)
    (hstep : step build operations mOptions s event = some s') : Imported build s' := by
  cases step_stepped hstep with
  | queue event moved queue hq hi =>
    obtain ⟨new, hobtained, hhand⟩ := step_obtained hq hi
    refine ⟨h.map, ?_, ?_, h.invalid⟩
    · simp only [hobtained, hhand, ← List.append_assoc]
      exact h.obtained.append_right new
    · simp only [hobtained, hhand, ← List.append_assoc]
      exact h.order.append (List.Sublist.refl new)
  | rejected now packet hp hr =>
    obtain ⟨hhistory, hhand⟩ := @step_received Q operations packet s.importQueue hp
    refine ⟨h.map, ?_, ?_, ?_⟩
    · simp only [hhistory, hhand]
      exact h.record hp true _
    · simp only [hhistory, hhand, List.append_nil]
      exact (List.sublist_append_left _ _).trans h.order
    · simp [History.record, h.invalid]
  | offered now packet hp hr =>
    obtain ⟨hhistory, hhand⟩ := @step_received Q operations packet s.importQueue hp
    refine ⟨?_, ?_, ?_, ?_⟩
    · simp only [record_calls, MapRuns.run_snoc, h.map]
    · simp only [hhistory, hhand]
      exact h.record hp false _
    · have horder := h.order
      rw [hp] at horder
      simp only [hhistory, hhand, record_calls, offered_addPacket, List.append_nil]
      exact horder
    · rw [h.invalid]
      cases takes build s.mStreamDequeMap packet <;> rfl
  | cleaned now oldestTime hc ho =>
    refine ⟨?_, h.obtained, ?_, h.invalid⟩
    · simp only [MapRuns.run_snoc, h.map]
    · simp only [offered_removeExpiredPackets]
      exact h.order
  | counted now nRemoved hc => exact ⟨h.map, h.obtained, h.order, h.invalid⟩

theorem Imported.start (build : Build) (queue : Q) :
    Imported build { importQueue := { mImportQueue := queue } } :=
  ⟨rfl, List.Perm.refl _, List.Sublist.refl _, rfl⟩

theorem Imported.run {queue : Q} {events : List Event}
    (hrun : run build operations mOptions queue events = some s) : Imported build s :=
  Transitions.run_invariant (fun _ _ _ h hstep => h.step hstep) (Imported.start build queue) hrun

end PacketCache.Process
