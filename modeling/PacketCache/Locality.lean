import PacketCache.Importing

namespace PacketCache.Locality

open PacketCache.Identifiers PacketCache.Importing PacketCache.Insertion PacketCache.MapRuns
open PacketCache.Messages PacketCache.Packets PacketCache.Platform PacketCache.StreamDeque
open PacketCache.StreamDequeMap PacketCache.StreamNames PacketCache.Times

variable {build : Build} {map final : StreamDequeMapImpl} {packet : ServiceApi.Packet}
variable {key : String} {e : Fault}

def mismatch (thisIdentifier mStreamIdentifier : String) : Fault :=
  .invalidArgument ("This stream identifier (" ++ thisIdentifier ++
    ") does not match expected stream identifier (" ++ mStreamIdentifier ++ ")")

/-- What a call that adds a packet to a map does on any of its ways out. -/
structure AtomicAndLocal (map : StreamDequeMapImpl) : Prop where
  thrown : ∀ build packet e final, map.addPacket build packet = .error e final → Same map final
  returned : ∀ build packet final, map.addPacket build packet = .ok () final →
    ∃ key, toString (packet.streamIdentifier.getD {}) = .ok key ∧
      ∀ other, other ≠ key → final.mStreamDequeMap[other]? = map.mStreamDequeMap[other]?
  keyed : Keyed map
  matched : ∀ build packet e final, map.addPacket build packet = .error e final →
    ∀ thisIdentifier mStreamIdentifier, e ≠ mismatch thisIdentifier mStreamIdentifier

theorem mismatch_ne {what : String} (h : what.toList.take 2 ≠ ['T', 'h'])
    (thisIdentifier mStreamIdentifier : String) :
    Fault.invalidArgument what ≠ mismatch thisIdentifier mStreamIdentifier := by
  intro he
  apply h
  rw [Fault.invalidArgument.inj he]
  simp [String.toList_append]

theorem presentCode_mismatch {field : String} {value : Option String}
    (h : presentCode field value = .error e) (hfield : 2 ≤ field.toList.length)
    (hne : field.toList.take 2 ≠ ['T', 'h']) (thisIdentifier mStreamIdentifier : String) :
    e ≠ mismatch thisIdentifier mStreamIdentifier := by
  have hwhat : ∀ rest, (field ++ rest).toList.take 2 ≠ ['T', 'h'] := by
    intro rest
    rwa [String.toList_append, List.take_append_of_le_length hfield]
  cases value with
  | none =>
    obtain rfl := Except.error.inj h
    exact mismatch_ne (hwhat _) _ _
  | some code =>
    rw [presentCode] at h
    split_ifs at h
    obtain rfl := Except.error.inj h
    exact mismatch_ne (hwhat _) _ _

theorem toString_mismatch {identifier : StreamIdentifier} (h : toString identifier = .error e)
    (thisIdentifier mStreamIdentifier : String) :
    e ≠ mismatch thisIdentifier mStreamIdentifier := by
  obtain hn | hs | hc := toString_fault h
  · exact presentCode_mismatch hn (by decide) (by decide) _ _
  · exact presentCode_mismatch hs (by decide) (by decide) _ _
  · exact presentCode_mismatch hc (by decide) (by decide) _ _

theorem convertPacket_mismatch (h : convertPacket packet = .error e)
    (thisIdentifier mStreamIdentifier : String) :
    e ≠ mismatch thisIdentifier mStreamIdentifier := by
  rw [convertPacket] at h
  cases hrate : packet.samplingRate with
  | none =>
    simp only [hrate, Except.error.injEq] at h
    exact h ▸ mismatch_ne (by decide) _ _
  | some samplingRate =>
    simp only [hrate] at h
    split_ifs at h
    · obtain rfl := Except.error.inj h
      exact mismatch_ne (by decide) _ _
    cases hstart : packet.startTime with
    | none =>
      simp only [hstart, Except.error.injEq] at h
      exact h ▸ mismatch_ne (by decide) _ _
    | some startTime =>
      cases hn : packet.numberOfSamples with
      | none =>
        simp only [hstart, hn, Except.error.injEq] at h
        exact h ▸ mismatch_ne (by decide) _ _
      | some nSamples =>
        cases htype : packet.dataType.getD .unknown <;>
          simp only [hstart, hn, htype, convertDataType, reduceCtorEq, Except.error.injEq] at h
        · exact h ▸ mismatch_ne (by decide) _ _
        · exact h ▸ mismatch_ne (by decide) _ _

theorem entry_mismatch (h : entry packet = .error e)
    (thisIdentifier mStreamIdentifier : String) :
    e ≠ mismatch thisIdentifier mStreamIdentifier := by
  rw [entry] at h
  split_ifs at h
  · exact Except.error.inj h ▸ mismatch_ne (by decide) _ _
  · exact Except.error.inj h ▸ mismatch_ne (by decide) _ _
  · exact Except.error.inj h ▸ mismatch_ne (by decide) _ _
  · exact Except.error.inj h ▸ mismatch_ne (by decide) _ _
  · cases hc : convertPacket packet with
    | error e' =>
      simp only [hc, Except.error.injEq] at h
      exact h ▸ convertPacket_mismatch hc _ _
    | ok converted =>
      cases hend : getEndTimeNanoSeconds converted with
      | ok endTime => simp [hc, hend] at h
      | error e' =>
        simp only [hc, hend, Except.error.injEq] at h
        subst h
        simp only [getEndTimeNanoSeconds] at hend
        split_ifs at hend
        · exact Except.error.inj hend ▸ mismatch_ne (by decide) _ _
        · exact Except.error.inj hend ▸ mismatch_ne (by decide) _ _

theorem accept_mismatch (h : accept packet = .error e)
    (thisIdentifier mStreamIdentifier : String) :
    e ≠ mismatch thisIdentifier mStreamIdentifier := by
  obtain hid | ⟨key, _, h⟩ := bind_eq_error h
  · exact toString_mismatch hid _ _
  obtain hi | ⟨item, _, h⟩ := bind_eq_error h
  · exact entry_mismatch hi _ _
  cases h

theorem addPacket_mismatch (hk : Keyed map) (h : map.addPacket build packet = .error e final)
    (thisIdentifier mStreamIdentifier : String) :
    e ≠ mismatch thisIdentifier mStreamIdentifier := by
  obtain ⟨e', after, hf, _, hcause⟩ | ⟨_, _, _, after, _, _, hf, _⟩ :=
    addPacket_cases build hk packet
  · simp only [hf, EStateM.Result.error.injEq] at h
    rw [← h.1]
    obtain ha | ⟨key, item, _, hp⟩ := hcause
    · exact accept_mismatch ha _ _
    · rw [placePacket_error build hp]
      simp [mismatch]
  · simp [hf] at h

theorem Keyed.atomicAndLocal (hk : Keyed map) : AtomicAndLocal map := by
  refine ⟨?_, ?_, hk, fun build packet e final h => addPacket_mismatch hk h⟩
  · intro build packet e final h
    obtain ⟨e', after, hf, hs, _⟩ | ⟨_, _, _, after, _, _, hf, _⟩ :=
      addPacket_cases build hk packet
    · simp only [hf, EStateM.Result.error.injEq] at h
      exact h.2 ▸ hs
    · simp [hf] at h
  · intro build packet final h
    obtain ⟨_, after, hf, _⟩ | ⟨key, _, _, after, ha, _, hf, hu⟩ :=
      addPacket_cases build hk packet
    · simp [hf] at h
    · simp only [hf, EStateM.Result.ok.injEq, true_and] at h
      refine ⟨key, (accept_ok ha).1, fun other hne => ?_⟩
      rw [← h, hu other, if_neg hne]

theorem Same.dequeOf {other : StreamDequeMapImpl} (h : Same map other) (key : String) :
    dequeOf other key = dequeOf map key := by
  rw [MapRuns.dequeOf, MapRuns.dequeOf, h key]

theorem Same.call {debug : StreamDequeMapImpl} (h : Same map debug) (hk : Keyed map)
    (hkd : Keyed debug) (c : Call)
    (hplace : ∀ packet key item, c = .addPacket packet → accept packet = .ok (key, item) →
      ∃ placed, placePacket .debug (MapRuns.dequeOf debug key).mMaximumNumberOfPackets
        (MapRuns.dequeOf debug key).mDeque item = .ok placed) :
    Same (call .release map c) (call .debug debug c) := by
  cases c with
  | removeExpiredPackets oldestTime =>
    intro key
    simp only [MapRuns.call, removeExpiredPackets_getElem?, h key]
  | addPacket packet =>
    have hr := addPacket_accept .release hk packet
    have hd := addPacket_accept .debug hkd packet
    cases ha : accept packet with
    | error e =>
      simp only [ha] at hr hd
      obtain ⟨released, hfr, hsr⟩ := hr
      obtain ⟨debugged, hfd, hsd⟩ := hd
      intro key
      rw [MapRuns.call, MapRuns.call, hfr, hfd, finalState_error, finalState_error, hsr key,
        hsd key, h key]
    | ok accepted =>
      obtain ⟨key, item⟩ := accepted
      obtain ⟨placed, hp⟩ := hplace packet key item rfl ha
      have hpr := hp
      rw [(placePacket_builds _ _ item).resolve_right (by simp [hp]), Same.dequeOf h] at hpr
      simp only [ha, hp, hpr] at hr hd
      obtain ⟨released, hfr, hur⟩ := hr
      obtain ⟨debugged, hfd, hud⟩ := hd
      intro other
      rw [MapRuns.call, MapRuns.call, hfr, hfd, finalState_ok, finalState_ok, hur other,
        hud other, h other, Same.dequeOf h]

theorem same_run (calls : List Call)
    (hcalls : ∀ packet, .addPacket packet ∈ calls → Intact packet) :
    Same (run .release calls) (run .debug calls) := by
  induction calls using List.reverseRecOn with
  | nil => exact fun key => rfl
  | append_singleton calls c ih =>
    have hbefore : ∀ packet, .addPacket packet ∈ calls → Intact packet :=
      fun packet hm => hcalls packet (List.mem_append_left _ hm)
    rw [run_snoc, run_snoc]
    exact Same.call (ih hbefore) (Keyed.run .release calls) (Keyed.run .debug calls) c
      (fun _ key item _ _ => placePacket_run .debug calls (fun _ => hbefore) key item)

/-- In every run a call is atomic and local and never finds a deque under another name.
The builds store the same packets in every run whose packets end no earlier than they
start. -/
theorem addPacket_atomic_and_local (calls : List Call) :
    (∀ build, AtomicAndLocal (run build calls)) ∧
      ((∀ packet, .addPacket packet ∈ calls → Intact packet) →
        Same (run .release calls) (run .debug calls)) :=
  ⟨fun build => Keyed.atomicAndLocal (Keyed.run build calls), same_run calls⟩

theorem addPacket_atomic_and_local_one_packet :
    (∀ build, AtomicAndLocal (run build [.addPacket (sampled (some ⟨0, 0⟩) .integer32)])) ∧
      Same (run .release [.addPacket (sampled (some ⟨0, 0⟩) .integer32)])
        (run .debug [.addPacket (sampled (some ⟨0, 0⟩) .integer32)]) := by
  obtain ⟨hatomic, hsame⟩ :=
    addPacket_atomic_and_local [.addPacket (sampled (some ⟨0, 0⟩) .integer32)]
  refine ⟨hatomic, hsame (fun packet hm => ?_)⟩
  simp only [List.mem_singleton, Call.addPacket.injEq] at hm
  rw [hm]
  exact intact_sampled

def lateFirst : List Call :=
  [9223372036, 5, 3, 4].map (fun seconds =>
    .addPacket (fiveSamples (named "UU" "FTU" "HHZ" "01") seconds))

/-- The end of the first packet wraps, so that the buffer is not sorted, and the fourth one
fails the assertion of a debug build. -/
theorem builds_differ_lateFirst :
    (run .debug (lateFirst.take 3)).addPacket .debug
        (fiveSamples (named "UU" "FTU" "HHZ" "01") 4) matches .error .assertionFailed _ ∧
      (run .release (lateFirst.take 3)).addPacket .release
        (fiveSamples (named "UU" "FTU" "HHZ" "01") 4) matches .ok () _ ∧
      ¬ Same (run .release lateFirst) (run .debug lateFirst) := by
  refine ⟨by decide +kernel, by decide +kernel, fun h => ?_⟩
  have hdiffer : (run .debug lateFirst).mStreamDequeMap["UU.FTU.HHZ.01"]? ≠
      (run .release lateFirst).mStreamDequeMap["UU.FTU.HHZ.01"]? := by
    decide +kernel
  exact hdiffer (h _)

end PacketCache.Locality
