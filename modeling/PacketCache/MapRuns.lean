import Mathlib.Data.List.Induction
import PacketCache.StreamDequeMap
import PacketCache.StreamNames

namespace PacketCache.MapRuns

open PacketCache.Identifiers PacketCache.Messages PacketCache.Platform PacketCache.StreamDeque
open PacketCache.StreamDequeMap PacketCache.StreamNames

/-- The calls that change the map, one of the import thread and one of the cleaner. -/
inductive Call
  | addPacket (packet : ServiceApi.Packet)
  | removeExpiredPackets (oldestTime : Int)

/-- A call that throws leaves the map it left behind, as any other call does. -/
def call (build : Build) (map : StreamDequeMapImpl) : Call → StreamDequeMapImpl
  | .addPacket packet => finalState (map.addPacket build packet)
  | .removeExpiredPackets oldestTime => (map.removeExpiredPackets oldestTime).2

/-- The mutex puts the calls of all threads in an order, so the runs are the
interleavings. -/
def run (build : Build) (calls : List Call) : StreamDequeMapImpl :=
  calls.foldl (call build) StreamDequeMapImpl.construct

def accept (packet : ServiceApi.Packet) : Except Fault (String × PacketTime) := do
  let key ← toString (packet.streamIdentifier.getD {})
  let item ← entry packet
  return (key, item)

def dequeOf (map : StreamDequeMapImpl) (key : String) : StreamDequeImpl :=
  map.mStreamDequeMap[key]?.getD (fresh key)

/-- Every deque carries the name it is stored under. -/
def Keyed (map : StreamDequeMapImpl) : Prop :=
  ∀ (key : String) (deque : StreamDequeImpl), map.mStreamDequeMap[key]? = some deque →
    deque.mStreamIdentifier = key

def Same (map final : StreamDequeMapImpl) : Prop :=
  ∀ key : String, final.mStreamDequeMap[key]? = map.mStreamDequeMap[key]?

def Updated (map : StreamDequeMapImpl) (key : String) (deque : StreamDequeImpl)
    (final : StreamDequeMapImpl) : Prop :=
  ∀ other : String, final.mStreamDequeMap[other]? =
    if other = key then some deque else map.mStreamDequeMap[other]?

variable (build : Build) {map final : StreamDequeMapImpl} {packet : ServiceApi.Packet}
variable {key : String} {deque : StreamDequeImpl} {item : PacketTime}

theorem accept_ok (h : accept packet = .ok (key, item)) :
    toString (packet.streamIdentifier.getD {}) = .ok key ∧ entry packet = .ok item := by
  rw [accept] at h
  obtain ⟨name, hid, h⟩ := bind_eq_ok h
  obtain ⟨added, hi, h⟩ := bind_eq_ok h
  obtain ⟨rfl, rfl⟩ := Prod.mk.inj (Except.ok.inj h)
  exact ⟨hid, hi⟩

theorem updated_insert : Updated map key deque ⟨map.mStreamDequeMap.insert key deque⟩ := by
  intro other
  simp only [Std.TreeMap.getElem?_insert, Std.LawfulEqCmp.compare_eq_iff_eq, @eq_comm _ key]

theorem same_insert (h : map.mStreamDequeMap[key]? = some deque) :
    Same map ⟨map.mStreamDequeMap.insert key deque⟩ := by
  intro other
  rw [updated_insert other]
  split_ifs with he
  · rw [he, h]
  · rfl

theorem updated_insertIfNew (h : map.mStreamDequeMap[key]? = none) :
    Updated map key deque ⟨map.mStreamDequeMap.insertIfNew key deque⟩ := by
  intro other
  have hmem : key ∉ map.mStreamDequeMap := by
    rw [Std.TreeMap.mem_iff_isSome_getElem?, h]
    simp
  simp only [Std.TreeMap.getElem?_insertIfNew, hmem, not_false_eq_true, and_true,
    Std.LawfulEqCmp.compare_eq_iff_eq, @eq_comm _ key]

theorem addPacket_present (hk : Keyed map)
    (hid : toString (packet.streamIdentifier.getD {}) = .ok key)
    (hd : map.mStreamDequeMap[key]? = some deque) :
    map.addPacket build packet =
      match entry packet with
      | .error e => .error e ⟨map.mStreamDequeMap.insert key deque⟩
      | .ok item =>
        match placePacket build deque.mMaximumNumberOfPackets deque.mDeque item with
        | .error e => .error e ⟨map.mStreamDequeMap.insert key deque⟩
        | .ok placed =>
          .ok () ⟨map.mStreamDequeMap.insert key { deque with mDeque := placed }⟩ := by
  have hkey : toString (packet.streamIdentifier.getD {}) = .ok deque.mStreamIdentifier := by
    rw [hid, hk key deque hd]
  simp only [StreamDequeMapImpl.addPacket, hid, hd, addPacket_entry build hkey]
  cases entry packet with
  | error e => rfl
  | ok item =>
    simp only
    cases placePacket build deque.mMaximumNumberOfPackets deque.mDeque item <;> rfl

theorem addPacket_absent (hid : toString (packet.streamIdentifier.getD {}) = .ok key)
    (hd : map.mStreamDequeMap[key]? = none) :
    map.addPacket build packet =
      match entry packet with
      | .error e => .error e map
      | .ok item =>
        .ok () ⟨map.mStreamDequeMap.insertIfNew key { fresh key with mDeque := [item] }⟩ := by
  have hcontains : map.mStreamDequeMap.contains key = false := by
    rw [Std.TreeMap.contains_eq_isSome_getElem?, hd]
    rfl
  simp only [StreamDequeMapImpl.addPacket, hid, hd, construct_entry build hid,
    Std.TreeMap.containsThenInsertIfNew_fst, Std.TreeMap.containsThenInsertIfNew_snd, hcontains]
  cases entry packet <;> rfl

theorem dequeOf_some (h : map.mStreamDequeMap[key]? = some deque) : dequeOf map key = deque := by
  rw [dequeOf, h, Option.getD_some]

theorem dequeOf_none (h : map.mStreamDequeMap[key]? = none) : dequeOf map key = fresh key := by
  rw [dequeOf, h, Option.getD_none]

theorem Keyed.dequeOf (hk : Keyed map) (key : String) :
    (dequeOf map key).mStreamIdentifier = key := by
  cases h : map.mStreamDequeMap[key]? with
  | none => rw [dequeOf_none h]; rfl
  | some deque => rw [dequeOf_some h]; exact hk key deque h

theorem placePacket_fresh (key : String) (item : PacketTime) :
    placePacket build (fresh key).mMaximumNumberOfPackets (fresh key).mDeque item = .ok [item] :=
  rfl

theorem addPacket_named (hk : Keyed map)
    (hid : toString (packet.streamIdentifier.getD {}) = .ok key) :
    match entry packet with
    | .error e => ∃ final, map.addPacket build packet = .error e final ∧ Same map final
    | .ok item =>
      match placePacket build (dequeOf map key).mMaximumNumberOfPackets
          (dequeOf map key).mDeque item with
      | .error e => ∃ final, map.addPacket build packet = .error e final ∧ Same map final
      | .ok placed => ∃ final, map.addPacket build packet = .ok () final ∧
          Updated map key { dequeOf map key with mDeque := placed } final := by
  cases hd : map.mStreamDequeMap[key]? with
  | some deque =>
    have hadd := addPacket_present build hk hid hd
    cases hi : entry packet with
    | error e =>
      simp only [hi] at hadd ⊢
      exact ⟨_, hadd, same_insert hd⟩
    | ok item =>
      simp only [hi, dequeOf_some hd] at hadd ⊢
      cases hp : placePacket build deque.mMaximumNumberOfPackets deque.mDeque item with
      | error e =>
        simp only [hp] at hadd ⊢
        exact ⟨_, hadd, same_insert hd⟩
      | ok placed =>
        simp only [hp] at hadd ⊢
        exact ⟨_, hadd, updated_insert⟩
  | none =>
    have hadd := addPacket_absent build hid hd
    cases hi : entry packet with
    | error e =>
      simp only [hi] at hadd ⊢
      exact ⟨_, hadd, fun _ => rfl⟩
    | ok item =>
      simp only [hi, dequeOf_none hd, placePacket_fresh] at hadd ⊢
      exact ⟨_, hadd, updated_insertIfNew hd⟩

theorem addPacket_accept (hk : Keyed map) (packet : ServiceApi.Packet) :
    match accept packet with
    | .error e => ∃ final, map.addPacket build packet = .error e final ∧ Same map final
    | .ok (key, item) =>
      match placePacket build (dequeOf map key).mMaximumNumberOfPackets
          (dequeOf map key).mDeque item with
      | .error e => ∃ final, map.addPacket build packet = .error e final ∧ Same map final
      | .ok placed => ∃ final, map.addPacket build packet = .ok () final ∧
          Updated map key { dequeOf map key with mDeque := placed } final := by
  cases hid : toString (packet.streamIdentifier.getD {}) with
  | error e =>
    have ha : accept packet = .error e := by rw [accept, hid]; rfl
    simp only [ha]
    exact ⟨map, by simp only [StreamDequeMapImpl.addPacket, hid], fun _ => rfl⟩
  | ok key =>
    have hadd := addPacket_named build hk hid
    cases hi : entry packet with
    | error e =>
      have ha : accept packet = .error e := by rw [accept, hid, hi]; rfl
      simpa only [ha, hi] using hadd
    | ok item =>
      have ha : accept packet = .ok (key, item) := by rw [accept, hid, hi]; rfl
      simpa only [ha, hi] using hadd

/-- A call fails in a check or in the placing and changes nothing, or it places the packet. -/
theorem addPacket_cases (hk : Keyed map) (packet : ServiceApi.Packet) :
    (∃ e final, map.addPacket build packet = .error e final ∧ Same map final ∧
      (accept packet = .error e ∨ ∃ key item, accept packet = .ok (key, item) ∧
        placePacket build (dequeOf map key).mMaximumNumberOfPackets (dequeOf map key).mDeque item =
          .error e)) ∨
      ∃ key item placed final, accept packet = .ok (key, item) ∧
        placePacket build (dequeOf map key).mMaximumNumberOfPackets (dequeOf map key).mDeque item =
          .ok placed ∧
        map.addPacket build packet = .ok () final ∧
        Updated map key { dequeOf map key with mDeque := placed } final := by
  have hadd := addPacket_accept build hk packet
  cases ha : accept packet with
  | error e =>
    simp only [ha] at hadd
    obtain ⟨final, hf, hs⟩ := hadd
    exact Or.inl ⟨e, final, hf, hs, Or.inl rfl⟩
  | ok accepted =>
    obtain ⟨key, item⟩ := accepted
    cases hp : placePacket build (MapRuns.dequeOf map key).mMaximumNumberOfPackets
        (MapRuns.dequeOf map key).mDeque item with
    | error e =>
      simp only [ha, hp] at hadd
      obtain ⟨final, hf, hs⟩ := hadd
      exact Or.inl ⟨e, final, hf, hs, Or.inr ⟨key, item, rfl, hp⟩⟩
    | ok placed =>
      simp only [ha, hp] at hadd
      obtain ⟨final, hf, hu⟩ := hadd
      exact Or.inr ⟨key, item, placed, final, rfl, hp, hf, hu⟩

theorem removeExpiredPackets_getElem? (oldestTime : Int) (key : String) :
    (map.removeExpiredPackets oldestTime).2.mStreamDequeMap[key]? =
      map.mStreamDequeMap[key]?.map (fun deque => (deque.removeExpiredPackets oldestTime).2) :=
  Std.TreeMap.getElem?_map

theorem call_forall (hk : Keyed map) {P : String → StreamDequeImpl → Prop}
    (h : ∀ (key : String) (deque : StreamDequeImpl), map.mStreamDequeMap[key]? = some deque →
      P key deque) (c : Call)
    (hadd : ∀ packet key item placed, c = .addPacket packet → accept packet = .ok (key, item) →
      placePacket build (dequeOf map key).mMaximumNumberOfPackets (dequeOf map key).mDeque item =
        .ok placed → P key { dequeOf map key with mDeque := placed })
    (hremove : ∀ key deque oldestTime, P key deque →
      P key (deque.removeExpiredPackets oldestTime).2)
    (key : String) (deque : StreamDequeImpl)
    (hd : (call build map c).mStreamDequeMap[key]? = some deque) : P key deque := by
  cases c with
  | removeExpiredPackets oldestTime =>
    simp only [call, removeExpiredPackets_getElem?] at hd
    obtain ⟨kept, hkept, rfl⟩ := Option.map_eq_some_iff.mp hd
    exact hremove key kept oldestTime (h key kept hkept)
  | addPacket packet =>
    cases addPacket_cases build hk packet with
    | inl herror =>
      obtain ⟨e, final, hf, hsame, _⟩ := herror
      simp only [call, hf, finalState_error] at hd
      rw [hsame key] at hd
      exact h key deque hd
    | inr hok =>
      obtain ⟨name, item, placed, final, haccept, hplaced, hf, hu⟩ := hok
      simp only [call, hf, finalState_ok] at hd
      rw [hu key] at hd
      split_ifs at hd with he
      · obtain rfl := Option.some.inj hd
        rw [he]
        exact hadd packet name item placed rfl haccept hplaced
      · exact h key deque hd

theorem Keyed.call (hk : Keyed map) (c : Call) : Keyed (call build map c) := by
  intro key deque hd
  refine call_forall build hk hk c ?_ ?_ key deque hd
  · intro packet name item placed _ _ _
    exact hk.dequeOf name
  · intro name deque oldestTime hname
    exact hname

theorem Keyed.construct : Keyed StreamDequeMapImpl.construct := by
  intro key deque hd
  simp [StreamDequeMapImpl.construct] at hd

theorem run_snoc (calls : List Call) (c : Call) :
    run build (calls ++ [c]) = call build (run build calls) c := by
  rw [run, List.foldl_append, ← run, List.foldl_cons, List.foldl_nil]

theorem Keyed.run (calls : List Call) : Keyed (run build calls) := by
  induction calls using List.reverseRecOn with
  | nil => exact Keyed.construct
  | append_singleton calls c ih =>
    rw [run_snoc]
    exact ih.call build c

def answerOf (build : Build) (map : StreamDequeMapImpl) (key : String)
    (startAndEndTime : Int × Int) : Except Fault (List CacheApi.Packet) :=
  match map.mStreamDequeMap[key]? with
  | some deque => StreamDeque.getPackets build deque startAndEndTime
  | none => .ok []

theorem getPackets_name {identifier : StreamIdentifier} {startAndEndTime : Int × Int}
    (hkey : toString identifier = .ok key) (hlocation : identifier.locationCode ≠ none)
    (hw : startAndEndTime.1 ≤ startAndEndTime.2) :
    getPackets build map identifier startAndEndTime = answerOf build map key startAndEndTime := by
  obtain ⟨network, station, channel, hp, _⟩ := toString_ok hkey
  cases hget : map.mStreamDequeMap[key]? <;>
    simp only [StreamDequeMap.getPackets, hp.network.1, hp.station.1, hp.channel.1, hlocation,
      not_lt.mpr hw, StreamDequeMapImpl.getPackets, hkey, answerOf, hget, reduceCtorEq,
      ↓reduceIte]

theorem getPackets_congr {identifier : StreamIdentifier} {startAndEndTime : Int × Int}
    (h : ∀ key, toString identifier = .ok key →
      final.mStreamDequeMap[key]? = map.mStreamDequeMap[key]?) :
    getPackets build final identifier startAndEndTime =
      getPackets build map identifier startAndEndTime := by
  have hinner : final.getPackets build identifier startAndEndTime =
      map.getPackets build identifier startAndEndTime := by
    cases hkey : toString identifier with
    | error e => simp only [StreamDequeMapImpl.getPackets, hkey]
    | ok key => simp only [StreamDequeMapImpl.getPackets, hkey, h key hkey]
  simp only [StreamDequeMap.getPackets, hinner]

/-- A stream by its codes and a packet of it, for runs on fixed inputs. -/
def named (network station channel locationCode : String) : StreamIdentifier :=
  ⟨some network, some station, some channel, some locationCode⟩

def fiveSamples (identifier : StreamIdentifier) (seconds : Int64) : ServiceApi.Packet :=
  { streamIdentifier := some identifier, startTime := some ⟨seconds, 0⟩, samplingRate := some 1,
    numberOfSamples := some 5 }

end PacketCache.MapRuns
