import Mathlib.Data.List.Forall2
import PacketCache.MapRuns

namespace PacketCache.Discovery

open PacketCache.Identifiers PacketCache.MapRuns PacketCache.Messages PacketCache.Platform
open PacketCache.StreamDeque PacketCache.StreamDequeMap PacketCache.StreamNames

variable {build : Build} {map : StreamDequeMapImpl} {identifier : StreamIdentifier}

/-- No code has a dot or is blank. A location code that is empty or not set counts as `--`. -/
def Discoverable (identifier : StreamIdentifier) : Prop :=
  ∀ code ∈ codes identifier, '.' ∉ code.toList ∧ ∃ c ∈ code.toList, isspace c = false

instance : DecidablePred Discoverable := fun identifier =>
  decidable_of_iff ((codes identifier).all fun code =>
    !code.toList.contains '.' && code.toList.any fun c => !isspace c) (by simp [Discoverable])

/-- The listing succeeds with one identifier for each stream, and each identifier is
answered by the deque of its stream. -/
def Coherent (build : Build) (map : StreamDequeMapImpl) : Prop :=
  ∃ identifiers, map.getAvailableStreams build = .ok identifiers ∧
    List.Forall₂ (fun (entry : String × StreamDequeImpl) identifier =>
      ∀ t0 t1, t0 ≤ t1 → getPackets build map identifier (t0, t1) =
        StreamDeque.getPackets build entry.2 (t0, t1))
      map.mStreamDequeMap.toList identifiers

theorem Discoverable.normalize_ne (h : Discoverable identifier) {code : String}
    (hm : code ∈ codes identifier) : normalize code ≠ "" :=
  normalize_ne_of_nonblank (h code hm).2

def listed (identifier : StreamIdentifier) : StreamIdentifier :=
  ⟨some (normalize (identifier.network.getD "")), some (normalize (identifier.station.getD "")),
    some (normalize (identifier.channel.getD "")),
    some (normalize (appendedLocation identifier.locationCode))⟩

theorem fromString_streamName (h : Discoverable identifier) :
    fromString (streamName identifier) = .ok (listed identifier) := by
  rw [fromString, splitOn_streamName, codePieces_of_dotless (fun code hm => (h code hm).1)]
  simp [codes, listed]

theorem toString_listed (h : Discoverable identifier) :
    toString (listed identifier) = .ok (streamName identifier) := by
  have hp : Present (listed identifier) (normalize (identifier.network.getD ""))
      (normalize (identifier.station.getD "")) (normalize (identifier.channel.getD "")) :=
    ⟨⟨rfl, h.normalize_ne (by simp [codes])⟩, ⟨rfl, h.normalize_ne (by simp [codes])⟩,
      ⟨rfl, h.normalize_ne (by simp [codes])⟩⟩
  have hlocation : appendedLocation (listed identifier).locationCode =
      normalize (appendedLocation identifier.locationCode) :=
    appendedLocation_some (h.normalize_ne (by simp [codes]))
  rw [toString_present hp, streamName, hlocation]
  simp only [listed, Option.getD_some, normalize_normalize, streamName]

def Named (map : StreamDequeMapImpl) : Prop :=
  ∀ (key : String) (deque : StreamDequeImpl), map.mStreamDequeMap[key]? = some deque →
    ∃ identifier, Discoverable identifier ∧ key = streamName identifier

theorem Named.call (h : Named map) (hk : Keyed map) (c : Call)
    (hc : ∀ packet accepted, c = .addPacket packet → accept packet = .ok accepted →
      Discoverable (packet.streamIdentifier.getD {})) : Named (call build map c) := by
  intro key deque hd
  refine call_forall build hk h c ?_ ?_ key deque hd
  · intro packet name item placed he haccept _
    obtain ⟨_, _, _, _, hname⟩ := toString_ok (accept_ok haccept).1
    exact ⟨_, hc packet _ he haccept, hname⟩
  · intro name deque oldestTime hname
    exact hname

theorem Named.run (calls : List Call)
    (hc : ∀ packet accepted, .addPacket packet ∈ calls → accept packet = .ok accepted →
      Discoverable (packet.streamIdentifier.getD {})) : Named (run build calls) := by
  induction calls using List.reverseRecOn with
  | nil =>
    intro key deque hd
    simp [MapRuns.run, StreamDequeMapImpl.construct] at hd
  | append_singleton calls c ih =>
    rw [run_snoc]
    refine (ih (fun packet accepted hm => hc packet accepted (by simp [hm]))).call
      (Keyed.run build calls) c (fun packet accepted he => hc packet accepted (by simp [he]))

theorem mapM_forall₂ {α β : Type} {f : α → Except Fault β} {R : α → β → Prop} (l : List α)
    (h : ∀ a ∈ l, ∃ b, f a = .ok b ∧ R a b) :
    ∃ bs, l.mapM f = .ok bs ∧ List.Forall₂ R l bs := by
  induction l with
  | nil => exact ⟨[], rfl, List.Forall₂.nil⟩
  | cons a l ih =>
    obtain ⟨b, hb, hr⟩ := h a (by simp)
    obtain ⟨bs, hbs, hrs⟩ := ih (fun x hx => h x (by simp [hx]))
    refine ⟨b :: bs, ?_, List.Forall₂.cons hr hrs⟩
    rw [List.mapM_cons, hb, hbs]
    rfl

theorem Named.coherent (h : Named map) : Coherent build map := by
  have hlist : map.getAvailableStreams build =
      map.mStreamDequeMap.toList.mapM (fun entry => fromString entry.1) := by
    have hnodup : map.mStreamDequeMap.keys.Nodup := Std.TreeMap.nodup_keys
    rw [StreamDequeMapImpl.getAvailableStreams, if_neg (fun h => h.2 hnodup),
      ← Std.TreeMap.map_fst_toList_eq_keys, List.mapM_map]
    rfl
  rw [Coherent, hlist]
  refine mapM_forall₂ _ (fun entry hm => ?_)
  have hget := Std.TreeMap.mem_toList_iff_getElem?_eq_some.mp hm
  obtain ⟨identifier, hd, hkey⟩ := h entry.1 entry.2 hget
  refine ⟨listed identifier, by rw [hkey, fromString_streamName hd], fun t0 t1 ht => ?_⟩
  rw [getPackets_name build (toString_listed hd) (by simp [listed]) ht, answerOf, ← hkey, hget]

/-- The listing stays coherent in every run that admits no stream with a dot in a code or
with a blank code. -/
theorem coherent_of_discoverable (build : Build) (calls : List Call)
    (hc : ∀ packet accepted, .addPacket packet ∈ calls → accept packet = .ok accepted →
      Discoverable (packet.streamIdentifier.getD {})) :
    Coherent build (run build calls) :=
  (Named.run calls hc).coherent

def twoStreams : List Call :=
  [.addPacket (fiveSamples (named "uu" "FTU" "HHZ" "") 0),
    .addPacket (fiveSamples (named "UU" "FTU" "HHN" "01") 10),
    .addPacket (fiveSamples (named "uu" "FTU" "HHZ" "") 10), .removeExpiredPackets 5000000000]

theorem coherent_of_discoverable_twoStreams :
    (run .debug twoStreams).mStreamDequeMap.toList.map
        (fun entry => (entry.1, entry.2.mDeque.length)) =
      [("UU.FTU.HHN.01", 1), ("UU.FTU.HHZ.--", 1)] ∧
    Coherent .debug (run .debug twoStreams) := by
  refine ⟨by decide +kernel, coherent_of_discoverable .debug _ (fun packet accepted hm _ => ?_)⟩
  simp only [twoStreams, List.mem_cons, Call.addPacket.injEq, reduceCtorEq, List.not_mem_nil,
    or_false] at hm
  obtain rfl | rfl | rfl := hm
  all_goals decide +kernel

/-- One packet of a stream with a dot in a code makes every later listing fail. -/
theorem dotted_code_not_listed :
    (StreamDequeMapImpl.construct.addPacket .release
        (fiveSamples (named "A.B" "C" "D" "00") 0) matches .ok () _) ∧
      (run .release [.addPacket (fiveSamples (named "UU" "FTU" "HHZ" "01") 0),
        .addPacket (fiveSamples (named "A.B" "C" "D" "00") 0)]).getAvailableStreams .release =
        .error (.invalidArgument "Unhandled split string size") ∧
      ¬ Coherent .release (run .release [.addPacket (fiveSamples (named "UU" "FTU" "HHZ" "01") 0),
        .addPacket (fiveSamples (named "A.B" "C" "D" "00") 0)]) := by
  have herror : (run .release [.addPacket (fiveSamples (named "UU" "FTU" "HHZ" "01") 0),
      .addPacket (fiveSamples (named "A.B" "C" "D" "00") 0)]).getAvailableStreams .release =
      .error (.invalidArgument "Unhandled split string size") := by
    decide +kernel
  refine ⟨by decide +kernel, herror, ?_⟩
  rintro ⟨identifiers, hok, _⟩
  rw [herror] at hok
  cases hok

end PacketCache.Discovery
