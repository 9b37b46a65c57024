import PacketCache.Iterators
import PacketCache.MultiStream
import PacketCache.Reactors

namespace PacketCache.RequestValidation

open PacketCache.Identifiers PacketCache.Iterators PacketCache.MapRuns PacketCache.Messages
open PacketCache.MultiStream PacketCache.Packets PacketCache.Platform PacketCache.Reactors
open PacketCache.Service PacketCache.StreamDeque PacketCache.StreamDequeMap PacketCache.Times

variable {build : Build} {streamRequest : CacheApi.StreamRequest} {request : Request}

def nanoseconds (t : Timestamp) : Int := t.seconds.toInt * 1000000000 + t.nanos.toInt

/-- The timestamps are in order when their nanoseconds are counted in 64 bits, from the
least value of the type on. -/
def InOrder (startTime endTime : Timestamp) : Prop :=
  (nanoseconds startTime + 2 ^ 63) % 2 ^ 64 ≤ (nanoseconds endTime + 2 ^ 63) % 2 ^ 64

/-- The nanos are a fraction of a second, and the nanoseconds fit in 64 bits. -/
structure Normal (t : Timestamp) : Prop where
  nanos : 0 ≤ t.nanos.toInt ∧ t.nanos.toInt < 1000000000
  range : -2 ^ 63 ≤ nanoseconds t ∧ nanoseconds t < 2 ^ 63

structure Sufficient (streamRequest : CacheApi.StreamRequest) : Prop where
  constructed : ∃ request, Request.construct streamRequest = .ok request
  inOrder : ∀ request, Request.construct streamRequest = .ok request →
    request.startAndEndTime.1 ≤ request.startAndEndTime.2
  found : ∀ request, Request.construct streamRequest = .ok request → ∀ build calls e,
    getPackets build (run build calls) request.identifier request.startAndEndTime = .error e →
      e.isException = false

theorem timestampToNanoseconds_le {a b : Timestamp} :
    timestampToNanoseconds a ≤ timestampToNanoseconds b ↔ InOrder a b := by
  rw [timestampToNanoseconds, timestampToNanoseconds, toInt64_eq, toInt64_eq, InOrder,
    nanoseconds, nanoseconds]
  omega

theorem Normal.inOrder {a b : Timestamp} (ha : Normal a) (hb : Normal b)
    (h : timestampGreater a b = false) : InOrder a b := by
  have hle : nanoseconds a ≤ nanoseconds b := by
    simp only [timestampGreater, Bool.or_eq_false_iff, decide_eq_false_iff_not,
      Bool.and_eq_false_iff, Int64.lt_iff_toInt_lt, Int32.lt_iff_toInt_lt, ← Int64.toInt_inj,
      not_lt] at h
    obtain ⟨hs, hn⟩ := h
    have hna := ha.nanos
    have hnb := hb.nanos
    rw [nanoseconds, nanoseconds]
    cases hn with
    | inl hne => omega
    | inr hle => omega
  have hra := ha.range
  have hrb := hb.range
  rw [InOrder, Int.emod_eq_of_lt (by omega) (by omega), Int.emod_eq_of_lt (by omega) (by omega)]
  omega

theorem construct_inOrder (h : Request.construct streamRequest = .ok request) :
    request.startAndEndTime.1 ≤ request.startAndEndTime.2 ↔
      InOrder (streamRequest.startTime.getD {}) (streamRequest.endTime.getD {}) := by
  obtain ⟨name, _, rfl⟩ := Request.construct_eq_ok.mp h
  exact timestampToNanoseconds_le

theorem impl_getPackets_error {self : StreamDequeImpl} {t0 t1 : Int} {e : Fault}
    (h : self.getPackets build (t0, t1) = .error e) : e.isException = false := by
  have hone : ∀ it0, onePacket self.mDeque it0 = .error e → e.isException = false := by
    intro it0 he
    rw [onePacket] at he
    cases hitem : self.mDeque[it0]? <;> simp only [hitem] at he <;> cases he
    rfl
  rw [getPackets_positions] at h
  cases hfirst : firstPosition self.mDeque t0 with
  | none => simp [hfirst] at h
  | some it0 =>
    simp only [hfirst] at h
    split_ifs at h
    · exact hone it0 h
    · exact hone it0 h
    · cases h
      rfl
    · cases h
      rfl

theorem getPackets_no_exception (hv : isValidRequest streamRequest = .ok ())
    (hc : Request.construct streamRequest = .ok request)
    (horder : request.startAndEndTime.1 ≤ request.startAndEndTime.2) (map : StreamDequeMapImpl)
    {e : Fault} (h : getPackets build map request.identifier request.startAndEndTime = .error e) :
    e.isException = false := by
  obtain ⟨identifier, _, _, hid, ⟨hn, hs, hch, hl⟩, _⟩ := isValidRequest_fields hv
  obtain ⟨name, hname, rfl⟩ := Request.construct_eq_ok.mp hc
  simp only [hid, Option.getD_some] at hname h horder
  rw [StreamDequeMap.getPackets, if_neg hn, if_neg hs, if_neg hch, if_neg hl,
    if_neg (not_lt.mpr horder), StreamDequeMapImpl.getPackets, hname] at h
  cases hd : map.mStreamDequeMap[name]? with
  | none => simp [hd] at h
  | some deque =>
    simp only [hd, StreamDeque.getPackets, if_neg (not_lt.mpr horder)] at h
    exact impl_getPackets_error h

/-- The validator is sufficient exactly for the requests without an empty code whose times
are in order in 64 bits, as all normal ones are. -/
theorem isValidRequest_sufficient_iff (streamRequest : CacheApi.StreamRequest)
    (hv : isValidRequest streamRequest = .ok ()) :
    (Sufficient streamRequest ↔ ¬ EmptyCode streamRequest ∧
      InOrder (streamRequest.startTime.getD {}) (streamRequest.endTime.getD {})) ∧
    (Normal (streamRequest.startTime.getD {}) → Normal (streamRequest.endTime.getD {}) →
      InOrder (streamRequest.startTime.getD {}) (streamRequest.endTime.getD {})) := by
  refine ⟨⟨?_, ?_⟩, ?_⟩
  · intro h
    obtain ⟨request, hc⟩ := h.constructed
    exact ⟨construct_ok hc, (construct_inOrder hc).mp (h.inOrder request hc)⟩
  · rintro ⟨hempty, horder⟩
    have hle : ∀ request, Request.construct streamRequest = .ok request →
        request.startAndEndTime.1 ≤ request.startAndEndTime.2 :=
      fun request hc => (construct_inOrder hc).mpr horder
    refine ⟨?_, hle, ?_⟩
    · cases hc : Request.construct streamRequest with
      | ok request => exact ⟨request, rfl⟩
      | error e => exact absurd (construct_error hv hc).2 hempty
    · exact fun request hc build calls e he =>
        getPackets_no_exception hv hc (hle request hc) (run build calls) he
  · intro hstart hend
    obtain ⟨_, startTime, endTime, _, _, hs, he, hgreater⟩ := isValidRequest_fields hv
    simp only [hs, he, Option.getD_some] at hstart hend ⊢
    exact hstart.inOrder hend hgreater

theorem isValidRequest_sufficient_iff_windowed :
    Sufficient (windowed (named "UU" "FTU" "HHZ" "01") 0 9) ↔
      ¬ EmptyCode (windowed (named "UU" "FTU" "HHZ" "01") 0 9) ∧ InOrder ⟨0, 0⟩ ⟨9, 0⟩ :=
  (isValidRequest_sufficient_iff (windowed (named "UU" "FTU" "HHZ" "01") 0 9)
    (by decide +kernel)).1

/-- The validator accepts an empty network code, on which the constructor throws, and a far
end time, with which the window is the wrong way round. -/
theorem accepted_requests_throw :
    isValidRequest (windowed (named "" "FTU" "HHZ" "01") 0 9) = .ok () ∧
      Request.construct (windowed (named "" "FTU" "HHZ" "01") 0 9) =
        .error (.invalidArgument "Network is empty") ∧
      ¬ Sufficient (windowed (named "" "FTU" "HHZ" "01") 0 9) ∧
      isValidRequest (windowed (named "UU" "FTU" "HHZ" "01") 0 10000000000) = .ok () ∧
      ¬ Sufficient (windowed (named "UU" "FTU" "HHZ" "01") 0 10000000000) := by
  have hthrows : Request.construct (windowed (named "" "FTU" "HHZ" "01") 0 9) =
      .error (.invalidArgument "Network is empty") := by rfl
  refine ⟨by decide +kernel, hthrows, ?_, by decide +kernel, ?_⟩
  · intro h
    obtain ⟨request, hc⟩ := h.constructed
    rw [hthrows] at hc
    cases hc
  · intro h
    obtain ⟨request, hc⟩ := h.constructed
    have horder := (construct_inOrder hc).mp (h.inOrder request hc)
    rw [InOrder] at horder
    exact absurd horder (by decide +kernel)

end PacketCache.RequestValidation
