import PacketCache.Identifiers

namespace PacketCache.StreamNames

open PacketCache.Identifiers PacketCache.Messages PacketCache.Platform

def codes (identifier : StreamIdentifier) : List String :=
  [identifier.network.getD "", identifier.station.getD "", identifier.channel.getD "",
    appendedLocation identifier.locationCode]

def streamName (identifier : StreamIdentifier) : String :=
  normalize (identifier.network.getD "") ++ "." ++ normalize (identifier.station.getD "") ++ "." ++
    normalize (identifier.channel.getD "") ++ "." ++
    normalize (appendedLocation identifier.locationCode)

/-- What is left of the codes when their name is split at its dots. -/
def codePieces (identifier : StreamIdentifier) : List (List Char) :=
  (codes identifier).flatMap (fun code => (normalize code).toList.splitOn '.')

variable {identifier a b canonical : StreamIdentifier} {name : String}

theorem presentCode_ok {field code : String} {value : Option String}
    (h : presentCode field value = .ok code) : value = some code ∧ code ≠ "" := by
  cases value with
  | none => cases h
  | some c =>
    rw [presentCode] at h
    split_ifs at h with he
    obtain rfl := Except.ok.inj h
    exact ⟨rfl, he⟩

theorem presentCode_of_ne {field code : String} (h : code ≠ "") :
    presentCode field (some code) = .ok code := by
  rw [presentCode, if_neg h]

structure Present (identifier : StreamIdentifier) (network station channel : String) : Prop where
  network : identifier.network = some network ∧ network ≠ ""
  station : identifier.station = some station ∧ station ≠ ""
  channel : identifier.channel = some channel ∧ channel ≠ ""

theorem toString_present {network station channel : String}
    (h : Present identifier network station channel) :
    toString identifier = .ok (streamName identifier) := by
  obtain ⟨⟨hn, hn'⟩, ⟨hs, hs'⟩, ⟨hc, hc'⟩⟩ := h
  have hname : normalize (network ++ "." ++ station ++ "." ++ channel ++ "." ++
      appendedLocation identifier.locationCode) = streamName identifier := by
    simp only [streamName, hn, hs, hc, Option.getD_some, normalize_append, normalize_dot]
  rw [Identifiers.toString, hn, hs, hc, presentCode_of_ne hn', presentCode_of_ne hs',
    presentCode_of_ne hc', ← hname]
  rfl

theorem toString_ok (h : toString identifier = .ok name) :
    ∃ network station channel, Present identifier network station channel ∧
      name = streamName identifier := by
  have hname := h
  rw [Identifiers.toString] at h
  obtain ⟨network, hn, h⟩ := bind_eq_ok h
  obtain ⟨station, hs, h⟩ := bind_eq_ok h
  obtain ⟨channel, hc, _⟩ := bind_eq_ok h
  have hp : Present identifier network station channel :=
    ⟨presentCode_ok hn, presentCode_ok hs, presentCode_ok hc⟩
  refine ⟨network, station, channel, hp, ?_⟩
  rw [toString_present hp] at hname
  exact (Except.ok.inj hname).symm

theorem toString_fault {e : Fault} (h : toString identifier = .error e) :
    presentCode "Network" identifier.network = .error e ∨
      presentCode "Station" identifier.station = .error e ∨
      presentCode "Channel" identifier.channel = .error e := by
  rw [Identifiers.toString] at h
  obtain hn | ⟨network, _, h⟩ := bind_eq_error h
  · exact Or.inl hn
  obtain hs | ⟨station, _, h⟩ := bind_eq_error h
  · exact Or.inr (Or.inl hs)
  obtain hc | ⟨channel, _, h⟩ := bind_eq_error h
  · exact Or.inr (Or.inr hc)
  cases h

theorem splitOn_streamName (identifier : StreamIdentifier) :
    (streamName identifier).toList.splitOn '.' = codePieces identifier := by
  have hdot : ".".toList = ['.'] := rfl
  simp only [streamName, codePieces, codes, String.toList_append, hdot, List.append_assoc,
    List.cons_append, List.nil_append, List.splitOn_append_cons_self, List.flatMap_cons,
    List.flatMap_nil, List.append_nil]

theorem streamName_eq_iff : streamName a = streamName b ↔ codePieces a = codePieces b := by
  rw [← splitOn_streamName, ← splitOn_streamName]
  constructor
  · intro h
    rw [h]
  · intro h
    have hjoin := congrArg (List.intercalate ['.']) h
    rw [List.intercalate_splitOn, List.intercalate_splitOn] at hjoin
    exact String.toList_inj.mp hjoin

theorem convertCode_ok {field code : String} {value : Option String}
    (h : convertCode field value = .ok code) :
    ∃ raw, value = some raw ∧ raw ≠ "" ∧ code = normalize raw ∧ code ≠ "" := by
  cases value with
  | none => cases h
  | some raw =>
    simp only [convertCode] at h
    split_ifs at h with he
    obtain rfl := Except.ok.inj h
    rw [eraseSpaces_eq_empty_iff] at he
    refine ⟨raw, rfl, ?_, rfl, he⟩
    rintro rfl
    exact he (by decide)

theorem appendedLocation_some {code : String} (h : code ≠ "") :
    appendedLocation (some code) = code := by
  rw [appendedLocation, if_pos h]

/-- The two treatments of a location code agree unless it is blank. -/
theorem convertLocation_eq (value : Option String) :
    convertLocation value =
      if normalize (appendedLocation value) = "" then "--"
      else normalize (appendedLocation value) := by
  cases value with
  | none => simp [convertLocation, appendedLocation]
  | some code =>
    by_cases he : code = ""
    · subst he
      decide
    · have happ := appendedLocation_some he
      by_cases hb : eraseSpaces code = ""
      · have hb' := (eraseSpaces_eq_empty_iff code).mp hb
        simp [convertLocation, happ, hb, hb']
      · have hb' := (eraseSpaces_eq_empty_iff code).not.mp hb
        simp only [convertLocation, happ, hb, hb', ne_eq, not_false_eq_true, ↓reduceIte]
        rfl

theorem convertIdentifier_ok (h : convertIdentifier identifier = .ok canonical) :
    ∃ network station channel, Present identifier network station channel ∧
      canonical = ⟨some (normalize network), some (normalize station), some (normalize channel),
        some (convertLocation identifier.locationCode)⟩ := by
  rw [convertIdentifier] at h
  obtain ⟨network, hn, h⟩ := bind_eq_ok h
  obtain ⟨station, hs, h⟩ := bind_eq_ok h
  obtain ⟨channel, hc, h⟩ := bind_eq_ok h
  obtain ⟨n, hn1, hn2, rfl, _⟩ := convertCode_ok hn
  obtain ⟨s, hs1, hs2, rfl, _⟩ := convertCode_ok hs
  obtain ⟨c, hc1, hc2, rfl, _⟩ := convertCode_ok hc
  exact ⟨n, s, c, ⟨⟨hn1, hn2⟩, ⟨hs1, hs2⟩, ⟨hc1, hc2⟩⟩, (Except.ok.inj h).symm⟩

theorem toString_of_convertIdentifier (h : convertIdentifier identifier = .ok canonical) :
    toString identifier = .ok (streamName identifier) := by
  obtain ⟨network, station, channel, hp, _⟩ := convertIdentifier_ok h
  exact toString_present hp

theorem convertIdentifier_fields (h : convertIdentifier identifier = .ok canonical) :
    canonical = ⟨some (normalize (identifier.network.getD "")),
      some (normalize (identifier.station.getD "")), some (normalize (identifier.channel.getD "")),
      some (convertLocation identifier.locationCode)⟩ := by
  obtain ⟨network, station, channel, hp, rfl⟩ := convertIdentifier_ok h
  rw [hp.network.1, hp.station.1, hp.channel.1]
  rfl

theorem dot_mem_normalize (code : String) : '.' ∈ (normalize code).toList ↔ '.' ∈ code.toList := by
  rw [toList_normalize, List.mem_map]
  constructor
  · rintro ⟨c, hc, hup⟩
    rw [toUpper_eq_dot hup] at hc
    exact List.mem_of_mem_filter hc
  · intro h
    exact ⟨'.', List.mem_filter.mpr ⟨h, by decide⟩, by decide⟩

theorem codePieces_of_dotless (h : ∀ code ∈ codes identifier, '.' ∉ code.toList) :
    codePieces identifier = (codes identifier).map (fun code => (normalize code).toList) := by
  rw [codePieces, List.map_eq_flatMap]
  apply List.flatMap_congr
  intro code hm
  rw [List.splitOn_eq_singleton]
  exact (dot_mem_normalize code).not.mpr (h code hm)

/-- Where no code has a dot in it, the names of streams that differ are different. -/
theorem codePieces_ne_of_dotless {canonical' : StreamIdentifier}
    (ha : convertIdentifier a = .ok canonical) (hb : convertIdentifier b = .ok canonical')
    (hne : canonical ≠ canonical') (hdotsA : ∀ code ∈ codes a, '.' ∉ code.toList)
    (hdotsB : ∀ code ∈ codes b, '.' ∉ code.toList) : codePieces a ≠ codePieces b := by
  intro h
  rw [codePieces_of_dotless hdotsA, codePieces_of_dotless hdotsB] at h
  simp only [codes, List.map_cons, List.map_nil, List.cons.injEq, String.toList_inj,
    and_true] at h
  obtain ⟨hn, hs, hc, hl⟩ := h
  apply hne
  rw [convertIdentifier_fields ha, convertIdentifier_fields hb, convertLocation_eq,
    convertLocation_eq, hn, hs, hc, hl]

end PacketCache.StreamNames
