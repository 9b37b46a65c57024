import Mathlib.Data.List.Basic
import PacketCache.Messages
import PacketCache.Platform

namespace PacketCache.Identifiers

open PacketCache.Messages PacketCache.Platform

/-- `::isspace` in the C locale: the blank and the control characters 9 to 13. -/
def isspace (c : Char) : Bool := c.toNat = 32 || (9 ≤ c.toNat && c.toNat ≤ 13)

def eraseSpaces (s : String) : String := String.ofList (s.toList.filter (fun c => !isspace c))

def toUpper (s : String) : String := String.ofList (s.toList.map Char.toUpper)

def presentCode (field : String) : Option String → Except Fault String
  | none => .error (.invalidArgument (field ++ " not set"))
  | some code =>
    if code = "" then .error (.invalidArgument (field ++ " is empty")) else .ok code

/-- The location code is tested before its blanks are erased. -/
def appendedLocation : Option String → String
  | some code => if code ≠ "" then code else "--"
  | none => "--"

def toString (identifier : StreamIdentifier) : Except Fault String := do
  let network ← presentCode "Network" identifier.network
  let station ← presentCode "Station" identifier.station
  let channel ← presentCode "Channel" identifier.channel
  let result := network ++ "." ++ station ++ "." ++ channel ++ "." ++
    appendedLocation identifier.locationCode
  return toUpper (eraseSpaces result)

def fromString (identifier : String) : Except Fault StreamIdentifier :=
  match (identifier.toList.splitOn '.').map String.ofList with
  | [network, station, channel] => .ok ⟨some network, some station, some channel, some "--"⟩
  | [network, station, channel, locationCode] =>
    .ok ⟨some network, some station, some channel, some locationCode⟩
  | _ => .error (.invalidArgument "Unhandled split string size")

def convertCode (field : String) : Option String → Except Fault String
  | none => .error (.invalidArgument (field ++ " not set"))
  | some code =>
    let work := eraseSpaces code
    if work = "" then .error (.invalidArgument (field ++ " is blank")) else .ok (toUpper work)

/-- The location code is tested after its blanks are erased. -/
def convertLocation : Option String → String
  | some code =>
    let work := eraseSpaces code
    if work ≠ "" then toUpper work else "--"
  | none => "--"

def convertIdentifier (identifier : StreamIdentifier) : Except Fault StreamIdentifier := do
  let network ← convertCode "Network" identifier.network
  let station ← convertCode "Station" identifier.station
  let channel ← convertCode "Channel" identifier.channel
  return ⟨some network, some station, some channel, some (convertLocation identifier.locationCode)⟩

def normalize (s : String) : String := toUpper (eraseSpaces s)

theorem toNat_toUpper (c : Char) : c.toUpper.toNat =
    if 97 ≤ c.toNat ∧ c.toNat ≤ 122 then c.toNat - 32 else c.toNat := by
  have hiff : ('a'.val ≤ c.val ∧ c.val ≤ 'z'.val) ↔ 97 ≤ c.toNat ∧ c.toNat ≤ 122 := by
    rw [UInt32.le_iff_toNat_le, UInt32.le_iff_toNat_le]
    rfl
  delta Char.toUpper
  split_ifs with hval hnat hnat
  · have hadd : (c.val + ('A'.val - 'a'.val)).toNat =
        (c.val.toNat + ('A'.val - 'a'.val).toNat) % 4294967296 := UInt32.toNat_add _ _
    have hback : ('A'.val - 'a'.val).toNat = 4294967264 := by decide
    have hc : c.val.toNat = c.toNat := rfl
    rw [hback, hc] at hadd
    exact hadd.trans (by omega)
  · exact absurd (hiff.mp hval) hnat
  · exact absurd (hiff.mpr hnat) hval
  · rfl

theorem isspace_toUpper {c : Char} (h : isspace c = false) : isspace c.toUpper = false := by
  simp only [isspace, Bool.or_eq_false_iff, Bool.and_eq_false_iff, decide_eq_false_iff_not] at h ⊢
  rw [toNat_toUpper]
  split_ifs <;> omega

theorem toUpper_toUpper (c : Char) : c.toUpper.toUpper = c.toUpper := by
  apply Char.toNat_inj.mp
  rw [toNat_toUpper, toNat_toUpper]
  grind

theorem toUpper_eq_dot {c : Char} (h : c.toUpper = '.') : c = '.' := by
  have hnat := congrArg Char.toNat h
  rw [toNat_toUpper] at hnat
  have hdot : '.'.toNat = 46 := rfl
  exact Char.toNat_inj.mp (by grind)

theorem toList_normalize (s : String) :
    (normalize s).toList = (s.toList.filter (fun c => !isspace c)).map Char.toUpper := by
  simp [normalize, toUpper, eraseSpaces]

theorem normalize_normalize (s : String) : normalize (normalize s) = normalize s := by
  apply String.toList_inj.mp
  rw [toList_normalize (normalize s), toList_normalize s]
  have hkept : ((s.toList.filter (fun c => !isspace c)).map Char.toUpper).filter
      (fun c => !isspace c) = (s.toList.filter (fun c => !isspace c)).map Char.toUpper := by
    apply List.filter_eq_self.mpr
    intro c hc
    obtain ⟨d, hd, rfl⟩ := List.mem_map.mp hc
    have hs : isspace d = false := by simpa using (List.mem_filter.mp hd).2
    rw [isspace_toUpper hs]
    rfl
  rw [hkept, List.map_map]
  exact List.map_congr_left (fun c _ => toUpper_toUpper c)

theorem normalize_append (s t : String) : normalize (s ++ t) = normalize s ++ normalize t := by
  apply String.toList_inj.mp
  simp [toList_normalize]

@[simp] theorem normalize_dot : normalize "." = "." := by decide

@[simp] theorem normalize_dashes : normalize "--" = "--" := by decide

theorem normalize_eq_empty_iff (s : String) :
    normalize s = "" ↔ ∀ c ∈ s.toList, isspace c := by
  rw [← String.toList_inj, toList_normalize]
  simp

theorem normalize_ne_of_nonblank {s : String} (h : ∃ c ∈ s.toList, isspace c = false) :
    normalize s ≠ "" := by
  obtain ⟨c, hc, hs⟩ := h
  rw [ne_eq, normalize_eq_empty_iff]
  exact fun hall => by simp [hall c hc] at hs

theorem eraseSpaces_eq_empty_iff (s : String) : eraseSpaces s = "" ↔ normalize s = "" := by
  rw [normalize_eq_empty_iff, ← String.toList_inj]
  simp [eraseSpaces]

end PacketCache.Identifiers
