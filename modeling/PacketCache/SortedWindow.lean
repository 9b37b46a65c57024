import Mathlib.Data.List.DropRight
import Mathlib.Data.List.Sort

namespace PacketCache.SortedWindow

variable {α κ : Type*} [LinearOrder κ] (key : α → κ)

def insertKey (a : α) (l : List α) : List α := l.orderedInsert (fun x y => key x ≤ key y) a

def sortKey (l : List α) : List α := l.insertionSort (fun x y => key x ≤ key y)

def newest (n : Nat) (l : List α) : List α := (sortKey key l).rtake n

def Sorted (l : List α) : Prop := l.Pairwise (fun x y => key x ≤ key y)

theorem insertKey_cons_of_le {a b : α} (l : List α) (h : key a ≤ key b) :
    insertKey key a (b :: l) = a :: b :: l := List.orderedInsert_cons_of_le _ l h

theorem insertKey_cons_of_lt {a b : α} (l : List α) (h : key b < key a) :
    insertKey key a (b :: l) = b :: insertKey key a l :=
  List.orderedInsert_of_not_le (r := fun x y => key x ≤ key y) l (not_le.mpr h)

theorem insertKey_append (a : α) (lo hi : List α) (hlo : ∀ x ∈ lo, key x < key a)
    (hhi : ∀ x ∈ hi, key a ≤ key x) : insertKey key a (lo ++ hi) = lo ++ a :: hi := by
  induction lo with
  | nil =>
    cases hi with
    | nil => rfl
    | cons b hi => exact insertKey_cons_of_le key hi (hhi b (by simp))
  | cons b lo ih =>
    rw [List.cons_append, insertKey_cons_of_lt key _ (hlo b (by simp)),
      ih (fun x hx => hlo x (by simp [hx])), List.cons_append]

theorem length_insertKey (a : α) (l : List α) : (insertKey key a l).length = l.length + 1 :=
  List.orderedInsert_length _ l a

theorem mem_insertKey {a b : α} {l : List α} : b ∈ insertKey key a l ↔ b = a ∨ b ∈ l :=
  List.mem_orderedInsert _

theorem sorted_insertKey (a : α) {l : List α} (h : Sorted key l) :
    Sorted key (insertKey key a l) := by
  have : Std.Total (fun x y : α => key x ≤ key y) := ⟨fun x y => le_total (key x) (key y)⟩
  have : IsTrans α (fun x y => key x ≤ key y) := ⟨fun _ _ _ h k => h.trans k⟩
  exact List.Pairwise.orderedInsert a l h

theorem sorted_sortKey (l : List α) : Sorted key (sortKey key l) := by
  induction l with
  | nil => exact List.Pairwise.nil
  | cons a l ih => exact sorted_insertKey key a ih

theorem perm_sortKey (l : List α) : (sortKey key l).Perm l := List.perm_insertionSort _ l

theorem rtake_of_length_le {n : Nat} {l : List α} (h : l.length ≤ n) : l.rtake n = l := by
  rw [List.rtake, Nat.sub_eq_zero_of_le h, List.drop_zero]

theorem length_rtake (n : Nat) (l : List α) : (l.rtake n).length = min n l.length := by
  rw [List.rtake, List.length_drop]
  omega

theorem rtake_cons_of_length_le {n : Nat} {a : α} {l : List α} (h : n ≤ l.length) :
    (a :: l).rtake n = l.rtake n := by
  have hs : l.length + 1 - n = (l.length - n) + 1 := by omega
  rw [List.rtake, List.rtake, List.length_cons, hs, List.drop_succ_cons]

/-- Eviction may be done early: an element dropped from the window of the `n` greatest
is not among the `n` greatest after a further insertion either. -/
theorem rtake_insertKey (n : Nat) (a : α) (l : List α) (h : Sorted key l) :
    (insertKey key a l).rtake n = (insertKey key a (l.rtake n)).rtake n := by
  induction l with
  | nil => simp
  | cons b l ih =>
    obtain ⟨hb, hl⟩ := List.pairwise_cons.mp h
    by_cases hn : n ≤ l.length
    · rw [rtake_cons_of_length_le hn, ← ih hl]
      by_cases hab : key a ≤ key b
      · have hi : insertKey key a l = a :: l :=
          insertKey_append key a [] l (by simp) (fun x hx => hab.trans (hb x hx))
        rw [insertKey_cons_of_le key l hab, hi, rtake_cons_of_length_le (by simp; omega),
          rtake_cons_of_length_le hn, rtake_cons_of_length_le hn]
      · rw [insertKey_cons_of_lt key l (not_le.mp hab),
          rtake_cons_of_length_le (by rw [length_insertKey]; omega)]
    · rw [rtake_of_length_le (l := b :: l) (by simp; omega)]

theorem newest_cons (n : Nat) (a : α) (l : List α) :
    newest key n (a :: l) = (insertKey key a (newest key n l)).rtake n :=
  rtake_insertKey key n a (sortKey key l) (sorted_sortKey key l)

theorem eq_of_perm {l m : List α} (hl : Sorted key l) (hm : Sorted key m) (hp : l.Perm m)
    (hn : (l.map key).Nodup) : l = m := by
  refine List.Perm.eq_of_pairwise ?_ hl hm hp
  intro a b ha hb hab hba
  exact List.inj_on_of_nodup_map hn ha (hp.mem_iff.mpr hb) (le_antisymm hab hba)

theorem sortKey_eq_of_perm {l m : List α} (hp : l.Perm m) (hn : (l.map key).Nodup) :
    sortKey key l = sortKey key m :=
  eq_of_perm key (sorted_sortKey key l) (sorted_sortKey key m)
    (((perm_sortKey key l).trans hp).trans (perm_sortKey key m).symm)
    (((perm_sortKey key l).map key).nodup_iff.mpr hn)

theorem newest_eq_of_perm {l m : List α} (n : Nat) (hp : l.Perm m) (hn : (l.map key).Nodup) :
    newest key n l = newest key n m := by
  rw [newest, newest, sortKey_eq_of_perm key hp hn]

theorem eq_sortKey_of_mem {l m : List α} (hl : Sorted key l) (hn : (l.map key).Nodup)
    (hm : m.Nodup) (h : ∀ a, a ∈ l ↔ a ∈ m) : l = sortKey key m := by
  have hp : l.Perm m := (List.perm_ext_iff_of_nodup hn.of_map hm).mpr h
  exact eq_of_perm key hl (sorted_sortKey key m) (hp.trans (perm_sortKey key m).symm) hn

theorem filter_append_filter (t : κ) {l : List α} (h : Sorted key l) :
    l = l.filter (fun x => key x < t) ++ l.filter (fun x => t ≤ key x) := by
  induction l with
  | nil => rfl
  | cons a l ih =>
    obtain ⟨ha, hl⟩ := List.pairwise_cons.mp h
    by_cases hat : key a < t
    · simpa [List.filter_cons, hat, not_le.mpr hat] using ih hl
    · have hta : t ≤ key a := not_lt.mp hat
      have hlo : l.filter (fun x => key x < t) = [] :=
        List.filter_eq_nil_iff.mpr (fun x hx => by simpa using hta.trans (ha x hx))
      have hhi : l.filter (fun x => t ≤ key x) = l :=
        List.filter_eq_self.mpr (fun x hx => by simpa using hta.trans (ha x hx))
      simp [hat, hta, hlo, hhi]

theorem exists_split (t : κ) {l : List α} (h : Sorted key l) {a : α} (ha : a ∈ l)
    (hat : t ≤ key a) :
    ∃ lo first hi, l = lo ++ first :: hi ∧ (∀ x ∈ lo, key x < t) ∧
      ∀ x ∈ first :: hi, t ≤ key x := by
  have hs := filter_append_filter key t h
  have hmem : a ∈ l.filter (fun x => t ≤ key x) := List.mem_filter.mpr ⟨ha, by simpa using hat⟩
  obtain ⟨first, hi, hc⟩ := List.exists_cons_of_ne_nil (List.ne_nil_of_mem hmem)
  refine ⟨l.filter (fun x => key x < t), first, hi, by rw [← hc]; exact hs,
    fun x hx => by simpa using (List.mem_filter.mp hx).2, fun x hx => ?_⟩
  rw [← hc] at hx
  simpa using (List.mem_filter.mp hx).2

end PacketCache.SortedWindow
