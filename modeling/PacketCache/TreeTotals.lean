import Mathlib.Algebra.BigOperators.Group.List.Basic
import Mathlib.Algebra.GroupWithZero.Nat
import Mathlib.Tactic.SplitIfs
import Std.Data.TreeMap.Lemmas

namespace PacketCache.TreeTotals

open Std (TransCmp LawfulEqCmp TreeMap)

variable {α : Type*} {β γ : Type*} {cmp : α → α → Ordering}

def total (measure : β → Nat) (t : TreeMap α β cmp) : Nat :=
  (t.toList.map (fun entry => measure entry.2)).sum

variable {t t' : TreeMap α β cmp} (measure measure' : β → Nat)

theorem total_perm (h : t.toList.Perm t'.toList) : total measure t = total measure t' :=
  (h.map _).sum_eq

theorem total_add :
    total (fun value => measure value + measure' value) t =
      total measure t + total measure' t :=
  List.sum_map_add

theorem total_map (f : β → γ) (measure : γ → Nat) :
    total measure (t.map (fun _ value => f value)) = total (fun value => measure (f value)) t := by
  rw [total, TreeMap.toList_map, List.map_map]
  rfl

theorem toNat_foldl :
    (t.foldl (fun n _ value => n + UInt32.ofNat (measure value)) 0).toNat =
      total measure t % 2 ^ 32 := by
  have hlist : ∀ (l : List (α × β)) (n : UInt32),
      (l.foldl (fun n entry => n + UInt32.ofNat (measure entry.2)) n).toNat =
        (n.toNat + (l.map (fun entry => measure entry.2)).sum) % 2 ^ 32 := by
    intro l
    induction l with
    | nil => exact fun n => (Nat.mod_eq_of_lt n.toNat_lt).symm
    | cons entry l ih =>
      intro n
      rw [List.foldl_cons, ih, List.map_cons, List.sum_cons, UInt32.toNat_add, UInt32.toNat_ofNat']
      omega
  rw [TreeMap.foldl_eq_foldl_toList, hlist]
  simp [total]

theorem getElem?_same [DecidableEq α] {key : α} {value : β} (h : t[key]? = some value) (other : α) :
    t[other]? = if other = key then some value else t[other]? := by
  split_ifs with he
  · rw [he, h]
  · rfl

section Lookups

variable [TransCmp cmp] [LawfulEqCmp cmp]

theorem nodup_toList (t : TreeMap α β cmp) : t.toList.Nodup := by
  apply List.Pairwise.imp _ (TreeMap.distinct_keys_toList (t := t))
  intro first second h he
  rw [he] at h
  exact h Std.ReflCmp.compare_self

theorem toList_perm (h : ∀ key : α, t[key]? = t'[key]?) : t.toList.Perm t'.toList := by
  apply (List.perm_ext_iff_of_nodup (nodup_toList t) (nodup_toList t')).mpr
  rintro ⟨key, value⟩
  rw [TreeMap.mem_toList_iff_getElem?_eq_some, TreeMap.mem_toList_iff_getElem?_eq_some, h]

variable [DecidableEq α] {key : α} {value : β}

theorem toList_updated
    (h : ∀ other, t'[other]? = if other = key then some value else t[other]?) :
    t'.toList.Perm ((key, value) :: t.toList.filter (fun entry => ¬ key == entry.1)) := by
  refine List.Perm.trans (toList_perm (fun other => ?_)) TreeMap.toList_insert_perm
  simp only [h, TreeMap.getElem?_insert, Std.LawfulEqCmp.compare_eq_iff_eq, @eq_comm _ key]

theorem measure_le_total (h : t[key]? = some value) : measure value ≤ total measure t := by
  have hsplit := ((toList_updated (getElem?_same h)).map (fun entry => measure entry.2)).sum_eq
  simp only [List.map_cons, List.sum_cons] at hsplit
  rw [total]
  omega

theorem total_updated
    (h : ∀ other, t'[other]? = if other = key then some value else t[other]?) :
    total measure t' + (t[key]?.map measure).getD 0 = total measure t + measure value := by
  have hnew := ((toList_updated h).map (fun entry => measure entry.2)).sum_eq
  simp only [List.map_cons, List.sum_cons] at hnew
  cases hold : t[key]? with
  | some old =>
    have hrest := ((toList_updated (getElem?_same hold)).map (fun entry => measure entry.2)).sum_eq
    simp only [List.map_cons, List.sum_cons] at hrest
    simp only [total, Option.map_some, Option.getD_some]
    omega
  | none =>
    have hkept : t.toList.filter (fun entry => ¬ key == entry.1) = t.toList := by
      apply List.filter_eq_self.mpr
      rintro ⟨other, stored⟩ hm
      rw [TreeMap.mem_toList_iff_getElem?_eq_some] at hm
      have hne : key ≠ other := fun he => by simp [← he, hold] at hm
      simpa using hne
    rw [hkept] at hnew
    simp only [total, Option.map_none, Option.getD_none]
    omega

end Lookups

end PacketCache.TreeTotals
