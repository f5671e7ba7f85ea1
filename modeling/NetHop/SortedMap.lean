import Mathlib.Data.List.Sort
import Mathlib.Data.String.Basic
import NetHop.Checked

/-!
# Maps in the order of their keys

A map as an ordered tree gives it out: its entries, each key once, in the order of the
keys.  Collecting a list into a map inserts its entries one after another, and a later
value takes the place of an earlier one.
-/

namespace NetHop

open List

variable {κ α β : Type} [LinearOrder κ]

/-- `BTreeMap`. -/
@[ext] structure SortedMap (κ α : Type) [LinearOrder κ] where
  entries : List (κ × α)
  sorted : entries.Pairwise fun a b => a.1 < b.1

variable {m : SortedMap κ α} {k : κ} {v : α}

namespace SortedMap

instance [DecidableEq α] : DecidableEq (SortedMap κ α) := fun m m' =>
  decidable_of_iff (m.entries = m'.entries) SortedMap.ext_iff.symm

def empty : SortedMap κ α := ⟨[], List.Pairwise.nil⟩

def keys (m : SortedMap κ α) : List κ := m.entries.map (·.1)

def values (m : SortedMap κ α) : List α := m.entries.map (·.2)

def isEmpty (m : SortedMap κ α) : Bool := m.entries.isEmpty

def get? (m : SortedMap κ α) (k : κ) : Option α := m.entries.lookup k

/-- An entry in its place, instead of the entry of its key if there is one. -/
def insertEntry (k : κ) (v : α) : List (κ × α) → List (κ × α)
  | [] => [(k, v)]
  | e :: l =>
    if k < e.1 then (k, v) :: e :: l
    else if k = e.1 then (k, v) :: l
    else e :: insertEntry k v l

variable {l : List (κ × α)}

theorem mem_insertEntry {e : κ × α} (h : e ∈ insertEntry k v l) : e = (k, v) ∨ e ∈ l := by
  fun_induction insertEntry k v l with
  | case1 => exact .inl (mem_singleton.mp h)
  | case2 d l hlt => exact mem_cons.mp h
  | case3 d l hlt heq =>
    rcases mem_cons.mp h with rfl | h
    · exact .inl rfl
    · exact .inr (mem_cons_of_mem _ h)
  | case4 d l hlt hne ih =>
    rcases mem_cons.mp h with rfl | h
    · exact .inr mem_cons_self
    · exact (ih h).imp_right (mem_cons_of_mem _)

theorem pairwise_insertEntry (k : κ) (v : α) (h : l.Pairwise fun a b => a.1 < b.1) :
    (insertEntry k v l).Pairwise fun a b => a.1 < b.1 := by
  induction l with
  | nil => exact pairwise_singleton _ _
  | cons e l ih =>
    obtain ⟨hhead, htail⟩ := pairwise_cons.mp h
    unfold insertEntry
    split_ifs with hlt heq
    · refine pairwise_cons.mpr ⟨fun d hd => ?_, h⟩
      rcases mem_cons.mp hd with rfl | hd
      · exact hlt
      · exact hlt.trans (hhead d hd)
    · exact pairwise_cons.mpr ⟨fun d hd => heq ▸ hhead d hd, htail⟩
    · have hgt : e.1 < k := lt_of_le_of_ne (not_lt.mp hlt) (.symm heq)
      refine pairwise_cons.mpr ⟨fun d hd => ?_, ih htail⟩
      rcases mem_insertEntry hd with rfl | hd
      · exact hgt
      · exact hhead d hd

def insert (m : SortedMap κ α) (k : κ) (v : α) : SortedMap κ α :=
  ⟨insertEntry k v m.entries, pairwise_insertEntry k v m.sorted⟩

variable (f : α → β)

def mapValues (m : SortedMap κ α) : SortedMap κ β :=
  ⟨m.entries.map fun e => (e.1, f e.2), m.sorted.map _ fun _ _ h => h⟩

def collect (l : List (κ × α)) : SortedMap κ α :=
  l.foldl (fun m e => m.insert e.1 e.2) empty

/-! ## Entries -/

@[simp] theorem entries_empty : (empty : SortedMap κ α).entries = [] := rfl

@[simp] theorem entries_insert (m : SortedMap κ α) (k : κ) (v : α) :
    (m.insert k v).entries = insertEntry k v m.entries := rfl

@[simp] theorem entries_mapValues (m : SortedMap κ α) :
    (m.mapValues f).entries = m.entries.map fun e => (e.1, f e.2) := rfl

theorem mem_insertEntry_self (k : κ) (v : α) (l : List (κ × α)) : (k, v) ∈ insertEntry k v l := by
  fun_induction insertEntry k v l with
  | case1 => exact mem_singleton_self _
  | case2 | case3 => exact mem_cons_self
  | case4 e l hlt hne ih => exact mem_cons_of_mem _ ih

theorem mem_insertEntry_of_mem (v : α) {e : κ × α} (h : e ∈ l) (hne : e.1 ≠ k) :
    e ∈ insertEntry k v l := by
  fun_induction insertEntry k v l with
  | case1 => exact absurd h not_mem_nil
  | case2 => exact mem_cons_of_mem _ h
  | case3 d l hlt heq =>
    rcases mem_cons.mp h with rfl | h
    · exact absurd heq.symm hne
    · exact mem_cons_of_mem _ h
  | case4 d l hlt hother ih =>
    rcases mem_cons.mp h with rfl | h
    · exact mem_cons_self
    · exact mem_cons_of_mem _ (ih h)

theorem mem_keys_insert {k' : κ} : k' ∈ (m.insert k v).keys ↔ k' = k ∨ k' ∈ m.keys := by
  simp only [keys, entries_insert, mem_map]
  constructor
  · rintro ⟨e, he, rfl⟩
    rcases mem_insertEntry he with rfl | he
    · exact .inl rfl
    · exact .inr ⟨e, he, rfl⟩
  · intro h
    by_cases heq : k' = k
    · exact ⟨(k, v), mem_insertEntry_self k v m.entries, heq.symm⟩
    · obtain ⟨e, he, rfl⟩ := h.resolve_left heq
      exact ⟨e, mem_insertEntry_of_mem v he heq, rfl⟩

theorem map_insertEntry (k : κ) (v : α) (l : List (κ × α)) :
    (insertEntry k v l).map (fun e => (e.1, f e.2)) =
      insertEntry k (f v) (l.map fun e => (e.1, f e.2)) := by
  fun_induction insertEntry k v l with
  | case1 => rfl
  | case2 e l hlt => rw [map_cons, map_cons, insertEntry, if_pos hlt]
  | case3 e l hlt heq => rw [map_cons, map_cons, insertEntry, if_neg hlt, if_pos heq]
  | case4 e l hlt hne ih =>
    rw [map_cons, map_cons, insertEntry, if_neg hlt, if_neg hne, ih]

theorem mapValues_insert (m : SortedMap κ α) (k : κ) (v : α) :
    (m.insert k v).mapValues f = (m.mapValues f).insert k (f v) :=
  SortedMap.ext (map_insertEntry f k v m.entries)

@[simp] theorem keys_mapValues (m : SortedMap κ α) : (m.mapValues f).keys = m.keys := by
  rw [keys, entries_mapValues, map_map]
  rfl

theorem insertEntry_of_forall_lt (h : ∀ e ∈ l, e.1 < k) : insertEntry k v l = l ++ [(k, v)] := by
  induction l with
  | nil => rfl
  | cons e l ih =>
    have hlt := h e mem_cons_self
    rw [insertEntry, if_neg (not_lt.mpr hlt.le), if_neg hlt.ne',
      ih fun d hd => h d (mem_cons_of_mem _ hd), cons_append]

theorem entries_foldl_insert (m : SortedMap κ α)
    (h : (m.entries ++ l).Pairwise fun a b => a.1 < b.1) :
    (l.foldl (fun m e => m.insert e.1 e.2) m).entries = m.entries ++ l := by
  induction l generalizing m with
  | nil => rw [foldl_nil, append_nil]
  | cons e l ih =>
    have hlast : ∀ d ∈ m.entries, d.1 < e.1 := fun d hd =>
      (pairwise_append.mp h).2.2 d hd e mem_cons_self
    have hentries : (m.insert e.1 e.2).entries = m.entries ++ [e] := insertEntry_of_forall_lt hlast
    rw [foldl_cons, ih _ (by rwa [hentries, append_assoc]), hentries,
      append_assoc, singleton_append]

theorem entries_collect (h : l.Pairwise fun a b => a.1 < b.1) : (collect l).entries = l :=
  entries_foldl_insert empty h

theorem mapValues_collect {f : β → α} {l : List (κ × β)}
    (h : List.Forall₂ (fun e d => (d.1, f d.2) = e) m.entries l) : (collect l).mapValues f = m := by
  have hmap : l.map (fun d => (d.1, f d.2)) = m.entries := forall₂_iff_map_eq.mp h
  have hkeys : m.keys.Pairwise (· < ·) := pairwise_map.mpr m.sorted
  rw [keys, ← hmap, map_map] at hkeys
  apply SortedMap.ext
  rw [entries_mapValues, entries_collect (pairwise_map.mp hkeys), hmap]

theorem nodup_keys (m : SortedMap κ α) : m.keys.Nodup :=
  pairwise_map.mpr (m.sorted.imp fun h => h.ne)

/-! ## Looking up -/

theorem lookup_cons (k : κ) (e : κ × α) (l : List (κ × α)) :
    (e :: l).lookup k = if k = e.1 then some e.2 else l.lookup k := by
  rw [List.lookup_cons]
  by_cases h : k = e.1
  · rw [if_pos h, beq_iff_eq.mpr h]
  · rw [if_neg h, beq_eq_false_iff_ne.mpr h]

theorem lookup_insertEntry (k k' : κ) (v : α) (l : List (κ × α)) :
    (insertEntry k v l).lookup k' = if k' = k then some v else l.lookup k' := by
  fun_induction insertEntry k v l with
  | case1 | case2 e l hlt => rw [lookup_cons]
  | case3 e l hlt heq =>
    rw [lookup_cons, lookup_cons, ← heq]
    by_cases h : k' = k
    · rw [if_pos h, if_pos h]
    · rw [if_neg h, if_neg h, if_neg h]
  | case4 e l hlt hne ih =>
    rw [lookup_cons, lookup_cons, ih]
    by_cases h : k' = k
    · rw [if_pos h, if_pos h, if_neg fun heq => hne (h.symm.trans heq)]
    · rw [if_neg h, if_neg h]

theorem get?_insert (m : SortedMap κ α) (k k' : κ) (v : α) :
    (m.insert k v).get? k' = if k' = k then some v else m.get? k' :=
  lookup_insertEntry k k' v m.entries

theorem insertEntry_eq_self (hsorted : l.Pairwise fun a b => a.1 < b.1) (h : l.lookup k = some v) :
    insertEntry k v l = l := by
  induction l with
  | nil => cases h
  | cons e l ih =>
    obtain ⟨hhead, htail⟩ := pairwise_cons.mp hsorted
    rw [lookup_cons] at h
    split at h
    · next heq =>
      cases h
      rw [insertEntry, if_neg heq.not_lt, if_pos heq, heq]
    · next hne =>
      obtain ⟨before, after, hl, -⟩ := lookup_eq_some_iff.mp h
      have hlt : e.1 < k := hhead (k, v) (by simp [hl])
      rw [insertEntry, if_neg hlt.not_gt, if_neg hne, ih htail h]

theorem insert_eq_self_iff {w : α} (h : m.get? k = some w) : m.insert k v = m ↔ v = w := by
  constructor
  · intro heq
    have hget := get?_insert m k k v
    rw [heq, h, if_pos rfl] at hget
    exact (Option.some.inj hget).symm
  · rintro rfl
    exact SortedMap.ext (insertEntry_eq_self m.sorted h)

theorem get?_foldl_insert (l : List (κ × α)) (m : SortedMap κ α) (k : κ) :
    (l.foldl (fun m e => m.insert e.1 e.2) m).get? k = (l.reverse.lookup k).or (m.get? k) := by
  induction l generalizing m with
  | nil => rfl
  | cons e l ih =>
    rw [foldl_cons, ih, get?_insert, reverse_cons, List.lookup_append, lookup_cons, Option.or_assoc]
    by_cases h : k = e.1
    · rw [if_pos h, if_pos h, Option.some_or]
    · rw [if_neg h, if_neg h, List.lookup_nil, Option.none_or]

theorem get?_collect (l : List (κ × α)) (k : κ) : (collect l).get? k = l.reverse.lookup k := by
  rw [collect, get?_foldl_insert]
  exact Option.or_none

end SortedMap

end NetHop
