import Mathlib.Data.List.Dedup
import Mathlib.Data.List.Nodup
import Reckon.Cache
/-!
# Caches that keep what was used last

The laws of `Cache.Lru` hold of the cache that lists its entries, and they contain
those of `Cache.Sound`. To use a key is the same operation whether it is looked up or
put: its entry goes to the front, and the others keep their order. `dedup_concat`
says that this is how a history without repetitions grows, and `cons_filter_take`
that it may be cut to a length before or after.
-/

namespace Reckon

/-! ## Lists in the order of use -/

section Lists

variable {α : Type} [DecidableEq α]

theorem filter_ne_of_notMem {a : α} {l : List α} (h : a ∉ l) : l.filter (· ≠ a) = l := by
  refine List.filter_eq_self.2 fun b hb => decide_eq_true ?_
  rintro rfl
  exact h hb

theorem dedup_concat (l : List α) (a : α) :
    (l ++ [a]).dedup.reverse = a :: l.dedup.reverse.filter (· ≠ a) := by
  induction l with
  | nil => rfl
  | cons b l ih =>
    rw [List.cons_append]
    by_cases hb : b ∈ l
    · rw [List.dedup_cons_of_mem hb, List.dedup_cons_of_mem (List.mem_append_left _ hb), ih]
    · rw [List.dedup_cons_of_notMem hb, List.reverse_cons, List.filter_append]
      by_cases he : b = a
      · -- The use of `a` at the end replaces the earlier one.
        subst he
        rw [List.dedup_cons_of_mem (List.mem_append_right _ (List.mem_singleton_self b)), ih]
        simp
      · have hn : b ∉ l ++ [a] := by simp [hb, he]
        rw [List.dedup_cons_of_notMem hn, List.reverse_cons, ih]
        simp [he]

theorem filter_take_succ (a : α) {l : List α} (hl : l.Nodup) (n : Nat) :
    ((l.take (n + 1)).filter (· ≠ a)).take n = (l.filter (· ≠ a)).take n := by
  induction l generalizing n with
  | nil => rfl
  | cons b l ih =>
    obtain ⟨hb, hl⟩ := List.nodup_cons.1 hl
    rw [List.take_succ_cons]
    by_cases he : b = a
    · -- `a` gives up its place to the last key of the longer front.
      subst he
      rw [List.filter_cons_of_neg (by simp), List.filter_cons_of_neg (by simp), filter_ne_of_notMem hb,
        filter_ne_of_notMem (fun h => hb (List.mem_of_mem_take h)), List.take_take, Nat.min_self]
    · rw [List.filter_cons_of_pos (by simp [he]), List.filter_cons_of_pos (by simp [he])]
      cases n with
      | zero => rfl
      | succ n => rw [List.take_succ_cons, List.take_succ_cons, ih hl n]

/-- With one key put in front, it does not matter whether the last of the others
was cut before. -/
theorem cons_filter_take (a : α) {l : List α} (hl : l.Nodup) (n : Nat) :
    (a :: (l.take n).filter (· ≠ a)).take n = (a :: l.filter (· ≠ a)).take n := by
  cases n with
  | zero => rfl
  | succ n => rw [List.take_succ_cons, List.take_succ_cons, filter_take_succ a hl]

end Lists

namespace Cache

variable {κ α : Type} [DecidableEq κ]

/-! ## The entry in front -/

theorem map_fst_filter (key : κ) (entries : List (κ × α)) :
    (entries.filter fun entry => entry.1 ≠ key).map Prod.fst = (entries.map Prod.fst).filter (· ≠ key) := by
  rw [List.filter_map]
  rfl

theorem filter_eq_nil_of_notMem {key : κ} {entries : List (κ × α)} (h : key ∉ entries.map Prod.fst) :
    entries.filter (fun entry => entry.1 = key) = [] := by
  refine List.filter_eq_nil_iff.2 fun entry hm => ?_
  rw [decide_eq_true_eq]
  rintro rfl
  exact h (List.mem_map_of_mem hm)

/-- A key without an entry leaves the others as they are. -/
theorem promote_of_notMem {key : κ} {entries : List (κ × α)} (h : key ∉ entries.map Prod.fst) :
    promote key entries = entries := by
  have hrest : entries.filter (fun entry => entry.1 ≠ key) = entries := by
    refine List.filter_eq_self.2 fun entry hm => decide_eq_true ?_
    rintro rfl
    exact h (List.mem_map_of_mem hm)
  rw [promote, filter_eq_nil_of_notMem h, hrest, List.nil_append]

/-- An entry comes first when its key is used, as if it was put again. -/
theorem promote_of_mem {key : κ} {value : α} {entries : List (κ × α)} (hn : (entries.map Prod.fst).Nodup)
    (h : (key, value) ∈ entries) :
    promote key entries = (key, value) :: entries.filter fun entry => entry.1 ≠ key := by
  have hone : entries.filter (fun entry => entry.1 = key) = [(key, value)] := by
    induction entries with
    | nil => cases h
    | cons entry entries ih =>
      obtain ⟨hnot, hn⟩ := List.nodup_cons.1 hn
      rcases List.mem_cons.1 h with rfl | h
      · rw [List.filter_cons_of_pos (by simp), filter_eq_nil_of_notMem hnot]
      · have hne : entry.1 ≠ key := by
          rintro rfl
          exact hnot (List.mem_map.2 ⟨(entry.1, value), h, rfl⟩)
        rw [List.filter_cons_of_neg (by simpa using hne), ih hn h]
  rw [promote, hone]
  rfl

/-! ## The laws -/

theorem Lru.sound {cache : Cache κ α} (laws : cache.Lru) : cache.Sound where
  entries_new := laws.entries_new
  mem_of_get {s key value} h := (laws.get_eq_some s key value).1 h
  mem_of_mem_get {s key entry} h := by
    rw [laws.entries_get] at h
    exact (promote_perm key _).mem_iff.1 h
  mem_of_mem_put {s key value entry} h := by
    rw [laws.entries_put] at h
    rcases List.mem_cons.1 (List.mem_of_mem_take h) with h | h
    · exact .inl h
    · exact .inr (List.mem_filter.1 h).1
  entries_clear := laws.entries_clear

theorem Lru.get_eq_none_iff {cache : Cache κ α} (laws : cache.Lru) (s : cache.State) (key : κ) :
    (cache.get s key).1 = none ↔ key ∉ (cache.entries s).map Prod.fst := by
  constructor
  · intro h hm
    obtain ⟨⟨key', value⟩, hentry, rfl⟩ := List.mem_map.1 hm
    rw [(laws.get_eq_some s key' value).2 hentry] at h
    cases h
  · intro h
    cases hg : (cache.get s key).1 with
    | none => rfl
    | some value => exact absurd (List.mem_map_of_mem ((laws.get_eq_some s key value).1 hg)) h

theorem find_eq_some_iff {entries : List (κ × α)} (hn : (entries.map Prod.fst).Nodup) (key : κ) (value : α) :
    (entries.find? fun entry => entry.1 = key).map Prod.snd = some value ↔ (key, value) ∈ entries := by
  constructor
  · intro h
    obtain ⟨⟨key', value'⟩, hf, rfl⟩ := Option.map_eq_some_iff.1 h
    have hkey : key' = key := by simpa using List.find?_some hf
    rw [← hkey]
    exact List.mem_of_find?_eq_some hf
  · intro h
    cases hf : entries.find? fun entry => entry.1 = key with
    | none =>
      have hne := List.find?_eq_none.1 hf (key, value) h
      simp at hne
    | some entry =>
      have hkey : entry.1 = key := by simpa using List.find?_some hf
      rw [List.inj_on_of_nodup_map hn (List.mem_of_find?_eq_some hf) h hkey]
      rfl

/-- The cache that lists its entries has all the laws. -/
theorem lru_listed : (listed : Cache κ α).Lru where
  entries_new _ := rfl
  capacity_new _ := rfl
  length_le := RecencyList.length_le
  nodup := RecencyList.nodup
  size_eq _ := rfl
  get_eq_some s := find_eq_some_iff (RecencyList.nodup s)
  entries_get _ _ := rfl
  capacity_get _ _ := rfl
  entries_put _ _ _ := rfl
  capacity_put _ _ _ := rfl
  entries_clear _ := rfl
  capacity_clear _ := rfl

end Cache

end Reckon
