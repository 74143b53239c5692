/-!
# Caches

An evaluator keeps its programs in a cache that it is given. `Cache` is what it asks
of one, and two sets of laws are what it may rely on. `Sound` says that a cache
gives back nothing under a key but what was put there; when it drops an entry is its
own affair. `Lru` says which entries it holds: those that were used last, as many
as there is room for.

Trusted: that a cache from elsewhere obeys `Lru`, as one that drops the least recently
used entry is documented to do. Nothing else is asked of it, and theorems name these
laws as their hypothesis. `Cache.listed` is a cache that has them, and the one that
evaluators use if they are given no other.
-/

namespace Reckon

/-- A cache of values under keys: what it is asked, and what can be seen of it. -/
structure Cache (κ α : Type) where
  State : Type
  /-- A cache without entries, with room for so many. -/
  new : { n : Nat // 0 < n } → State
  /-- The value kept for a key, and the cache after the key was looked up. -/
  get : State → κ → Option α × State
  put : State → κ → α → State
  clear : State → State
  /-- The number of entries. -/
  size : State → Nat
  /-- The entries from the most to the least recent. -/
  entries : State → List (κ × α)
  /-- The number of entries there is room for. -/
  capacity : State → Nat

namespace Cache

variable {κ α : Type}

/-- Nothing is found under a key but what was put there, last or earlier. -/
structure Sound (cache : Cache κ α) : Prop where
  entries_new : ∀ n, cache.entries (cache.new n) = []
  mem_of_get : ∀ {s key value}, (cache.get s key).1 = some value → (key, value) ∈ cache.entries s
  /-- To look a key up adds no entry. -/
  mem_of_mem_get : ∀ {s key entry}, entry ∈ cache.entries (cache.get s key).2 → entry ∈ cache.entries s
  /-- To put a value under a key adds this entry only. -/
  mem_of_mem_put : ∀ {s key value entry}, entry ∈ cache.entries (cache.put s key value) →
    entry = (key, value) ∨ entry ∈ cache.entries s
  entries_clear : ∀ s, cache.entries (cache.clear s) = []

variable [DecidableEq κ]

/-- The entries with the one for a key, if there is one, in front. -/
def promote (key : κ) (entries : List (κ × α)) : List (κ × α) :=
  entries.filter (fun entry => entry.1 = key) ++ entries.filter (fun entry => entry.1 ≠ key)

/-- The entries that were used last are kept, as many as there is room for. -/
structure Lru (cache : Cache κ α) : Prop where
  entries_new : ∀ n, cache.entries (cache.new n) = []
  capacity_new : ∀ n, cache.capacity (cache.new n) = n
  length_le : ∀ s, (cache.entries s).length ≤ cache.capacity s
  /-- No key has two entries. -/
  nodup : ∀ s, ((cache.entries s).map Prod.fst).Nodup
  size_eq : ∀ s, cache.size s = (cache.entries s).length
  get_eq_some : ∀ s key value, (cache.get s key).1 = some value ↔ (key, value) ∈ cache.entries s
  /-- An entry that is looked up becomes the most recent one. -/
  entries_get : ∀ s key, cache.entries (cache.get s key).2 = promote key (cache.entries s)
  capacity_get : ∀ s key, cache.capacity (cache.get s key).2 = cache.capacity s
  /-- So does an entry that is put. It takes the place of an earlier one under its key, and
  the least recent entry is dropped when there is no room for it. -/
  entries_put : ∀ s key value, cache.entries (cache.put s key value) =
    ((key, value) :: (cache.entries s).filter fun entry => entry.1 ≠ key).take (cache.capacity s)
  capacity_put : ∀ s key value, cache.capacity (cache.put s key value) = cache.capacity s
  entries_clear : ∀ s, cache.entries (cache.clear s) = []
  capacity_clear : ∀ s, cache.capacity (cache.clear s) = cache.capacity s

theorem promote_perm (key : κ) (entries : List (κ × α)) : (promote key entries).Perm entries := by
  simpa [promote] using List.filter_append_perm (fun entry : κ × α => decide (entry.1 = key)) entries

end Cache

/-! ## Entries in a list -/

/-- Entries listed from the most to the least recent, no key twice. -/
structure RecencyList (κ α : Type) where
  capacity : Nat
  entries : List (κ × α)
  length_le : entries.length ≤ capacity := by simp
  nodup : (entries.map Prod.fst).Nodup := by simp

namespace RecencyList

variable {κ α : Type}

def empty (capacity : Nat) : RecencyList κ α where
  capacity := capacity
  entries := []

variable [DecidableEq κ]

/-- The value listed for a key, and the list with this entry in front. -/
def get (list : RecencyList κ α) (key : κ) : Option α × RecencyList κ α :=
  let found := list.entries.find? fun entry => entry.1 = key
  let promoted : RecencyList κ α :=
    { capacity := list.capacity
      entries := Cache.promote key list.entries
      length_le := (Cache.promote_perm key list.entries).length_eq ▸ list.length_le
      nodup := ((Cache.promote_perm key list.entries).map Prod.fst).nodup_iff.2 list.nodup }
  (found.map Prod.snd, promoted)

/-- The list with a value for a key in front, cut to its capacity. -/
def put (list : RecencyList κ α) (key : κ) (value : α) : RecencyList κ α where
  capacity := list.capacity
  entries := ((key, value) :: list.entries.filter fun entry => entry.1 ≠ key).take list.capacity
  length_le := List.length_take_le ..
  nodup := by
    have rest : ((list.entries.filter fun entry => entry.1 ≠ key).map Prod.fst).Nodup :=
      list.nodup.sublist (List.filter_sublist.map Prod.fst)
    have all : (((key, value) :: list.entries.filter fun entry => entry.1 ≠ key).map Prod.fst).Nodup := by
      refine List.nodup_cons.2 ⟨fun h => ?_, rest⟩
      obtain ⟨entry, mem, eq⟩ := List.mem_map.1 h
      exact (by simpa using (List.mem_filter.1 mem).2 : entry.1 ≠ key) eq
    exact all.sublist ((List.take_sublist ..).map Prod.fst)

end RecencyList

/-- The cache that lists its entries. -/
def Cache.listed {κ α : Type} [DecidableEq κ] : Cache κ α where
  State := RecencyList κ α
  new n := .empty n
  get := RecencyList.get
  put := RecencyList.put
  clear list := .empty list.capacity
  size list := list.entries.length
  entries := RecencyList.entries
  capacity := RecencyList.capacity

end Reckon
