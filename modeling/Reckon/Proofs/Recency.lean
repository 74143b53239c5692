import Mathlib.Data.Finset.Card
import Mathlib.Data.List.DropRight
import Reckon.Proofs.Caches
import Reckon.Proofs.Compilation
import Reckon.Proofs.Serving
/-!
# What the cache holds

A cache that keeps what was used last is a function of the requests that were made:
it holds the plain texts that were compiled or evaluated since the last clear, as far
as they compile, by their last use and cut to the size. `cache_history` says so for
every run over every such cache, and what follows for hits, for requests that leave
no trace and for larger caches.

One request changes the keys as `Request.remember` says, whatever the size is. To
cut the keys before it or only after it is the same, which carries the invariant.
Nothing is seen of a cache but its entries, so evaluators that hold the same entries
answer alike (`Alike`).
-/

namespace Reckon

/-! ## Records of the cache -/

def Event.aboutCache : Event → Bool
  | .hit _ | .miss _ => true
  | .dropped _ | .overflow _ => false

/-- To compile a plain text has nothing to do with the cache. -/
theorem Program.compilePlain_events (plain : Text) :
    (compilePlain plain).events.filter Event.aboutCache = [] := by
  by_cases hp : ∀ c ∈ plain, isPlain c = true
  · rw [compilePlain_eq hp]
    by_cases ha : ∀ l ∈ Lexeme.cut plain, Lexeme.Allowed l
    · rw [assemble_of_allowed (fun l hl => Lexeme.shaped_of_mem_cut hp hl) ha, List.filter_map]
      exact List.map_eq_nil_iff.2 (List.filter_eq_nil_iff.2 (fun word _ => Bool.false_ne_true))
    · obtain ⟨front, l, rest, heq, hf, hl⟩ := Lexeme.exists_first_not_allowed ha
      rw [heq, assemble_of_not_allowed hf hl]
      show (if _ then _ else _ : List Event).filter Event.aboutCache = []
      split <;> rfl
  · rw [compilePlain, ofPlain, Lexeme.split_eq_error hp]
    rfl

namespace Evaluator

variable {cache : Cache Text Program}

/-! ## The history -/

def Request.isClear : Request → Bool
  | .clear => true
  | _ => false

/-- The key that a request leaves its program under. -/
def Request.key? : Request → Option Text
  | .compile text | .evaluate text => if (Program.compile text).value.isOk then some text.toPlain else none
  | .execute _ | .clear => none

/-- The keys used since the last clear, in the order of their use. -/
def used (requests : List Request) : List Text := (requests.rtakeWhile (!·.isClear)).filterMap Request.key?

/-- The keys in use, each once, from the one used last to the one used first. -/
def recent (requests : List Request) : List Text := (used requests).dedup.reverse

/-- What a request makes of the keys before it, if there is room for all. -/
def Request.remember (request : Request) (keys : List Text) : List Text :=
  if request.isClear then []
  else match request.key? with
    | some key => key :: keys.filter (· ≠ key)
    | none => keys

theorem Request.remember_compile_ok {t : Text} {p : Program} (h : (Program.compile t).value = .ok p) (keys : List Text) :
    (Request.compile t).remember keys = t.toPlain :: keys.filter (· ≠ t.toPlain) := by
  simp [remember, isClear, key?, h, Except.isOk, Except.toBool]

theorem Request.remember_compile_error {t : Text} {r : Rejection} (h : (Program.compile t).value = .error r)
    (keys : List Text) : (Request.compile t).remember keys = keys := by
  simp [remember, isClear, key?, h, Except.isOk, Except.toBool]

theorem Request.remember_evaluate (t : Text) (keys : List Text) :
    (Request.evaluate t).remember keys = (Request.compile t).remember keys := by
  have hkey : (Request.evaluate t).key? = (Request.compile t).key? := by simp only [key?]
  unfold remember
  rw [hkey]
  rfl

theorem nodup_recent (requests : List Request) : (recent requests).Nodup :=
  List.nodup_reverse.2 (List.nodup_dedup _)

theorem length_recent (requests : List Request) : (recent requests).length = (used requests).toFinset.card := by
  rw [recent, List.length_reverse, List.card_toFinset]

theorem recent_concat (requests : List Request) (request : Request) :
    recent (requests ++ [request]) = request.remember (recent requests) := by
  unfold recent used Request.remember
  cases hc : request.isClear with
  | true =>
    rw [List.rtakeWhile_concat_neg _ _ _ (by simp [hc])]
    rfl
  | false =>
    rw [List.rtakeWhile_concat_pos _ _ _ (by simp [hc]), List.filterMap_append]
    cases hk : request.key? with
    | none => simp [hk]
    | some key =>
      have hone : [request].filterMap Request.key? = [key] := by simp [hk]
      rw [hone, dedup_concat]
      rfl

theorem Request.remember_take (request : Request) {keys : List Text} (hk : keys.Nodup) (n : Nat) :
    (request.remember (keys.take n)).take n = (request.remember keys).take n := by
  unfold remember
  split
  · rfl
  · split
    · exact cons_filter_take _ hk n
    · rw [List.take_take, Nat.min_self]

/-! ## The cache of an evaluator -/

/-- The keys from the most recent to the least recent. -/
def keys (e : Evaluator cache) : List Text := e.entries.map Prod.fst

/-- How many programs there is room for. -/
def capacity (e : Evaluator cache) : Nat := e.programs.elim 0 cache.capacity

section Lru
variable (laws : cache.Lru)
include laws

theorem capacity_ofSize (size : Nat) : (ofSize size : Evaluator cache).capacity = size := by
  by_cases h : 0 < size
  · rw [ofSize, dif_pos h]
    exact laws.capacity_new ⟨size, h⟩
  · rw [ofSize, dif_neg h]
    exact (Nat.eq_zero_of_not_pos h).symm

theorem nodup_keys (e : Evaluator cache) : e.keys.Nodup := by
  obtain ⟨none | s⟩ := e
  · exact List.nodup_nil
  · exact laws.nodup s

theorem length_entries_le (e : Evaluator cache) : e.entries.length ≤ e.capacity := by
  obtain ⟨none | s⟩ := e
  · exact Nat.le_refl 0
  · exact laws.length_le s

theorem cached_eq (e : Evaluator cache) : e.cached = e.entries.length := by
  obtain ⟨none | s⟩ := e
  · rfl
  · exact laws.size_eq s

theorem find_eq_some_iff (e : Evaluator cache) (plain : Text) (program : Program) :
    (e.find plain).1 = some program ↔ (plain, program) ∈ e.entries := by
  obtain ⟨none | s⟩ := e
  · simp [find, entries]
  · exact laws.get_eq_some s plain program

theorem find_eq_none_iff (e : Evaluator cache) (plain : Text) : (e.find plain).1 = none ↔ plain ∉ e.keys := by
  obtain ⟨none | s⟩ := e
  · simp [find, keys, entries]
  · exact laws.get_eq_none_iff s plain

theorem entries_find (e : Evaluator cache) (plain : Text) :
    (e.find plain).2.entries = Cache.promote plain e.entries := by
  obtain ⟨none | s⟩ := e
  · rfl
  · exact laws.entries_get s plain

theorem capacity_find (e : Evaluator cache) (plain : Text) : (e.find plain).2.capacity = e.capacity := by
  obtain ⟨none | s⟩ := e
  · rfl
  · exact laws.capacity_get s plain

theorem entries_store (e : Evaluator cache) (program : Program) : (e.store program).entries =
    ((program.text, program) :: e.entries.filter fun entry => entry.1 ≠ program.text).take e.capacity := by
  obtain ⟨none | s⟩ := e
  · rfl
  · exact laws.entries_put s program.text program

theorem capacity_store (e : Evaluator cache) (program : Program) : (e.store program).capacity = e.capacity := by
  obtain ⟨none | s⟩ := e
  · rfl
  · exact laws.capacity_put s program.text program

theorem capacity_clear (e : Evaluator cache) : e.clear.capacity = e.capacity := by
  obtain ⟨none | s⟩ := e
  · rfl
  · exact laws.capacity_clear s

/-! ## The keys after a request -/

theorem entries_find_of_notMem {e : Evaluator cache} {plain : Text} (h : plain ∉ e.keys) :
    (e.find plain).2.entries = e.entries := by
  rw [entries_find laws, Cache.promote_of_notMem h]

/-- Found or put, a program becomes the most recent entry. -/
theorem entries_keep_ok {e : Evaluator cache} (he : Faithful e) {plain : Text} {p : Program}
    (h : (Program.compilePlain plain).value = .ok p) : (e.keep plain).entries =
      ((plain, p) :: e.entries.filter fun entry => entry.1 ≠ plain).take e.capacity := by
  unfold keep
  rw [h]
  cases hg : (e.find plain).1 with
  | some q =>
    -- What was found is this program, and its entry is moved to where it would be put.
    have hmem : (plain, q) ∈ e.entries := (find_eq_some_iff laws e plain q).1 hg
    have hq : (Program.compilePlain plain).value = .ok q := he (plain, q) hmem
    rw [h] at hq
    cases hq
    have hfront := Cache.promote_of_mem (nodup_keys laws e) hmem
    have hlength : (Cache.promote plain e.entries).length ≤ e.capacity := by
      rw [(Cache.promote_perm plain e.entries).length_eq]
      exact length_entries_le laws e
    show (e.find plain).2.entries = _
    rw [entries_find laws, ← hfront, List.take_of_length_le hlength]
  | none =>
    show ((e.find plain).2.store p).entries = _
    rw [entries_store laws, capacity_find laws,
      entries_find_of_notMem laws ((find_eq_none_iff laws e plain).1 hg), Program.text_of_compilePlain h]

/-- A text that does not compile leaves the entries as they are. -/
theorem entries_keep_error {e : Evaluator cache} (he : Faithful e) {plain : Text} {r : Rejection}
    (h : (Program.compilePlain plain).value = .error r) : (e.keep plain).entries = e.entries := by
  -- Such a text is no key, so looking it up moves nothing.
  have hnot : plain ∉ e.keys := by
    intro hm
    obtain ⟨entry, hentry, rfl⟩ := List.mem_map.1 hm
    rw [he entry hentry] at h
    cases h
  unfold keep
  rw [(find_eq_none_iff laws e plain).2 hnot, h]
  exact entries_find_of_notMem laws hnot

theorem capacity_after (e : Evaluator cache) (request : Request) : (e.after request).capacity = e.capacity := by
  have hkeep : ∀ plain : Text, (e.keep plain).capacity = e.capacity := by
    intro plain
    unfold keep
    split
    · rw [capacity_store laws, capacity_find laws]
    · exact capacity_find laws e plain
  cases request with
  | compile text => exact hkeep text.toPlain
  | evaluate text => exact hkeep text.toPlain
  | execute program => rfl
  | clear => exact capacity_clear laws e

/-- Whatever the size is, a request does to the keys what `remember` says. -/
theorem keys_after {e : Evaluator cache} (he : Faithful e) (request : Request) :
    (e.after request).keys = (request.remember e.keys).take e.capacity := by
  have hcut : e.keys = e.keys.take e.capacity := by
    rw [List.take_of_length_le]
    rw [keys, List.length_map]
    exact length_entries_le laws e
  have hkeep : ∀ t : Text, (e.keep t.toPlain).keys = ((Request.compile t).remember e.keys).take e.capacity := by
    intro t
    cases hc : (Program.compile t).value with
    | error r =>
      have hsame : (e.keep t.toPlain).keys = e.keys := congrArg (List.map Prod.fst) (entries_keep_error laws he hc)
      rw [hsame, Request.remember_compile_error hc]
      exact hcut
    | ok p =>
      rw [keys, entries_keep_ok laws he hc, List.map_take, List.map_cons, Cache.map_fst_filter,
        Request.remember_compile_ok hc]
      rfl
  cases request with
  | compile text =>
    rw [after]
    exact hkeep text
  | evaluate text =>
    rw [after, Request.remember_evaluate]
    exact hkeep text
  | execute program => exact hcut
  | clear =>
    rw [after, keys, entries_clear laws.sound]
    exact List.take_nil.symm

theorem capacity_served (size : Nat) (requests : List Request) : (served cache size requests).capacity = size := by
  induction requests using List.reverseRecOn with
  | nil => exact capacity_ofSize laws size
  | append_singleton requests request ih => rw [served_concat laws.sound, capacity_after laws, ih]

theorem keys_served (size : Nat) (requests : List Request) :
    (served cache size requests).keys = (recent requests).take size := by
  induction requests using List.reverseRecOn with
  | nil =>
    rw [served_eq laws.sound, keys, List.foldl_nil, entries_ofSize laws.sound]
    exact List.take_nil.symm
  | append_singleton requests request ih =>
    rw [served_concat laws.sound, keys_after laws (faithful_served laws.sound size requests), capacity_served laws, ih,
      request.remember_take (nodup_recent requests), recent_concat]

end Lru

/-! ## The entries -/

/-- The entry for a key, if the key compiles. -/
def holding? (plain : Text) : Option (Text × Program) :=
  match (Program.compilePlain plain).value with
  | .ok program => some (plain, program)
  | .error _ => none

/-- The keys determine the entries. -/
theorem Faithful.entries_eq {e : Evaluator cache} (h : Faithful e) : e.entries = e.keys.filterMap holding? := by
  have hself : ∀ entry ∈ e.entries, holding? entry.1 = some entry := by
    intro entry hm
    unfold holding?
    rw [h entry hm]
  unfold keys
  rw [List.filterMap_map]
  calc e.entries = e.entries.filterMap some := List.filterMap_some.symm
    _ = e.entries.filterMap (holding? ∘ Prod.fst) :=
      List.filterMap_congr fun entry hm => (hself entry hm).symm

theorem entries_prefix (laws : cache.Lru) {size larger : Nat} (h : size ≤ larger) (requests : List Request) :
    (served cache size requests).entries <+: (served cache larger requests).entries := by
  rw [(faithful_served laws.sound size requests).entries_eq, (faithful_served laws.sound larger requests).entries_eq,
    keys_served laws, keys_served laws]
  exact (List.take_prefix_take_left h).filterMap holding?

/-! ## Hits and misses -/

/-- A hit is all that is recorded, and a miss comes before what is recorded of compiling. -/
theorem compile_events (laws : cache.Lru) (e : Evaluator cache) (t : Text) :
    (e.compile t).events =
      if t.toPlain ∈ e.keys then [.hit t.toPlain] else .miss t.toPlain :: (Program.compile t).events := by
  unfold compile
  cases hg : (e.find t.toPlain).1 with
  | some p =>
    have hm : t.toPlain ∈ e.keys := List.mem_map.2 ⟨(t.toPlain, p), (find_eq_some_iff laws e t.toPlain p).1 hg, rfl⟩
    rw [if_pos hm]
    simp only [hg]
    rfl
  | none =>
    rw [if_neg ((find_eq_none_iff laws e t.toPlain).1 hg)]
    simp only [hg, Logged.events_bind, Logged.events_record, List.singleton_append, Program.compile]
    cases (Program.compilePlain t.toPlain).value with
    | error r => simp
    | ok p => simp

theorem compile_aboutCache (laws : cache.Lru) (e : Evaluator cache) (t : Text) :
    (e.compile t).events.filter Event.aboutCache =
      [if t.toPlain ∈ e.keys then .hit t.toPlain else .miss t.toPlain] := by
  rw [compile_events laws]
  split
  · rfl
  · rw [List.filter_cons_of_pos rfl, Program.compile, Program.compilePlain_events]

/-! ## Evaluators that hold the same -/

/-- The two hold the same entries in one order and have the same room. -/
structure Alike {cache cache' : Cache Text Program} (e : Evaluator cache) (e' : Evaluator cache') : Prop where
  entries : e.entries = e'.entries
  capacity : e.capacity = e'.capacity

section Alike
variable {cache' : Cache Text Program} (laws : cache.Lru) (laws' : cache'.Lru)
include laws laws'

theorem alike_ofSize (size : Nat) : Alike (ofSize size : Evaluator cache) (ofSize size : Evaluator cache') where
  entries := by rw [entries_ofSize laws.sound, entries_ofSize laws'.sound]
  capacity := by rw [capacity_ofSize laws, capacity_ofSize laws']

variable {e : Evaluator cache} {e' : Evaluator cache'}

theorem Alike.find (h : Alike e e') (plain : Text) :
    (e.find plain).1 = (e'.find plain).1 ∧ Alike (e.find plain).2 (e'.find plain).2 := by
  refine ⟨?_, ?_, ?_⟩
  · ext p
    rw [find_eq_some_iff laws, find_eq_some_iff laws', h.entries]
  · rw [entries_find laws, entries_find laws', h.entries]
  · rw [capacity_find laws, capacity_find laws', h.capacity]

theorem Alike.store (h : Alike e e') (program : Program) : Alike (e.store program) (e'.store program) where
  entries := by rw [entries_store laws, entries_store laws', h.entries, h.capacity]
  capacity := by rw [capacity_store laws, capacity_store laws', h.capacity]

theorem Alike.clear (h : Alike e e') : Alike e.clear e'.clear where
  entries := by rw [entries_clear laws.sound, entries_clear laws'.sound]
  capacity := by rw [capacity_clear laws, capacity_clear laws', h.capacity]

theorem Alike.compile (h : Alike e e') (t : Text) : (e.compile t).value.1 = (e'.compile t).value.1 ∧
    (e.compile t).events = (e'.compile t).events ∧ Alike (e.compile t).value.2 (e'.compile t).value.2 := by
  obtain ⟨hfound, hnext⟩ := h.find laws laws' t.toPlain
  unfold Evaluator.compile
  cases hg : (e'.find t.toPlain).1 with
  | some p =>
    rw [hg] at hfound
    simp only [hg, hfound]
    exact ⟨rfl, rfl, hnext⟩
  | none =>
    rw [hg] at hfound
    simp only [hg, hfound, Logged.value_bind, Logged.events_bind]
    cases (Program.compilePlain t.toPlain).value with
    | error r => exact ⟨rfl, rfl, hnext⟩
    | ok p => exact ⟨rfl, rfl, hnext.store laws laws' p⟩

theorem Alike.serve (h : Alike e e') (request : Request) :
    (e.serve request).value.1 = (e'.serve request).value.1 ∧
      (e.serve request).events = (e'.serve request).events ∧
      Alike (e.serve request).value.2 (e'.serve request).value.2 := by
  cases request with
  | compile text =>
    obtain ⟨hvalue, hevents, hnext⟩ := h.compile laws laws' text
    simp only [Evaluator.serve, Logged.value_bind, Logged.events_bind, hvalue, hevents]
    exact ⟨rfl, rfl, hnext⟩
  | evaluate text =>
    obtain ⟨hvalue, hevents, hnext⟩ := h.compile laws laws' text
    simp only [Evaluator.serve, evaluate, Logged.value_bind, Logged.events_bind, hvalue, hevents]
    exact ⟨rfl, rfl, hnext⟩
  | execute program => exact ⟨rfl, rfl, h⟩
  | clear => exact ⟨rfl, rfl, h.clear laws laws'⟩

end Alike

/-! ## What is seen of a run -/

/-- What is seen of one request of a run. -/
structure Reply where
  request : Request
  answer : Answer
  events : List Event
  cached : Nat

/-- All that is seen of a run. -/
def replies (e : Evaluator cache) : List Request → List Reply
  | [] => []
  | request :: requests =>
    let next := (e.serve request).value.2
    ⟨request, (e.serve request).value.1, (e.serve request).events, next.cached⟩ :: next.replies requests

theorem answers_replies (e : Evaluator cache) (requests : List Request) :
    (e.replies requests).map Reply.answer = (e.serveAll requests).value.1 := by
  induction requests generalizing e with
  | nil => rfl
  | cons request requests ih =>
    rw [replies, List.map_cons, ih, serveAll, Logged.value_bind, Logged.value_bind, Logged.value_pure]

theorem events_replies (e : Evaluator cache) (requests : List Request) :
    (e.replies requests).flatMap Reply.events = (e.serveAll requests).events := by
  induction requests generalizing e with
  | nil => rfl
  | cons request requests ih =>
    rw [replies, List.flatMap_cons, ih, serveAll, Logged.events_bind, Logged.events_bind, Logged.events_pure,
      List.append_nil]

theorem Alike.replies {cache' : Cache Text Program} (laws : cache.Lru) (laws' : cache'.Lru) {e : Evaluator cache}
    {e' : Evaluator cache'} (h : Alike e e') (requests : List Request) :
    e.replies requests = e'.replies requests := by
  induction requests generalizing e e' with
  | nil => rfl
  | cons request requests ih =>
    obtain ⟨hanswer, hevents, hnext⟩ := h.serve laws laws' request
    have hcached : (e.serve request).value.2.cached = (e'.serve request).value.2.cached := by
      rw [cached_eq laws, cached_eq laws', hnext.entries]
    simp only [Evaluator.replies, hanswer, hevents, hcached, ih hnext]

/-- Caches that keep what was used last cannot be told apart. -/
theorem replies_ofSize {cache' : Cache Text Program} (laws : cache.Lru) (laws' : cache'.Lru) (size : Nat)
    (requests : List Request) :
    (ofSize size : Evaluator cache).replies requests = (ofSize size : Evaluator cache').replies requests :=
  (alike_ofSize laws laws' size).replies laws laws' requests

/-! ## Requests that leave no trace -/

/-- A request that the cache forgets: to run a program, or a text that does not compile. -/
def Request.isIdle : Request → Bool
  | .compile text | .evaluate text => !(Program.compile text).value.isOk
  | .execute _ => true
  | .clear => false

theorem alike_after_of_isIdle (laws : cache.Lru) {e : Evaluator cache} (he : Faithful e) {request : Request}
    (h : request.isIdle = true) : Alike (e.after request) e := by
  have hkeep : ∀ t : Text, (!(Program.compile t).value.isOk) = true → (e.keep t.toPlain).entries = e.entries := by
    intro t ht
    cases hc : (Program.compile t).value with
    | error r => exact entries_keep_error laws he hc
    | ok p =>
      rw [hc] at ht
      cases ht
  refine ⟨?_, capacity_after laws e request⟩
  cases request with
  | compile text => exact hkeep text h
  | evaluate text => exact hkeep text h
  | execute program => rfl
  | clear => cases h

theorem replies_cons_of_isIdle (laws : cache.Lru) {e : Evaluator cache} (he : Faithful e) {request : Request}
    (h : request.isIdle = true) (requests : List Request) : ∃ reply : Reply, reply.request = request ∧
      e.replies (request :: requests) = reply :: e.replies requests := by
  have hnext : (e.serve request).value.2.replies requests = e.replies requests := by
    rw [serve_value laws.sound he]
    exact (alike_after_of_isIdle laws he h).replies laws laws requests
  refine ⟨⟨request, (e.serve request).value.1, (e.serve request).events, (e.serve request).value.2.cached⟩, rfl, ?_⟩
  rw [replies, hnext]

/-- One idle request can be erased from a run. -/
theorem replies_eraseIdx (laws : cache.Lru) {e : Evaluator cache} (he : Faithful e) {requests : List Request} {i : Nat}
    {request : Request} (hi : requests[i]? = some request) (h : request.isIdle = true) :
    e.replies (requests.eraseIdx i) = (e.replies requests).eraseIdx i := by
  induction requests generalizing e i with
  | nil => cases hi
  | cons first requests ih =>
    cases i with
    | zero =>
      cases hi
      obtain ⟨reply, -, heq⟩ := replies_cons_of_isIdle laws he h requests
      rw [heq]
      rfl
    | succ i =>
      rw [List.eraseIdx_cons_succ, replies, replies, List.eraseIdx_cons_succ, ih (he.serve laws.sound first) hi]

/-- All of them can be. -/
theorem replies_filter (laws : cache.Lru) {e : Evaluator cache} (he : Faithful e) (requests : List Request) :
    e.replies (requests.filter (!·.isIdle)) = (e.replies requests).filter (!·.request.isIdle) := by
  induction requests generalizing e with
  | nil => rfl
  | cons request requests ih =>
    cases h : request.isIdle with
    | true =>
      obtain ⟨reply, rfl, heq⟩ := replies_cons_of_isIdle laws he h requests
      rw [heq, List.filter_cons_of_neg (by simp [h]), List.filter_cons_of_neg (by simp [h]), ih he]
    | false =>
      rw [List.filter_cons_of_pos (by simp [h]), replies, replies, List.filter_cons_of_pos (by simp [h]),
        ih (he.serve laws.sound request)]

/-! ## All of it -/

/-- After any run a cache of any size that keeps what was used last holds the keys in
use by their last use, cut to the size, and the next text is a hit when it is among
them. Idle requests do not change the entries or their order, so without them, one or
all, the others are answered as before, with the same events and sizes. A larger
cache holds the entries of a smaller one, and less recent ones after them. -/
theorem cache_history (cache : Cache Text Program) (laws : cache.Lru) (size : Nat) (requests : List Request) :
    (served cache size requests).keys = (recent requests).take size ∧
      (served cache size requests).keys.Nodup ∧
      (served cache size requests).cached = min size (used requests).toFinset.card ∧
      (∀ (t : Text), ∀ request ∈ [Request.compile t, .evaluate t],
        ((served cache size requests).serve request).events.filter Event.aboutCache =
          [if t.toPlain ∈ (recent requests).take size then .hit t.toPlain else .miss t.toPlain]) ∧
      (∀ request : Request, request.isIdle = true →
        ((served cache size requests).serve request).value.2.entries = (served cache size requests).entries) ∧
      (∀ (i : Nat) (request : Request), requests[i]? = some request → request.isIdle = true →
        (ofSize size : Evaluator cache).replies (requests.eraseIdx i) =
          ((ofSize size : Evaluator cache).replies requests).eraseIdx i) ∧
      (ofSize size : Evaluator cache).replies (requests.filter (!·.isIdle)) =
        ((ofSize size : Evaluator cache).replies requests).filter (!·.request.isIdle) ∧
      ∀ larger : Nat, size ≤ larger →
        (served cache size requests).entries <+: (served cache larger requests).entries := by
  have hkeys := keys_served laws size requests
  have hfaithful := faithful_served laws.sound size requests
  have hstart := faithful_ofSize laws.sound size
  refine ⟨hkeys, nodup_keys laws _, ?_, ?_, ?_, ?_, ?_, ?_⟩
  · rw [cached_eq laws, ← List.length_map Prod.fst, ← keys, hkeys, List.length_take, length_recent]
  · intro t request hr
    rw [← hkeys]
    rcases List.mem_pair.1 hr with rfl | rfl
    · simp only [serve, Logged.events_bind, Logged.events_pure, List.append_nil, compile_aboutCache laws]
    · simp only [serve, evaluate, Logged.events_bind, Logged.events_pure, List.append_nil, compile_aboutCache laws]
  · intro request h
    rw [serve_value laws.sound hfaithful]
    exact (alike_after_of_isIdle laws hfaithful h).entries
  · intro i request hi h
    exact replies_eraseIdx laws hstart hi h
  · exact replies_filter laws hstart requests
  · intro larger h
    exact entries_prefix laws h requests

/-- With room for two, the program that was used least recently gives way, and a failure is as if it
was never asked for. -/
theorem cache_history_listed :
    (Cache.listed : Cache Text Program).Lru ∧
      (served .listed 2 [.compile "1".toList, .clear, .compile "2".toList, .evaluate "4/0".toList,
        .compile "two".toList, .compile "(".toList, .compile "3".toList, .evaluate "TWO".toList]).keys =
        ["2".toList, "3".toList] ∧
      (ofSize 2 : Evaluator .listed).replies [.compile "2".toList, .compile "2".toList] =
        ((ofSize 2 : Evaluator .listed).replies
          [.compile "2".toList, .compile "(".toList, .compile "2".toList]).eraseIdx 1 := by
  have hhistory := cache_history .listed Cache.lru_listed 2
  obtain ⟨hkeys, -⟩ := hhistory [.compile "1".toList, .clear, .compile "2".toList, .evaluate "4/0".toList,
    .compile "two".toList, .compile "(".toList, .compile "3".toList, .evaluate "TWO".toList]
  obtain ⟨-, -, -, -, -, herase, -⟩ := hhistory [.compile "2".toList, .compile "(".toList, .compile "2".toList]
  exact ⟨Cache.lru_listed, hkeys.trans (by decide +kernel), herase 1 (.compile "(".toList) rfl (by decide +kernel)⟩

end Evaluator

end Reckon
