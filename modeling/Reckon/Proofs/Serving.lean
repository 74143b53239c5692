import Mathlib.Data.List.Basic
import Reckon.Evaluator
import Reckon.Proofs.Caches
/-!
# The cache does not show in the answers

An evaluator answers every request as if it had no cache, however its programs
came and went before. The invariant is that each entry holds what its key compiles
to, so it makes no difference whether a program is found or compiled again. Of the
cache no more is asked than that it is sound.

Everything an evaluator does for a text is summed up in `compile_value`: the
answer is that of `Program.compile`, and the evaluator after it is `keep`, where a
program is put if none was found and the text compiles.
-/

namespace Reckon

theorem Program.text_of_compilePlain {t : Text} {p : Program} (h : (compilePlain t).value = .ok p) :
    p.text = t := by
  unfold compilePlain ofPlain at h
  cases hs : Lexeme.split t with
  | error fault => rw [hs] at h; cases h
  | ok lexemes =>
    rw [hs] at h
    simp only [Logged.value_bind, Logged.value_pure] at h
    cases hc : (assemble lexemes).value with
    | error fault => rw [hc] at h; cases h
    | ok code => rw [hc] at h; cases h; rfl

namespace Evaluator

variable {cache : Cache Text Program}

/-! ## Entries -/

/-- The entries of the cache, from the most to the least recent. -/
def entries (e : Evaluator cache) : List (Text × Program) := e.programs.elim [] cache.entries

section Sound
variable (laws : cache.Sound)
include laws

theorem entries_ofSize (size : Nat) : (ofSize size : Evaluator cache).entries = [] := by
  by_cases h : 0 < size
  · rw [ofSize, dif_pos h]
    exact laws.entries_new ⟨size, h⟩
  · rw [ofSize, dif_neg h]
    rfl

theorem mem_of_find {e : Evaluator cache} {plain : Text} {program : Program}
    (h : (e.find plain).1 = some program) : (plain, program) ∈ e.entries := by
  obtain ⟨none | s⟩ := e
  · cases h
  · exact laws.mem_of_get h

theorem mem_of_mem_find {e : Evaluator cache} {plain : Text} {entry : Text × Program}
    (h : entry ∈ (e.find plain).2.entries) : entry ∈ e.entries := by
  obtain ⟨none | s⟩ := e
  · exact h
  · exact laws.mem_of_mem_get h

theorem mem_of_mem_store {e : Evaluator cache} {program : Program} {entry : Text × Program}
    (h : entry ∈ (e.store program).entries) : entry = (program.text, program) ∨ entry ∈ e.entries := by
  obtain ⟨none | s⟩ := e
  · exact .inr h
  · exact laws.mem_of_mem_put h

theorem entries_clear (e : Evaluator cache) : e.clear.entries = [] := by
  obtain ⟨none | s⟩ := e
  · rfl
  · exact laws.entries_clear s

end Sound

/-! ## One request -/

/-- Every entry holds what its key compiles to. -/
def Faithful (e : Evaluator cache) : Prop :=
  ∀ entry ∈ e.entries, (Program.compilePlain entry.1).value = .ok entry.2

/-- The evaluator after a text with this plain form was asked for. -/
def keep (e : Evaluator cache) (plain : Text) : Evaluator cache :=
  match (e.find plain).1, (Program.compilePlain plain).value with
  | none, .ok program => (e.find plain).2.store program
  | _, _ => (e.find plain).2

theorem faithful_ofSize (laws : cache.Sound) (size : Nat) : Faithful (ofSize size : Evaluator cache) := by
  intro entry hm
  rw [entries_ofSize laws] at hm
  cases hm

theorem Faithful.find (laws : cache.Sound) {e : Evaluator cache} (h : Faithful e) (plain : Text) :
    Faithful (e.find plain).2 :=
  fun entry hm => h entry (mem_of_mem_find laws hm)

theorem Faithful.keep (laws : cache.Sound) {e : Evaluator cache} (h : Faithful e) (plain : Text) :
    Faithful (e.keep plain) := by
  unfold Evaluator.keep
  split
  · next p _ hc =>
    -- An entry is the new one or was there before; which one was dropped does not matter.
    intro entry hm
    rcases mem_of_mem_store laws hm with rfl | hm'
    · rwa [Program.text_of_compilePlain hc]
    · exact h.find laws plain entry hm'
  · exact h.find laws plain

/-- Found or compiled: the answer comes out the same. -/
theorem compile_value (laws : cache.Sound) {e : Evaluator cache} (h : Faithful e) (t : Text) :
    (e.compile t).value = ((Program.compile t).value, e.keep t.toPlain) := by
  have hcompile : Program.compile t = Program.compilePlain t.toPlain := rfl
  unfold compile keep
  rw [hcompile]
  cases hg : (e.find t.toPlain).1 with
  | some p =>
    have hp : (Program.compilePlain t.toPlain).value = .ok p := h (t.toPlain, p) (mem_of_find laws hg)
    simp only [hg, hp, Logged.value_bind, Logged.value_pure]
  | none =>
    simp only [hg, Logged.value_bind]
    cases (Program.compilePlain t.toPlain).value with
    | error r => rfl
    | ok p => rfl

/-- The answer of an evaluator without a cache. -/
def Request.answer : Request → Answer
  | .compile text => .program (Program.compile text).value
  | .evaluate text => .number (Reckon.evaluate text)
  | .execute program => .number program.run
  | .clear => .cleared

/-- The evaluator after one request. -/
def after (e : Evaluator cache) : Request → Evaluator cache
  | .compile text => e.keep text.toPlain
  | .evaluate text => e.keep text.toPlain
  | .execute _ => e
  | .clear => e.clear

theorem Faithful.after (laws : cache.Sound) {e : Evaluator cache} (h : Faithful e) (request : Request) :
    Faithful (e.after request) := by
  cases request with
  | compile text => exact h.keep laws text.toPlain
  | evaluate text => exact h.keep laws text.toPlain
  | execute program => exact h
  | clear =>
    intro entry hm
    rw [Evaluator.after, entries_clear laws] at hm
    cases hm

theorem serve_value (laws : cache.Sound) {e : Evaluator cache} (h : Faithful e) (request : Request) :
    (e.serve request).value = (request.answer, e.after request) := by
  cases request with
  | compile text =>
    simp only [serve, Logged.value_bind, Logged.value_pure, compile_value laws h, Request.answer, after]
  | evaluate text =>
    simp only [serve, evaluate, Logged.value_bind, Logged.value_pure, compile_value laws h, Request.answer, after,
      Reckon.evaluate]
  | execute program => rfl
  | clear => rfl

theorem Faithful.serve (laws : cache.Sound) {e : Evaluator cache} (h : Faithful e) (request : Request) :
    Faithful (e.serve request).value.2 := by
  rw [serve_value laws h]
  exact h.after laws request

/-! ## Runs -/

theorem Faithful.afterAll (laws : cache.Sound) {e : Evaluator cache} (h : Faithful e) (requests : List Request) :
    Faithful (requests.foldl Evaluator.after e) := by
  induction requests generalizing e with
  | nil => exact h
  | cons request requests ih => exact ih (h.after laws request)

theorem serveAll_value (laws : cache.Sound) {e : Evaluator cache} (h : Faithful e) (requests : List Request) :
    (e.serveAll requests).value = (requests.map Request.answer, requests.foldl after e) := by
  induction requests generalizing e with
  | nil => rfl
  | cons request requests ih =>
    simp only [serveAll, Logged.value_bind, serve_value laws h, ih (h.after laws request)]
    rfl

/-- An evaluator of a size after it served requests. -/
def served (cache : Cache Text Program) (size : Nat) (requests : List Request) : Evaluator cache :=
  ((ofSize size).serveAll requests).value.2

theorem served_eq (laws : cache.Sound) (size : Nat) (requests : List Request) :
    served cache size requests = requests.foldl after (ofSize size) := by
  unfold served
  rw [serveAll_value laws (faithful_ofSize laws size)]

theorem served_concat (laws : cache.Sound) (size : Nat) (requests : List Request) (request : Request) :
    served cache size (requests ++ [request]) = (served cache size requests).after request := by
  rw [served_eq laws, served_eq laws, List.foldl_append]
  rfl

theorem faithful_served (laws : cache.Sound) (size : Nat) (requests : List Request) :
    Faithful (served cache size requests) := by
  rw [served_eq laws]
  exact (faithful_ofSize laws size).afterAll laws requests

/-- An evaluator of any size, over any sound cache, answers any requests as if there
was no cache. Its entries hold programs for the very text they are kept under. So it
does not matter whether texts are evaluated by an evaluator with a past or as a
batch, and two programs of a run are equal exactly when their texts have one plain
form. -/
theorem cache_transparent (cache : Cache Text Program) (laws : cache.Sound) (size : Nat) (requests : List Request) :
    ((ofSize size : Evaluator cache).serveAll requests).value.1 = requests.map Request.answer ∧
      (∀ entry ∈ (served cache size requests).entries,
        entry.2.text = entry.1 ∧ (Program.compilePlain entry.1).value = .ok entry.2) ∧
      (∀ texts : List Text, ((served cache size requests).serveAll (texts.map .evaluate)).value.1 =
        (evaluateAll texts).map .number) ∧
      ∀ (i j : Nat) (t u : Text) (p q : Program), requests[i]? = some (.compile t) →
        requests[j]? = some (.compile u) →
        ((ofSize size : Evaluator cache).serveAll requests).value.1[i]? = some (.program (.ok p)) →
        ((ofSize size : Evaluator cache).serveAll requests).value.1[j]? = some (.program (.ok q)) →
        (p = q ↔ t.toPlain = u.toPlain) := by
  have hanswers : ((ofSize size : Evaluator cache).serveAll requests).value.1 = requests.map Request.answer := by
    rw [serveAll_value laws (faithful_ofSize laws size)]
  refine ⟨hanswers, ?_, ?_, ?_⟩
  · intro entry hm
    have hentry := faithful_served laws size requests entry hm
    exact ⟨Program.text_of_compilePlain hentry, hentry⟩
  · intro texts
    rw [serveAll_value laws (faithful_served laws size requests), evaluateAll, List.map_map, List.map_map]
    rfl
  · intro i j t u p q hi hj hp hq
    rw [hanswers, List.getElem?_map] at hp hq
    rw [hi] at hp
    rw [hj] at hq
    simp only [Option.map_some, Request.answer, Option.some.injEq, Answer.program.injEq] at hp hq
    have hpt : (Program.compilePlain t.toPlain).value = .ok p := hp
    have hqu : (Program.compilePlain u.toPlain).value = .ok q := hq
    -- A program carries the plain text it comes from, and is determined by it.
    constructor
    · rintro rfl
      rw [← Program.text_of_compilePlain hpt, ← Program.text_of_compilePlain hqu]
    · intro he
      rw [he, hqu] at hpt
      cases hpt
      rfl

/-- An evaluator with room for one program, which is found, kept through a failure, dropped for
another one and cleared away. -/
theorem cache_transparent_listed :
    (Cache.listed : Cache Text Program).Sound ∧
      ((ofSize 1 : Evaluator .listed).serveAll [.compile "1 + 2".toList, .compile "one PLUS two".toList,
        .compile "(1".toList, .compile "3".toList, .clear, .compile "1+2".toList]).value.1 =
        [.program (.ok ⟨"1 + 2".toList, [.push 1, .push 2, .apply .add]⟩),
          .program (.ok ⟨"1 + 2".toList, [.push 1, .push 2, .apply .add]⟩),
          .program (.error ⟨.mismatchedParentheses⟩), .program (.ok ⟨"3".toList, [.push 3]⟩), .cleared,
          .program (.ok ⟨"1+2".toList, [.push 1, .push 2, .apply .add]⟩)] :=
  ⟨Cache.lru_listed.sound, (cache_transparent .listed Cache.lru_listed.sound 1 _).1.trans rfl⟩

end Evaluator

end Reckon
