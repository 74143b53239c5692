import Reckon.Cache
import Reckon.Program
/-!
# The evaluator

An evaluator keeps programs it compiled, each under its plain text, so two spellings
of one expression share a program. A text that does not compile is never kept. What
is kept how long is up to the cache; an evaluator of size zero has none.
-/

namespace Reckon

/-- A cache of compiled programs, or none. -/
structure Evaluator (cache : Cache Text Program := .listed) where
  programs : Option cache.State

namespace Evaluator

variable {cache : Cache Text Program}

/-- An evaluator that keeps at most `size` programs. -/
def ofSize (size : Nat) : Evaluator cache := ⟨if h : 0 < size then some (cache.new ⟨size, h⟩) else none⟩

/-- An evaluator of the usual size. -/
def standard : Evaluator cache := ofSize 100

/-- How many programs are kept. -/
def cached (e : Evaluator cache) : Nat := e.programs.elim 0 cache.size

/-- Looks up the program for a plain text. -/
def find (e : Evaluator cache) (plain : Text) : Option Program × Evaluator cache :=
  match e.programs with
  | some programs =>
    let (found, programs) := cache.get programs plain
    (found, ⟨some programs⟩)
  | none => (none, e)

/-- Keeps a program under its text. -/
def store (e : Evaluator cache) (program : Program) : Evaluator cache :=
  ⟨e.programs.map fun programs => cache.put programs program.text program⟩

/-- Compiles a text, or takes the program that is kept for its plain form. -/
def compile (e : Evaluator cache) (text : Text) : Logged (Except Rejection Program × Evaluator cache) :=
  let plain := text.toPlain
  let (found, e) := e.find plain
  match found with
  | some program => do
    Logged.record (.hit plain)
    return (.ok program, e)
  | none => do
    Logged.record (.miss plain)
    match ← Program.compilePlain plain with
    | .ok program => return (.ok program, e.store program)
    | .error rejection => return (.error rejection, e)

/-- Compiles a text and runs the program. -/
def evaluate (e : Evaluator cache) (text : Text) : Logged (Except Rejection Float × Evaluator cache) := do
  let (program, e) ← e.compile text
  return (program.bind Program.run, e)

/-- Runs a compiled program; the evaluator stays as it is. -/
def execute (_ : Evaluator cache) (program : Program) : Except Rejection Float := program.run

/-- Forgets all programs. -/
def clear (e : Evaluator cache) : Evaluator cache := ⟨e.programs.map cache.clear⟩

/-! ## Runs -/

/-- What an evaluator can be asked. -/
inductive Request where
  | compile (text : Text)
  | evaluate (text : Text)
  | execute (program : Program)
  | clear

/-- What it answers. -/
inductive Answer where
  | program (result : Except Rejection Program)
  | number (result : Except Rejection Float)
  | cleared

/-- Answers one request. -/
def serve (e : Evaluator cache) : Request → Logged (Answer × Evaluator cache)
  | .compile text => do
    let (result, e) ← e.compile text
    return (.program result, e)
  | .evaluate text => do
    let (result, e) ← e.evaluate text
    return (.number result, e)
  | .execute program => pure (.number (e.execute program), e)
  | .clear => pure (.cleared, e.clear)

/-- Answers requests one after the other. -/
def serveAll (e : Evaluator cache) : List Request → Logged (List Answer × Evaluator cache)
  | [] => pure ([], e)
  | request :: requests => do
    let (answer, e) ← e.serve request
    let (answers, e) ← e.serveAll requests
    return (answer :: answers, e)

end Evaluator

end Reckon
