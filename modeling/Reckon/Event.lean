import Reckon.Text.Basic
/-!
# Events

What is worth a record while an expression is compiled. A `Logged` value carries
the events that led to it, oldest first; sequencing two logged computations puts
the events of the first before those of the second.
-/

namespace Reckon

inductive Event where
  /-- A word without meaning was left out. -/
  | dropped (word : Text)
  /-- A numeral was too large to be read. -/
  | overflow (numeral : Text)
  /-- A program for this plain text was in the cache. -/
  | hit (plain : Text)
  /-- No program for this plain text was in the cache. -/
  | miss (plain : Text)
deriving DecidableEq

/-- A value and the events that led to it, oldest first. -/
structure Logged (α : Type) where
  value : α
  events : List Event
deriving DecidableEq

namespace Logged

variable {α β : Type}

instance : Monad Logged where
  pure a := ⟨a, []⟩
  bind x f := let y := f x.value; ⟨y.value, x.events ++ y.events⟩
  map f x := ⟨f x.value, x.events⟩

/-- Records one event. -/
def record (e : Event) : Logged Unit := ⟨(), [e]⟩

@[simp] theorem value_pure (a : α) : (pure a : Logged α).value = a := rfl

@[simp] theorem events_pure (a : α) : (pure a : Logged α).events = [] := rfl

@[simp] theorem value_map (f : α → β) (x : Logged α) : (f <$> x).value = f x.value := rfl

@[simp] theorem events_map (f : α → β) (x : Logged α) : (f <$> x).events = x.events := rfl

@[simp] theorem value_bind (x : Logged α) (f : α → Logged β) : (x >>= f).value = (f x.value).value := rfl

@[simp] theorem events_bind (x : Logged α) (f : α → Logged β) :
    (x >>= f).events = x.events ++ (f x.value).events := rfl

@[simp] theorem events_record (e : Event) : (record e).events = [e] := rfl

end Logged

end Reckon
