import Carom.Operation

/-!
# Arenas

Several executors side by side, some of which share a store. Each executor has a
name, an engine of its own and the number of its store; what one of them does to a
store is there for all that share it. An arena also keeps programs, squares and
contexts under names.

After each operation the journal is handed out and begins anew.
-/

namespace Carom

/-- The number of a store and the engine that works on it. -/
structure Seat where
  store : Nat
  engine : Engine

/-- Named executors on numbered stores, and named programs, squares and contexts. -/
structure Arena where
  /-- The random numbers that each new engine draws. -/
  source : Nat → Binary64
  stores : Array Store
  seats : Std.ExtTreeMap String Seat
  programs : Std.ExtTreeMap String Program := ∅
  squares : Std.ExtTreeMap String Square := ∅
  contexts : Std.ExtTreeMap String Context := ∅

namespace Arena

/-- An arena with one executor on a store. -/
def start (source : Nat → Binary64) (name : String) (s : Store) : Arena :=
  { source
    stores := #[s]
    seats := (∅ : Std.ExtTreeMap String Seat).insert name ⟨0, { source }⟩ }

/-- The executor of a name. -/
def executor? (a : Arena) (name : String) : Option Executor := do
  let seat ← a.seats[name]?
  let store ← a.stores[seat.store]?
  pure ⟨store, seat.engine⟩

/-- A new executor on an empty store. -/
def openNew (a : Arena) (name : String) : Arena :=
  { a with
    stores := a.stores.push {}
    seats := a.seats.insert name ⟨a.stores.size, { source := a.source }⟩ }

/-- A new executor on the store of another one. -/
def openShared (a : Arena) (name other : String) : Arena :=
  match a.seats[other]? with
  | some seat => { a with seats := a.seats.insert name ⟨seat.store, { source := a.source }⟩ }
  | none => a

/-- The arena after an executor has done something; its journal begins anew. -/
def leave (a : Arena) (name : String) (x : Executor) : Arena :=
  match a.seats[name]? with
  | some seat =>
    { a with
      stores := a.stores.setIfInBounds seat.store x.store
      seats := a.seats.insert name ⟨seat.store, { x.engine with journal := [] }⟩ }
  | none => a

/-- Let an executor perform an operation. The outcome holds the journal of this
    operation. -/
def perform (a : Arena) (name : String) (op : Operation) : Option (Outcome × Arena) := do
  let x ← a.executor? name
  let o := x.perform op
  pure (o, a.leave name o.executor)

/-- Keep a program under a name. -/
def define (a : Arena) (name : String) (p : Program) : Arena :=
  { a with programs := a.programs.insert name p }

/-- Keep a square under a name. -/
def place (a : Arena) (name : String) (s : Square) : Arena :=
  { a with squares := a.squares.insert name s }

/-- Keep a context under a name. -/
def keep (a : Arena) (name : String) (c : Context) : Arena :=
  { a with contexts := a.contexts.insert name c }

end Arena

end Carom
