import GameServer.GameService.Model.TableFrame
/-!
# GameService — a table that is dismissed

`DismissGame` asks the sink to conclude the game and goes on when the sink
returns, and `ConcludeTable` can be called by itself. A table with these
two is the table before with the places in its stack where a
`DismissGame` waits: its sink's frame is the one at that height.
-/

namespace GameServer.GameService

/-- A table, and the heights of the stack at which a `DismissGame`
waits, innermost first. -/
structure DismissState where
  state : TableState
  dismissing : List ℕ := []

/-- A step of the table, with `DismissGame` and `ConcludeTable` as calls.
The answer of a step that goes on is what `OnEventGameConclude` returns to
a `DismissGame`. -/
inductive DismissEvent where
  | table (event : TableEvent)
  | dismissGame
  | concludeTable

namespace TableState

/-- `DismissGame` behind `OnEventGameConclude`. -/
def dismissEnd (s : TableState) : TableState :=
  if s.table.gameStarted = false ∧ s.table.tableStarted = true then
    { s with table := { s.table with tableStarted := false } }
  else s

end TableState

namespace DismissState

variable (opt : TableOption)

/-- `DismissGame` up to `OnEventGameConclude`, which is called in a
game. -/
def dismissGame (x : DismissState) : DismissState :=
  if x.state.table.tableStarted = false then x
  else if x.state.table.gameStarted then
    ⟨x.state.push [.sink], x.state.stack.length :: x.dismissing⟩
  else { x with state := x.state.dismissEnd }

/-- A `DismissGame` whose sink has returned goes on. -/
def dismissed (x : DismissState) (answer : Bool) : DismissState :=
  match x.dismissing with
  | [] => x
  | height :: dismissing =>
      if x.state.stack.length = height then
        ⟨if answer then x.state.dismissEnd else x.state, dismissing⟩
      else x

/-- The table as a machine. -/
def step : Machine DismissState DismissEvent TableOutput
  | x, .table event =>
      (x.state.step opt event).map fun r =>
        match event with
        | .resume answer => (DismissState.dismissed { x with state := r.1 } answer, r.2)
        | _ => ({ x with state := r.1 }, r.2)
  | x, .dismissGame => some (if x.state.callable then x.dismissGame else x, [])
  | x, .concludeTable =>
      some (if x.state.callable then { x with state := x.state.concludeTable opt } else x, [])

end DismissState

end GameServer.GameService
