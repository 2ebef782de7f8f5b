import BoundSql.Error

/-!
Rows of an answer and how their cells are read.  What a row is and which of its cells can be read as
which values is up to the driver.  An error of the driver comes back under the name or the position
that was asked for.
-/

namespace BoundSql

variable {ρ β γ : Type}

/-- How a driver reads the cells of its rows as values of one type. -/
structure Reading (ρ β : Type) where
  /-- Reads the cell at a position, counted from 0. -/
  get : ρ → Nat → Except DriverError β
  /-- Reads the cell of a column. -/
  getNamed : ρ → String → Except DriverError β

/-- Rows in which a driver finds the words of 64 bits and the truth values that operations ask for
on their own. -/
class DriverRow (ρ : Type) where
  int8 : Reading ρ Int64
  bool : Reading ρ Bool

namespace Reading

def index (r : Reading ρ β) (row : ρ) (position : Nat) : Except Error β :=
  (r.get row position).mapError fun e => .decode (toString position) e.message

def column (r : Reading ρ β) (row : ρ) (name : String) : Except Error β :=
  (r.getNamed row name).mapError fun e => .decode name e.message

def map (f : β → γ) (r : Reading ρ β) : Reading ρ γ where
  get row position := (r.get row position).map f
  getNamed row name := (r.getNamed row name).map f

/-- Reads the first cells of a row in order, one for each reading, up to the first that cannot be
read. -/
def tuple (readings : List (Reading ρ β)) (row : ρ) : Except Error (List β) :=
  go 0 readings
where
  /-- Reads the cells from a position on. -/
  go (position : Nat) : List (Reading ρ β) → Except Error (List β)
    | [] => .ok []
    | r :: rest =>
      match r.index row position with
      | .error e => .error e
      | .ok v =>
        match go (position + 1) rest with
        | .error e => .error e
        | .ok vs => .ok (v :: vs)

end Reading

end BoundSql
