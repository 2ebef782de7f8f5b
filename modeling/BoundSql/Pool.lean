import BoundSql.Settings.Basic
import BoundSql.Settings.ConnectionString

/-!
Pools of connections.  A pool opens no connection before one is asked for, so that making a pool
needs a well-formed connection string and no server.  It does set room aside for all connections
that it may come to hold.
-/

namespace BoundSql

structure Pool where
  maxSize : Nat
  recycling : Recycling
  /-- How many connections the pool holds. -/
  size : Nat := 0
  closed : Bool := false
  deriving DecidableEq

/-- Why no pool is made. -/
inductive PoolFault where
  | malformedUrl
  /-- The room for the connections exceeds the memory. -/
  | noRoom
  deriving DecidableEq

/-- The error that a caller sees.  Where there is no room, the program stops and nobody sees an
error. -/
def PoolFault.error? : PoolFault → Option Error
  | .malformedUrl => some (.connection "invalid connection string")
  | .noRoom => none

namespace Pool

/-- The bytes that a pool keeps for a connection. -/
def connectionBytes : Nat := 208

/-- The bytes of memory that a program can address. -/
def addressableBytes : Nat := Nat.pow 2 47

/-- Whether there is memory for a number of connections. -/
def hasRoom (count : Nat) : Bool := count * connectionBytes ≤ addressableBytes

def ofSettings (s : Settings) : Except PoolFault Pool :=
  if !ConnectionString.isValid s.url then .error .malformedUrl
  else if !hasRoom s.maxSize then .error .noRoom
  else .ok { maxSize := s.maxSize, recycling := s.recycling }

def close (p : Pool) : Pool := { p with size := 0, closed := true }

/-- The error that a pool answers to whoever asks it for a connection, if it refuses. -/
def refusal? (p : Pool) : Option Error :=
  if p.closed then some (.pool "Pool has been closed") else none

end Pool

end BoundSql
