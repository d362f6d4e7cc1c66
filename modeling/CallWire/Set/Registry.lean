/-!
# CallWire.Set.Registry — the live connections of a set

A connection is listed from the moment it is connected until it has ended.  Once the set is being
shut down nothing is listed any more.
-/

namespace CallWire

/-- The live connections of a set, and whether it is shut down. -/
structure Registry where
  live : List Nat := []
  isShutDown : Bool := false
  deriving DecidableEq, Repr

namespace Registry

/-- Adds a connection, unless the set is shut down. -/
def track (r : Registry) (id : Nat) : Bool × Registry :=
  if r.isShutDown then (false, r) else (true, { r with live := r.live ++ [id] })

def untrack (r : Registry) (id : Nat) : Registry := { r with live := r.live.filter (· != id) }

/-- Shuts the set down: the connections to close, the first time. -/
def shutDown (r : Registry) : Option (List Nat) × Registry :=
  if r.isShutDown then (none, r) else (some r.live, { r with isShutDown := true })

end Registry

end CallWire
