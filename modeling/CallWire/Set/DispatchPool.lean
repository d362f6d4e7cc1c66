import CallWire.RpcError

/-!
# CallWire.Set.DispatchPool — handing tasks to dispatch threads

Each task is served by one thread, that with the fewest tasks when it was handed out.  Tasks that
come before there is any thread wait in a backlog, in order.  A pool that has been stopped drops
every task.
-/

namespace CallWire

/-- Threads begun by the pool are numbered. -/
inductive ThreadId
  | own (index : Nat)
  | application (k : Nat)
  deriving DecidableEq, Repr

/-- The tasks of each dispatch thread, and those that wait for one. -/
structure DispatchPool (Task : Type) where
  workers : List (List Task) := []
  /-- The ids of the threads, in the same order. -/
  threadIds : List ThreadId := []
  backlog : List Task := []
  isStopped : Bool := false
  deriving Repr

namespace DispatchPool

variable {Task : Type}

def threads (p : DispatchPool Task) : Nat := p.workers.length

def stoppedError : RpcError := .invalidArgument "connection set is shut down"

def leastLoad : List (List Task) → Nat
  | [] => 0
  | [w] => w.length
  | w :: ws => min w.length (leastLoad ws)

/-- Adds the task to the first thread with this number of tasks. -/
def giveTo (load : Nat) (task : Task) : List (List Task) → List (List Task)
  | [] => []
  | w :: ws => if w.length = load then (w ++ [task]) :: ws else w :: giveTo load task ws

/-- Adds the task to the thread with the fewest. -/
def assign (workers : List (List Task)) (task : Task) : List (List Task) :=
  giveTo (leastLoad workers) task workers

/-- Hands a task to a thread, or to the backlog: the tasks rejected, and the pool. -/
def spawn (p : DispatchPool Task) (task : Task) : List Task × DispatchPool Task :=
  if p.isStopped then ([task], p)
  else if p.workers.isEmpty then ([], { p with backlog := p.backlog ++ [task] })
  else ([], { p with workers := assign p.workers task })

/-- Adds threads, and hands out the backlog in order. -/
def addWorkers (p : DispatchPool Task) (ids : List ThreadId) : DispatchPool Task :=
  { p with
    workers := p.backlog.foldl assign (p.workers ++ List.replicate ids.length [])
    threadIds := p.threadIds ++ ids
    backlog := [] }

def newIds (p : DispatchPool Task) (count : Nat) : List ThreadId :=
  (List.range' p.workers.length count).map .own

def start (p : DispatchPool Task) (count : Nat) : Except RpcError Unit × DispatchPool Task :=
  if count = 0 then
    (.error (.invalidArgument "dispatch thread count must be greater than zero"), p)
  else if p.isStopped then (.error stoppedError, p)
  else (.ok (), p.addWorkers (p.newIds count))

/-- Adds the calling thread, unless it dispatches already. -/
def runHere (p : DispatchPool Task) (current : ThreadId) :
    Except RpcError Unit × DispatchPool Task :=
  if p.isStopped then (.error stoppedError, p)
  else if current ∈ p.threadIds then
    (.error (.invalidArgument "this thread already dispatches for the connection set"), p)
  else (.ok (), p.addWorkers [current])

/-- Stops all threads: the tasks dropped, and the pool. -/
def stop (p : DispatchPool Task) : List Task × DispatchPool Task :=
  (p.backlog ++ p.workers.flatten, { isStopped := true })

/-- Removes a task that has ended. -/
def finish [BEq Task] (p : DispatchPool Task) (task : Task) : DispatchPool Task :=
  { p with workers := p.workers.map fun w => w.filter (· != task) }

def serves [BEq Task] (p : DispatchPool Task) (task : Task) : Bool :=
  p.workers.any (·.contains task)

end DispatchPool

end CallWire
