import CallWire.Connection.Basic

/-!
# CallWire.Protocol.Handler — what an application does with a request

A handler gets the connection and the request.  It acts on the connection step by step, and every
step may depend on what came of the one before and on the connection as it is by then.  An inline
handler ends with a result.  A deferred handler gets a handle through which the request is answered;
it may go on when it has used the handle or given it away.
-/

namespace CallWire

/-- An operation of a handler on its connection. -/
inductive Effect
  | stopEvents
  | startEvents
  | close
  | notify (command : UInt32) (type : PayloadType) (note : Value)
  /-- Starts a call; other threads wait for it. -/
  | call (command : UInt32) (types : CommandTypes) (request : Value)
  | shutDown

/-- A handler as a program over its connection: operations one after the other, each with access to
the result of the one before and to the connection, and a result. -/
inductive Conduct (α : Type)
  | done (result : α)
  | act (effect : Effect) (next : Except RpcError Unit → Connection → Conduct α)

/-- These operations, whatever their results, and then the result. -/
def Conduct.afterAll {α : Type} (result : α) : List Effect → Conduct α
  | [] => .done result
  | effect :: effects => .act effect fun _ _ => afterAll result effects

/-- How an inline handler ends. -/
inductive InlineResult
  | reply (v : Value)
  | error (s : Status)
  /-- It panics. -/
  | crash

/-- What a deferred handler does with its reply handle. -/
inductive HandleUse
  /-- Keeps it, to answer later. -/
  | keep
  | reply (v : Value)
  /-- Another thread is given the handle and answers. -/
  | replyElsewhere (v : Value)
  | error (s : Status)
  /-- Drops it without an answer, also by returning or by a panic. -/
  | drop

/-- What a deferred handler does with its handle, and what it does after that. -/
structure Release where
  use : HandleUse
  after : Except RpcError Unit → Connection → Conduct Unit

/-- The handler does nothing after that. -/
def Release.last (use : HandleUse) : Release := ⟨use, fun _ _ => .done ()⟩

/-- The handler of a command. -/
inductive Handler
  | inline (run : Connection → (request : Value) → Conduct InlineResult)
  | deferred (run : Connection → (request : Value) → ReplyHandle → Conduct Release)

namespace Handler

def constant (v : Value) : Connection → Value → InlineResult := fun _ _ => .reply v

def echo : Connection → Value → InlineResult := fun _ request => .reply request

def byteLength : Value → Int
  | .string s => (Bytes.ofText s).length
  | _ => 0

def length : Connection → Value → InlineResult :=
  fun _ request => .reply (.int (byteLength request))

def count : Connection → Value → InlineResult :=
  fun _ request => .reply (.list [.int (byteLength request)])

def blob : Connection → Value → InlineResult := fun _ request =>
  match request with
  | .int n => .reply (.list (List.replicate n.toNat (.int 7)))
  | _ => .reply (.list [])

def context : Connection → Value → InlineResult := fun c _ => .reply (.string c.context)

end Handler

end CallWire
