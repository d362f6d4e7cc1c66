/-!
# CallWire.Status — how an endpoint answers a request it does not carry out

An error reply carries a 32-bit code.  The codes below 12 have fixed meanings; every other code
belongs to the application, which may use those from `0x100` on.
-/

namespace CallWire

inductive Status
  | ok
  | unknownCommand
  | malformedPayload
  | frameTooLarge
  | notConnected
  | connectFailed
  | disconnected
  | cancelled
  | handlerFailed
  | invalidProtocol
  | invalidArgument
  | timedOut
  | application (code : UInt32)
  deriving DecidableEq, Repr

namespace Status

def code : Status → UInt32
  | ok => 0
  | unknownCommand => 1
  | malformedPayload => 2
  | frameTooLarge => 3
  | notConnected => 4
  | connectFailed => 5
  | disconnected => 6
  | cancelled => 7
  | handlerFailed => 8
  | invalidProtocol => 9
  | invalidArgument => 10
  | timedOut => 11
  | application c => c

def ofCode (c : UInt32) : Status :=
  match c.toNat with
  | 0 => ok
  | 1 => unknownCommand
  | 2 => malformedPayload
  | 3 => frameTooLarge
  | 4 => notConnected
  | 5 => connectFailed
  | 6 => disconnected
  | 7 => cancelled
  | 8 => handlerFailed
  | 9 => invalidProtocol
  | 10 => invalidArgument
  | 11 => timedOut
  | _ => application c

def name : Status → String
  | ok => "Ok"
  | unknownCommand => "UnknownCommand"
  | malformedPayload => "MalformedPayload"
  | frameTooLarge => "FrameTooLarge"
  | notConnected => "NotConnected"
  | connectFailed => "ConnectFailed"
  | disconnected => "Disconnected"
  | cancelled => "Cancelled"
  | handlerFailed => "HandlerFailed"
  | invalidProtocol => "InvalidProtocol"
  | invalidArgument => "InvalidArgument"
  | timedOut => "TimedOut"
  | application _ => "Application"

/-- The statuses with a fixed code, in the order of their codes. -/
def fixed : List Status :=
  [ok, unknownCommand, malformedPayload, frameTooLarge, notConnected, connectFailed,
    disconnected, cancelled, handlerFailed, invalidProtocol, invalidArgument, timedOut]

/-- The status of this name; an application's has the code `c`. -/
def ofName? (n : String) (c : UInt32) : Option Status :=
  (fixed ++ [application c]).find? (·.name == n)

def text : Status → String
  | ok => "Success"
  | unknownCommand => "Unknown command"
  | malformedPayload => "Malformed payload"
  | frameTooLarge => "Frame exceeds the maximum payload length"
  | notConnected => "Connection is not connected"
  | connectFailed => "Connect failed"
  | disconnected => "Connection closed"
  | cancelled => "Call cancelled"
  | handlerFailed => "Request handler failed"
  | invalidProtocol => "Call does not match the protocol"
  | invalidArgument => "Invalid argument"
  | timedOut => "Call timed out"
  | application c => s!"Application status {c.toNat}"

def isOk (s : Status) : Bool := s == ok

def isApplication (s : Status) : Bool := 0x100 ≤ s.code

/-- `ok` reported as an error counts as a failed handler. -/
def asFailure : Status → Status
  | ok => handlerFailed
  | s => s

end Status

end CallWire
