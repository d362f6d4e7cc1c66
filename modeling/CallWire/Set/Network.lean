/-!
# CallWire.Set.Network — reaching another socket of this machine
-/

namespace CallWire

inductive Network
  | loopback
  | unreachable
  deriving DecidableEq, Repr

namespace Network

def unreachableText : String := "Network is unreachable (os error 101)"

/-- An attempt to connect to an address of this machine. -/
def connect (n : Network) (isListening : Bool) : Except String Unit :=
  match n with
  | .unreachable => .error unreachableText
  | .loopback => if isListening then .ok () else .error "Connection refused (os error 111)"

end Network

end CallWire
