import CallWire.Config
import CallWire.Protocol.Table

/-!
# CallWire.Connection.Service — what the connections of a set share

The protocol says what is sent and who handles what comes in, and the configuration sets the limits.
-/

namespace CallWire

/-- What the connections of a set share. -/
structure Service where
  protocol : Protocol
  config : Config := {}

def Connection.new (service : Service) (context : String) : Connection where
  context := context
  outbound := { capacity := service.config.maxQueuedFrames }
  decoder := { limit := service.config.maxPayloadLength }

end CallWire
