import CallWire.Codec.Stream
import CallWire.Frame.Pipe
import CallWire.Message.Colors
import CallWire.Message.Dictionary
import CallWire.Pairing
import CallWire.Session
import CallWire.Text.Hex
import CallWire.Proofs.Codec.Elements
import CallWire.Proofs.Codec.PrefixFree
import CallWire.Proofs.Codec.RoundTrip
import CallWire.Proofs.Codec.Traversal
import CallWire.Proofs.Connection.AnsweredOnce
import CallWire.Proofs.Connection.BreakingOff
import CallWire.Proofs.Connection.Correlation
import CallWire.Proofs.Connection.Delivery
import CallWire.Proofs.Connection.Dialogue
import CallWire.Proofs.Connection.EndToEnd
import CallWire.Proofs.Connection.Ending
import CallWire.Proofs.Connection.Expiry
import CallWire.Proofs.Connection.Failures
import CallWire.Proofs.Connection.Flushing
import CallWire.Proofs.Connection.Forward
import CallWire.Proofs.Connection.OutboundStream
import CallWire.Proofs.Connection.Outgoing
import CallWire.Proofs.Connection.Reports
import CallWire.Proofs.Connection.Sending
import CallWire.Proofs.Connection.StreamEnd
import CallWire.Proofs.Connection.Suspension
import CallWire.Proofs.Connection.Turns
import CallWire.Proofs.Connection.Uninterrupted
import CallWire.Proofs.Frame.Conservation
import CallWire.Proofs.Frame.End
import CallWire.Proofs.Frame.Fragmentation
import CallWire.Proofs.Frame.Length
import CallWire.Proofs.Frame.Refusal
import CallWire.Proofs.Message.Dictionary
import CallWire.Proofs.Pending.Allocation
import CallWire.Proofs.Pending.Draining
import CallWire.Proofs.Pending.Handle
import CallWire.Proofs.Pending.Handover
import CallWire.Proofs.Pending.LateReply
import CallWire.Proofs.Pending.Outcomes
import CallWire.Proofs.Protocol.Registration
import CallWire.Proofs.Set.Roster
import CallWire.Proofs.Set.Tasks
