import CallWire.Protocol.Handler
import CallWire.Text.Quoted

/-!
# CallWire.Protocol.Table — the commands of an interface

A protocol says which commands an endpoint sends and which it handles, with their types.  The two
roles are tables of their own, in ascending order of the commands.  A protocol is built from
registrations; a command registered again in the same role is an error of the whole.
-/

namespace CallWire

/-- A table by command, in ascending order. -/
abbrev CommandTable (α : Type) := List (UInt32 × α)

namespace CommandTable

variable {α : Type}

def get? : CommandTable α → UInt32 → Option α
  | [], _ => none
  | (k, a) :: rest, command => if k = command then some a else get? rest command

def insert : CommandTable α → UInt32 → α → CommandTable α
  | [], command, a => [(command, a)]
  | (k, b) :: rest, command, a =>
    if k = command then (command, a) :: rest
    else if command < k then (command, a) :: (k, b) :: rest
    else (k, b) :: insert rest command a

def commands (t : CommandTable α) : List UInt32 := t.map (·.1)

end CommandTable

structure HandledCommand where
  types : CommandTypes
  handler : Handler

inductive Role
  | sent | handled
  deriving DecidableEq, Repr

namespace Role

def text : Role → String
  | sent => "sent"
  | handled => "handled"

end Role

inductive Registration
  | sends (command : UInt32) (types : CommandTypes)
  | handles (command : UInt32) (entry : HandledCommand)

structure Protocol where
  name : String
  sent : CommandTable CommandTypes := []
  handled : CommandTable HandledCommand := []

/-- A protocol that is built, with the registrations that repeat an earlier one. -/
structure ProtocolDraft where
  protocol : Protocol
  repeated : List (Role × UInt32) := []

namespace ProtocolDraft

/-- A repeated registration replaces the earlier, and is remembered. -/
def add (d : ProtocolDraft) : Registration → ProtocolDraft
  | .sends command types =>
    { protocol := { d.protocol with sent := d.protocol.sent.insert command types }
      repeated := d.repeated ++
        if (d.protocol.sent.get? command).isSome then [(.sent, command)] else [] }
  | .handles command entry =>
    { protocol := { d.protocol with handled := d.protocol.handled.insert command entry }
      repeated := d.repeated ++
        if (d.protocol.handled.get? command).isSome then [(.handled, command)] else [] }

end ProtocolDraft

namespace Protocol

def roleText (r : Role × UInt32) : String := s!"{r.1.text} command {r.2.toNat}"

/-- Fails if a command was registered twice in one role. -/
def build (name : String) (registrations : List Registration) : Except RpcError Protocol :=
  let draft := registrations.foldl ProtocolDraft.add { protocol := { name } }
  if draft.repeated.isEmpty then .ok draft.protocol
  else
    let repeated := ", ".intercalate (draft.repeated.map roleText)
    .error (.invalidArgument s!"protocol '{name}' registers {repeated} more than once")

def sentTypes (p : Protocol) (command : UInt32) : Except RpcError CommandTypes :=
  match p.sent.get? command with
  | some types => .ok types
  | none => .error (.unknownCommand command)

def handledTypes (p : Protocol) (command : UInt32) : Except RpcError CommandTypes :=
  match p.handled.get? command with
  | some entry => .ok entry.types
  | none => .error (.unknownCommand command)

def listText (commands : List UInt32) : String :=
  "[" ++ ", ".intercalate (commands.map fun c => toString c.toNat) ++ "]"

def text (p : Protocol) : String :=
  "Protocol \x7b name: " ++ Text.quoted p.name ++ ", sent: " ++ listText p.sent.commands ++
    ", handled: " ++ listText p.handled.commands ++ " \x7d"

end Protocol

end CallWire
