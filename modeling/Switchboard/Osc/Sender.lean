import Switchboard.Osc.Datagram

/-!
# The sender

A sender holds at most one client, made for its target when a payload is to be sent. An attempt
that fails gives the client up, and a send makes two attempts. What the network does is given:
for each of the coming connections, and for each of the coming transmissions, whether it fails.
-/
namespace Switchboard.Osc

structure Target where
  host : Value
  port : Value

def Target.text (t : Target) : Except Fault String := do
  let host ← t.host.plain
  let port ← t.port.plain
  return host ++ ":" ++ port

structure Delivery where
  target : Target
  address : String
  argument : Argument

structure Network where
  /-- Whether a client refuses what has no datagram. -/
  strict : Bool := false
  /-- For each coming connection, whether it fails; after the last one none does. -/
  connectFaults : List Bool := []
  sendFaults : List Bool := []
  connected : Nat := 0
  delivered : List Delivery := []

namespace Network

def connect (net : Network) : Bool × Network :=
  let rest := { net with connectFaults := net.connectFaults.tail }
  if net.connectFaults.headD false then (false, rest)
  else (true, { rest with connected := net.connected + 1 })

/-- Hands a message to a client. One that has no datagram is refused before it is sent. -/
def transmit (net : Network) (d : Delivery) : Bool × Network :=
  if net.strict && !isSendable d.address d.argument then (false, net)
  else
    let rest := { net with sendFaults := net.sendFaults.tail }
    if net.sendFaults.headD false then (false, rest)
    else (true, { rest with delivered := net.delivered ++ [d] })

end Network

structure Sender where
  target : Target
  /-- The name of the format, which is looked at when a payload is sent. -/
  format : Value
  /-- The target that the held client was made for. -/
  client : Option Target := none
  sent : Nat := 0
  errors : Nat := 0

namespace Sender

/-- The target that an attempt goes to: that of the held client, or of a new one. A new client is
of no use if its target has no text. -/
def reach (s : Sender) (net : Network) : Option Target × Network :=
  match s.client with
  | some t => (some t, net)
  | none =>
    let (made, net) := net.connect
    (if made && s.target.text.isOk then some s.target else none, net)

def attempt (s : Sender) (net : Network) (address : String) (a : Argument) :
    Bool × Sender × Network :=
  match s.reach net with
  | (none, net) => (false, { s with client := none }, net)
  | (some t, net) =>
    let (done, net) := net.transmit ⟨t, address, a⟩
    (done, { s with client := if done then some t else none }, net)

def countSent (s : Sender) : Sender := { s with sent := s.sent + 1 }

def countError (s : Sender) : Sender := { s with errors := s.errors + 1 }

/-- Hands a message over in two attempts at most. -/
def sendArgument (s : Sender) (net : Network) (address : String) (a : Argument) :
    Bool × Sender × Network :=
  match s.attempt net address a with
  | (true, s, net) => (true, s.countSent, net)
  | (false, s, net) =>
    match s.attempt net address a with
    | (true, s, net) => (true, s.countSent, net)
    | (false, s, net) => (false, s.countError, net)

/-- Sends a payload to an address and says whether it went out. A payload that cannot be written
is an error, and no client is asked. One that is nested too deep is not made up for. -/
def send (s : Sender) (net : Network) (address : String) (payload : Value) :
    Except Fault (Bool × Sender × Network) :=
  match argument payload s.format with
  | .ok a => .ok (s.sendArgument net address a)
  | .error f => if f.isOfInput then .ok (false, s.countError, net) else .error f

/-- Changes what is given of the target and the format, and gives the client up. -/
def retarget (s : Sender) (host port format : Value) : Sender where
  target := ⟨if host.given then host else s.target.host, if port.given then port else s.target.port⟩
  format := if format.given then format else s.format
  client := none
  sent := s.sent
  errors := s.errors

def stop (s : Sender) : Sender := { s with client := none }

def forTarget (s : Sender) (target : Target) : Sender := { target := target, format := s.format }

def stats (s : Sender) : Except Fault (Record Value) := do
  return [("target", .text (← s.target.text)), ("format", s.format), ("sent", .int s.sent),
    ("errors", .int s.errors)]

@[simp] theorem stop_client (s : Sender) : s.stop.client = none := rfl

@[simp] theorem retarget_client (s : Sender) (host port format : Value) :
    (s.retarget host port format).client = none := rfl

end Sender

end Switchboard.Osc
