import Kulua.ClientConnection
import Std.Data.TreeMap

/-! `UdpServer.java`: the control loop's lookup of the client by source address and the
admission of new ones. -/

namespace Kulua

/-- An IPv4 address and a port; the sockets are bound to `0.0.0.0`. -/
abbrev InetSocketAddress := BitVec 48

structure UdpServer where
  options : Options
  clients : Std.TreeMap InetSocketAddress ClientConnection
  nextClientId : U32
  hadClient : Bool

namespace UdpServer

def new (options : Options) : UdpServer := ⟨options, ∅, 1, false⟩

/-- Scids are hexadecimal, so only ASCII letters have two cases. -/
def equalsIgnoreCase (a b : String) : Bool := a.toLower == b.toLower

/-- The new client with the HELLO_ACK that its constructor sends; none where the scid is
another one. -/
def acceptSrc (self : UdpServer) (src : InetSocketAddress) (now : Nat) (hello : Hello) :
    Option (UdpServer × ClientConnection × Frame) :=
  if equalsIgnoreCase self.options.scid hello.scid then
    let (client, ack) := ClientConnection.new now self.nextClientId hello.audio self.options
    some ({ self with
      nextClientId := self.nextClientId + 1
      hadClient := true
      clients := self.clients.insert src client }, client, ack)
  else none

/-- `client.onFrame(frame)`; closing a client removes it. -/
def dispatch (self : UdpServer) (src : InetSocketAddress) (client : ClientConnection) (now : Nat)
    (frame : Frame) : UdpServer × List Frame × List Bytes :=
  let (client, out, msgs) := client.onFrame now frame
  ({ self with
    clients := if client.closed then self.clients.erase src else self.clients.insert src client },
    out, msgs)

/-- One datagram of the control loop, with the datagrams sent to its source and the messages
handed to `ControlChannel.handle`. A source without a client is heard only with a HELLO. -/
def receive (self : UdpServer) (src : InetSocketAddress) (now : Nat) (frame : Frame) :
    UdpServer × List Frame × List Bytes :=
  match self.clients[src]? with
  | some client => self.dispatch src client now frame
  | none =>
    match frame.type, frame.payload with
    | .hello, some (.hello hello) =>
      match self.acceptSrc src now hello with
      | none => (self, [], [])
      | some (self, client, ack) =>
        let (self, out, msgs) := self.dispatch src client now frame
        (self, ack :: out, msgs)
    | _, _ => (self, [], [])

/-- A call on the client of an address, if it has one; the call does not close the client. -/
def withClient (self : UdpServer) (src : InetSocketAddress)
    (call : ClientConnection → ClientConnection × List Frame) : UdpServer × List Frame :=
  match self.clients[src]? with
  | none => (self, [])
  | some client => ({ self with clients := self.clients.insert src (call client).1 }, (call client).2)

theorem withClient_held {self : UdpServer} {src : InetSocketAddress} {client : ClientConnection}
    (h : self.clients[src]? = some client) (f : ClientConnection → ClientConnection × List Frame) :
    self.withClient src f =
      ({ self with clients := self.clients.insert src (f client).1 }, (f client).2) := by
  simp only [withClient, h]

/-- A datagram of a known source that does not close its client. -/
theorem receive_held {self : UdpServer} {src : InetSocketAddress} {client : ClientConnection}
    (h : self.clients[src]? = some client) {now : Nat} {frame : Frame}
    (hlive : (client.onFrame now frame).1.closed = false) :
    self.receive src now frame =
      ({ self with clients := self.clients.insert src (client.onFrame now frame).1 },
        (client.onFrame now frame).2) := by
  simp [receive, h, dispatch, hlive]

end UdpServer
end Kulua
