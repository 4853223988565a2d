/-
The server of `ws_server.cpp` with its queues.

A thread of the pool takes the task at the head of the queue and runs it at any
later step.  Running a request posts it to the strand, whose tasks run one after
the other; running a write calls `Session::write`.
-/

import Averyws.Connection
import Averyws.SessionManager

namespace Averyws

open Library.Run
open Utilities

/-- A bound `Session::request`; the ordinal counts the requests of its session. -/
structure Request where
  session : Nat
  ordinal : Nat
  buffer : ChunkVector
  deriving DecidableEq

inductive Task
  | request (request : Request)
  | write (session : Nat) (data : List UInt8) (is_binary : Bool)
  deriving DecidableEq

structure Sent where
  request : Request
  calls : List Session.DealerCall
  deriving DecidableEq

structure Server where
  num_threads_ : Nat
  connections : List Connection
  session_manager_ : SessionManager
  /-- the tasks posted to `io_service_` -/
  queue : List Task
  /-- the tasks taken and not yet run, with their threads -/
  held : List (Nat × Task)
  io_strand_ : List Request
  sent : List Sent

inductive Event
  | accept (input : List UInt8)
  | socket (session : Nat) (event : SocketEvent)
  | broadcast (data : List UInt8) (is_binary : Bool)
  | take (thread : Nat)
  | dispatch (thread : Nat)
  | strand
  deriving DecidableEq

namespace Server

def start (num_threads : Nat) : Server :=
  { num_threads_ := num_threads
    connections := []
    session_manager_ := SessionManager.init
    queue := []
    held := []
    io_strand_ := []
    sent := [] }

/-- `handle_accept` without an error, on a client that is going to send `input`. -/
def handle_accept (self : Server) (input : List UInt8) : Option Server := do
  let connection ← Connection.accept input
  return { self with
    connections := self.connections ++ [connection]
    session_manager_ := self.session_manager_.add_unauthed self.connections.length }

def requests (session first : Nat) (actions : List Action) : List Task :=
  ((actions.filterMap Action.request?).zipIdx first).map fun numbered =>
    .request { session := session, ordinal := numbered.2, buffer := numbered.1 }

def socket (sha1 : List UInt8 → Digest) (self : Server) (session : Nat) (event : SocketEvent) :
    Option Server := do
  let connection ← self.connections[session]?
  let (next, actions) ← connection.react sha1 event
  return { self with
    connections := self.connections.set session next
    session_manager_ :=
      if .remove ∈ actions then
        self.session_manager_.remove session next.session.authenticated_ next.session.sid_
      else self.session_manager_
    queue := self.queue ++ requests session connection.posted.length actions }

/-- A write for each session of `unauthed_`.  The source walks its set in the order of
the pointers, here the session added last comes first: no result depends on the order
between sessions. -/
def broadcast (self : Server) (data : List UInt8) (is_binary : Bool) : Server :=
  { self with
    queue := self.queue ++
      self.session_manager_.unauthed_.map fun session => .write session data is_binary }

def take (self : Server) (thread : Nat) : Option Server :=
  match self.queue with
  | [] => none
  | task :: rest =>
      if thread < self.num_threads_ ∧ self.held.lookup thread = none then
        some { self with queue := rest, held := self.held ++ [(thread, task)] }
      else none

def dispatch (self : Server) (thread : Nat) : Option Server := do
  let task ← self.held.lookup thread
  let self := { self with held := self.held.eraseP fun taken => taken.1 == thread }
  match task with
  | .request request => return { self with io_strand_ := self.io_strand_ ++ [request] }
  | .write session data is_binary =>
      let connection ← self.connections[session]?
      return { self with
        connections := self.connections.set session (connection.write data is_binary) }

/-- The task at the head of the strand runs on the session as it is now. -/
def strand (self : Server) : Option Server :=
  match self.io_strand_ with
  | [] => none
  | request :: rest => do
      let connection ← self.connections[request.session]?
      return { self with
        io_strand_ := rest
        sent := self.sent ++
          [{ request := request, calls := connection.session.request request.buffer }] }

def idle (self : Server) : Bool :=
  decide (self.held.length < self.num_threads_)

def step (sha1 : List UInt8 → Digest) (self : Server) : Event → Option Server
  | .accept input => if self.idle then self.handle_accept input else none
  | .socket session event => if self.idle then self.socket sha1 session event else none
  | .broadcast data is_binary => some (self.broadcast data is_binary)
  | .take thread => self.take thread
  | .dispatch thread => self.dispatch thread
  | .strand => self.strand

end Server

end Averyws
