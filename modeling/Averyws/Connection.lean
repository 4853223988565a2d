/-
A session with its socket.

The socket keeps the reads and writes the session has started, the bytes the
client has sent and the bytes that have reached the wire.  A write stays in the
list for ever: how many of its bytes are on the wire and whether its handler has
run are recorded with it.
-/

import Averyws.Handshake
import Averyws.Library.Run

namespace Averyws

open Utilities

structure Outgoing where
  op : WriteOp
  written : Nat
  completed : Bool
  deriving DecidableEq

structure Connection where
  session : Session
  /-- the `async_read_some` of `start` is outstanding -/
  starting : Bool
  reads : List ReadOp
  writes : List Outgoing
  wire : List UInt8
  /-- the length of the wire when the handshake response was on it -/
  handshake_end : Option Nat
  /-- what the client has sent and the session has not read -/
  input : List UInt8
  /-- the buffers given to `io_service_.post`, in order -/
  posted : List ChunkVector
  deriving DecidableEq

inductive SocketEvent
  | read_first (count : Nat)
  | fail_first
  | read (index : Nat)
  | fail_read (index : Nat)
  | write_some (index count : Nat)
  | written (index : Nat) (error : Bool)
  deriving DecidableEq

/-- What happens to a session: an event on its socket or a call of `write`. -/
inductive Stimulus
  | socket (event : SocketEvent)
  | write (data : List UInt8) (is_binary : Bool)
  deriving DecidableEq

namespace Connection

def fresh (op : WriteOp) : Outgoing :=
  { op := op, written := 0, completed := false }

def perform (self : Connection) : Action → Connection
  | .async_read op => { self with reads := self.reads ++ [op] }
  | .async_write op =>
      { self with
        writes := self.writes ++ [fresh op] }
  | .post request => { self with posted := self.posted ++ [request] }
  | .remove => self

def performs (self : Connection) (actions : List Action) : Connection :=
  actions.foldl perform self

theorem performs_eq (self : Connection) (actions : List Action) :
    self.performs actions =
      { self with
        reads := self.reads ++ actions.filterMap Action.read?
        writes := self.writes ++ (actions.filterMap Action.write?).map fresh
        posted := self.posted ++ actions.filterMap Action.request? } := by
  unfold performs
  induction actions generalizing self with
  | nil => simp only [List.foldl_nil, List.filterMap_nil, List.map_nil, List.append_nil]
  | cons action rest ih =>
      rw [List.foldl_cons, ih]
      cases action <;>
        simp [perform, fresh, List.filterMap_cons, Action.read?, Action.write?, Action.request?]

/-- A session that has just been accepted, and what its client is going to send. -/
def accept (input : List UInt8) : Option Connection := do
  let session ← Session.init.start
  return {
    session := session, starting := true, reads := [], writes := [], wire := []
    handshake_end := none, input := input, posted := [] }

/-- The `async_read_some` of `start` completes with some of the client's bytes. -/
def complete_first (sha1 : List UInt8 → Digest) (self : Connection) (count : Nat) :
    Option (Connection × List Action) :=
  if self.starting = true ∧ 0 < count ∧ count ≤ self.session.buffer_.size.toNat
      ∧ count ≤ self.input.length then do
    let (session, actions) ← self.session.receive_first sha1 (self.input.take count)
    let self := { self with
      session := session
      starting := false
      input := self.input.drop count }
    return (self.performs actions, actions)
  else
    none

def fail_first (sha1 : List UInt8 → Digest) (self : Connection) :
    Option (Connection × List Action) :=
  if self.starting = true then do
    let (session, actions) ← self.session.read_first_header sha1 true 0
    let self := { self with session := session, starting := false }
    return (self.performs actions, actions)
  else
    none

def complete_read (self : Connection) (index : Nat) : Option (Connection × List Action) := do
  let op ← self.reads[index]?
  if op.count ≤ self.input.length then
    let (session, actions) ← self.session.receive op (self.input.take op.count)
    let self := { self with
      session := session
      reads := self.reads.eraseIdx index
      input := self.input.drop op.count }
    return (self.performs actions, actions)
  else
    none

def fail_read (self : Connection) (index : Nat) : Option (Connection × List Action) := do
  let op ← self.reads[index]?
  let (session, actions) ← self.session.receive_error op
  let self := { self with session := session, reads := self.reads.eraseIdx index }
  return (self.performs actions, actions)

/-- The transport takes `count` more bytes of a write that still has them. -/
def write_some (self : Connection) (index count : Nat) : Option Connection := do
  let out ← self.writes[index]?
  if out.completed = false ∧ 0 < count ∧ out.written + count ≤ out.op.bytes.length then
    let bytes := (out.op.bytes.drop out.written).take count
    let written := out.written + count
    let self := { self with
      writes := self.writes.set index { out with written := written }
      wire := self.wire ++ bytes }
    if out.op.handler = .handshake ∧ written = out.op.bytes.length then
      return { self with handshake_end := some self.wire.length }
    else
      return self
  else
    none

/-- A write completes: without an error once all its bytes are on the wire,
with one at any time. -/
def complete_write (self : Connection) (index : Nat) (error : Bool) :
    Option (Connection × List Action) := do
  let out ← self.writes[index]?
  if out.completed = false ∧ (error = true ∨ out.written = out.op.bytes.length) then
    let (session, actions) := self.session.handle_write out.op.handler error
    let self := { self with
      session := session
      writes := self.writes.set index { out with completed := true } }
    return (self.performs actions, actions)
  else
    none

def write (self : Connection) (data : List UInt8) (is_binary : Bool) : Connection :=
  self.perform (.async_write (Session.write data is_binary))

def react (sha1 : List UInt8 → Digest) (self : Connection) :
    SocketEvent → Option (Connection × List Action)
  | .read_first count => self.complete_first sha1 count
  | .fail_first => self.fail_first sha1
  | .read index => self.complete_read index
  | .fail_read index => self.fail_read index
  | .write_some index count => (self.write_some index count).map fun next => (next, [])
  | .written index error => self.complete_write index error

def respond (sha1 : List UInt8 → Digest) (self : Connection) :
    Stimulus → Option (Connection × List Action)
  | .socket event => self.react sha1 event
  | .write data is_binary =>
      some (self.write data is_binary, [.async_write (Session.write data is_binary)])

def next (sha1 : List UInt8 → Digest) (self : Connection) (stimulus : Stimulus) :
    Option Connection :=
  (self.respond sha1 stimulus).map Prod.fst

/-- The read chain alone, every read succeeding. -/
def step (self : Connection) : Option Connection :=
  (self.complete_read 0).map Prod.fst

end Connection

end Averyws
