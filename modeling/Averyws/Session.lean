/-
The completion handlers of `ws_session.cpp`.

A handler maps the session to its next state and the asynchronous operations it
starts, in order.  A handler that throws, or whose behaviour is undefined, has
no result.
-/

import Averyws.Control
import Averyws.Gather

namespace Averyws

open Library.Bytes Library.Cells
open Utilities

/-! ### Asynchronous operations -/

inductive ReadHandler
  | handle_read_header
  | handle_control_read
  | read_chunk (previous_read : UInt64)
  deriving DecidableEq

inductive Target
  | header (pointer : Pointer)
  | control (offset : Nat)
  | chunk (position : Position)
  deriving DecidableEq

/-- An `async_read` of exactly `count` bytes; there is no target when the
source passes a null pointer. -/
structure ReadOp where
  handler : ReadHandler
  target : Option Target
  count : Nat
  deriving DecidableEq

/-- The completion handlers of the writes: the lambda of `read_first_header`,
the two of `handle_control_read`, the one of `cancel_socket` and the one of
`write`. -/
inductive WriteHandler
  | handshake
  | kill
  | ping
  | cancel (code : UInt16)
  | write
  deriving DecidableEq

structure WriteOp where
  handler : WriteHandler
  bytes : List UInt8
  deriving DecidableEq

inductive Action
  | async_read (op : ReadOp)
  | async_write (op : WriteOp)
  /-- `io_service_.post(io_strand_.wrap(bind(&Session::request, .., buffer_)))` -/
  | post (request : ChunkVector)
  /-- `session_manager_.remove(shared_from_this())` -/
  | remove
  deriving DecidableEq

def Action.read? : Action → Option ReadOp
  | .async_read op => some op
  | _ => none

def Action.write? : Action → Option WriteOp
  | .async_write op => some op
  | _ => none

def Action.request? : Action → Option ChunkVector
  | .post request => some request
  | _ => none

/-- The bytes an `async_read` into `capacity` bytes with `transfer_exactly`
waits for. -/
def transfer_exactly (capacity exactly : UInt64) : Nat :=
  min capacity.toNat exactly.toNat

/-! ### The session -/

structure Session where
  buffer_ : ChunkVector
  rsvc_ : UInt8
  new_request_ : Bool
  header_ : Header
  temp_header_ : Header
  gather_ : Gather
  control_ : Control
  sid_ : String
  authenticated_ : Bool
  heap : Heap
  deriving DecidableEq

namespace Session

/-- The constructor; `buffer_` and `new_request_` are unset until `start`. -/
def init : Session :=
  { buffer_ := ChunkVector.new CHUNK_VECTOR_DEFAULT_SIZE
    rsvc_ := 0x00
    new_request_ := false
    header_ := Header.init
    temp_header_ := Header.init
    gather_ := Gather.init
    control_ := Control.init
    sid_ := ""
    authenticated_ := false
    heap := Store.empty }

/-- The read of the next header bytes, as `read_header` and `handle_read_header`
issue it. -/
def async_read_header (self : Session) : Action :=
  .async_read
    { handler := .handle_read_header
      target := self.temp_header_.current_position.map Target.header
      count := transfer_exactly self.temp_header_.size_left self.temp_header_.next_read_size }

def read_header (self : Session) : Session × List Action :=
  let (temp_header, heap) := self.temp_header_.new_buffer self.heap
  let self := { self with temp_header_ := temp_header, heap := heap }
  (self, [self.async_read_header])

def cancel_socket (self : Session) (code : UInt16) : List Action :=
  [.async_write
    { handler := .cancel code
      bytes :=
        [0x88 ||| self.rsvc_, 0x00,
          ((code &&& 0xff00) >>> 8).toUInt8, ((code &&& 0x00ff) >>> 0).toUInt8] }]

def after_gather (self : Session) (rcode : Nat) : Session × List Action :=
  if rcode ≠ 0 then
    (self, self.cancel_socket (UInt16.ofNat rcode))
  else if self.gather_.total_consumed_ ≠ self.gather_.total_size_ then
    (self,
      [.async_read
        { handler := .read_chunk self.gather_.next_consume_
          target := self.gather_.buffer_position_.map Target.chunk
          count := transfer_exactly self.gather_.next_consume_ self.gather_.next_consume_ }])
  else
    let posted := if self.new_request_ then [Action.post self.buffer_] else []
    let (self, actions) := self.read_header
    (self, posted ++ actions)

def read_chunk (self : Session) (previous_read : UInt64) (error : Bool) :
    Option (Session × List Action) :=
  if error then
    some (self, [.remove])
  else do
    let self := { self with new_request_ := self.header_.is_fin self.heap }
    let (rcode, gather, buffer) ←
      self.gather_.read_chunk self.header_ self.heap self.buffer_ previous_read self.new_request_
    return { self with gather_ := gather, buffer_ := buffer }.after_gather rcode

def handle_read_header (self : Session) (error : Bool) : Option (Session × List Action) :=
  if error then
    some (self, [.remove])
  else
    let (rcode, temp_header, heap) := self.temp_header_.process self.heap self.new_request_
    let self := { self with temp_header_ := temp_header, heap := heap }
    if rcode ≠ 0 then
      some (self, self.cancel_socket (UInt16.ofNat rcode))
    else
      match self.temp_header_.state with
      | .CONTROL =>
          if self.temp_header_.is_fin self.heap = false then
            some (self, self.cancel_socket 1002)
          else
            let self := { self with control_ := self.control_.new_buffer }
            some (self,
              [.async_read
                { handler := .handle_control_read
                  target := some (.control Control.payload_begin)
                  count := transfer_exactly Control.capacity.toUInt64
                    self.temp_header_.payload_size }])
      | .DATA =>
          let self := { self with header_ := self.header_.transfer self.temp_header_ }
          let self :=
            if self.new_request_ then
              { self with
                buffer_ := ChunkVector.new CHUNK_VECTOR_DEFAULT_SIZE
                gather_ := self.gather_.reset }
            else self
          let self := { self with gather_ := self.gather_.more self.header_.payload_size }
          self.read_chunk 0 false
      | _ => some (self, [self.async_read_header])

def handle_control_read (self : Session) (error : Bool) : Option (Session × List Action) :=
  if error then
    some (self, [.remove])
  else do
    let (rcode, control) ← self.control_.process self.temp_header_ self.heap
    let self := { self with control_ := control }
    if rcode ≠ 0 then
      return (self, self.cancel_socket (UInt16.ofNat rcode))
    else
      match self.control_.state_ with
      | .KILL =>
          return (self, [.async_write { handler := .kill, bytes := self.control_.reply }])
      | .PONG =>
          return self.read_header
      | .PING =>
          let pong := Action.async_write { handler := .ping, bytes := self.control_.reply }
          let (self, actions) := self.read_header
          return (self, pong :: actions)
      | .INVALID =>
          return (self, [.remove])

def handle_write (self : Session) (handler : WriteHandler) (error : Bool) :
    Session × List Action :=
  match handler with
  | .handshake => if error then (self, [.remove]) else self.read_header
  | .kill => (self, [.remove])
  | .cancel _ => (self, [.remove])
  | .ping => if error then (self, [.remove]) else (self, [])
  | .write => if error then (self, [.remove]) else (self, [])

/-- The `async_write` of `Session::write`.  The flags carry no mask bit, so no
random bytes are drawn. -/
def write (data : List UInt8) (is_binary : Bool) : WriteOp :=
  let flags : UInt16 := 0x8000
  let flags := if is_binary then flags ||| 0x0200 else flags ||| 0x0100
  let size := UInt64.ofNat data.length
  let header_size := Websocket.reserve size flags
  let header := List.replicate header_size.toNat 0
  let (header, _) :=
    Websocket.makeHeader (Vector.replicate 4 0) header header_size size flags
  { handler := .write, bytes := header ++ data }

inductive DealerCall
  | send_open (is_binary : Bool)
  | send_more (chunk : List UInt8)
  | send_last (chunk : List UInt8)
  | send_close
  deriving DecidableEq

def send_chunks : List (List UInt8) → List DealerCall
  | [] => []
  | [chunk] => [.send_last chunk]
  | chunk :: rest => .send_more chunk :: send_chunks rest

/-- The calls on the dealer.  The type is read from the session when the task
runs, the chunks are those of the captured buffer. -/
def request (self : Session) (request : ChunkVector) : List DealerCall :=
  [.send_open self.header_.is_binary]
    ++ (if request.size = 0 then [.send_last []] else send_chunks request.chunk_vector_)
    ++ [.send_close]

def store (self : Session) (target : Option Target) (bytes : List UInt8) : Option Session :=
  match target with
  | none => none
  | some (.header pointer) =>
      some { self with
        heap := self.heap.save pointer.buffer
          ((self.heap.load pointer.buffer).write pointer.offset bytes) }
  | some (.control offset) =>
      some { self with
        control_ := { self.control_ with
          buffer_ := self.control_.buffer_.write offset bytes } }
  | some (.chunk position) => do
      let buffer ← self.buffer_.store position bytes
      return { self with buffer_ := buffer }

/-- A successful read: its bytes arrive, then its handler runs. -/
def receive (self : Session) (op : ReadOp) (bytes : List UInt8) :
    Option (Session × List Action) := do
  let self ← self.store op.target bytes
  match op.handler with
  | .handle_read_header => self.handle_read_header false
  | .handle_control_read => self.handle_control_read false
  | .read_chunk previous_read => self.read_chunk previous_read false

/-- A failed read: whatever part of the bytes arrived, its handler only sees the
error. -/
def receive_error (self : Session) (op : ReadOp) : Option (Session × List Action) :=
  match op.handler with
  | .handle_read_header => self.handle_read_header true
  | .handle_control_read => self.handle_control_read true
  | .read_chunk previous_read => self.read_chunk previous_read true

end Session

end Averyws
