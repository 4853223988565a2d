/-
The opening handshake of `ws_session.cpp`.

The request is searched with `strstr`, as a C string: the search ends at the
first zero byte, and one that leaves the chunk without finding a zero byte has
no result.  The digest is a parameter.
-/

import Averyws.Session
import Averyws.Utilities.Base64

namespace Averyws

open Library.Bytes
open Utilities Utilities.Base64

abbrev Digest := Vector UInt8 20

def find (search : List UInt8) : List UInt8 → Option Nat
  | [] => if search = [] then some 0 else none
  | byte :: rest =>
      if search.isPrefixOf (byte :: rest) then some 0 else (find search rest).map (· + 1)

/-- `strstr` on the string that starts at an index of a memory region.  The
outer result is missing when the string is not terminated inside the region, the
inner one is the null pointer. -/
def strstr (memory : List UInt8) (start : Nat) (search : List UInt8) : Option (Option Nat) :=
  let text := memory.drop start
  if 0 ∈ text then
    some ((find search (text.takeWhile fun byte => byte ≠ 0)).map (start + ·))
  else none

namespace Session

def magic_number : List UInt8 := ascii "258EAFA5-E914-47DA-95CA-C5AB0DC85B11"

def search : List UInt8 := ascii "\r\nSec-WebSocket-Key: "

def response : List UInt8 :=
  ascii "HTTP/1.1 101 Switching Protocols\r\n"
    ++ ascii "Upgrade: websocket\r\n"
    ++ ascii "Connection: Upgrade\r\n"
    ++ ascii "Sec-WebSocket-Accept: "

def response_end : List UInt8 := ascii "\r\n\r\n"

/-- The part of `start` that sets the session up for the first read. -/
def start (self : Session) : Option Session := do
  let (buffer, _) ← (ChunkVector.new CHUNK_VECTOR_DEFAULT_SIZE).new_chunk
  return { self with buffer_ := buffer, new_request_ := true }

def copy (bytes : List UInt8) (buffer : ChunkVector) (index : Nat) : Option ChunkVector := do
  let position ← buffer.at_ (UInt64.ofNat index)
  buffer.store position bytes

def text (buffer : ChunkVector) : Option (List UInt8) := do
  let position ← buffer.at_ 0
  buffer.load position buffer.chunk_size.toNat

def respond (self : Session) (b64 : List UInt8) : Option (Session × List Action) := do
  let buffer ← copy response self.buffer_ 0
  let buffer ← copy b64 buffer response.length
  let buffer ← copy response_end buffer (response.length + b64.length)
  let memory ← text buffer
  let self := { self with
    buffer_ := buffer
    temp_header_ := { self.temp_header_ with rsvc_ := 0x00 } }
  return (self,
    [.async_write
      { handler := .handshake
        bytes := memory.take (response.length + b64.length + response_end.length) }])

def read_first_header (sha1 : List UInt8 → Digest) (self : Session) (error : Bool)
    (bytes_transferred : Nat) : Option (Session × List Action) :=
  if error then
    some (self, [.remove])
  else do
    -- null terminate
    let buffer ← copy [0] self.buffer_ (bytes_transferred - 1)
    let self := { self with buffer_ := buffer }
    let memory ← text self.buffer_
    let found ← strstr memory 0 search
    match found with
    | none =>
        -- the null pointer is moved on before it is compared with null
        none
    | some found =>
        let found := found + search.length
        let found_end ← strstr memory (found + (search.length + 1)) (ascii "\r\n")
        match found_end with
        | none => return (self, [.remove])
        | some found_end =>
            let input := slice memory found (found_end - found) ++ magic_number
            let b64 ← base64_encode (sha1 input).toList
            self.respond b64

def receive_first (sha1 : List UInt8 → Digest) (self : Session) (bytes : List UInt8) :
    Option (Session × List Action) := do
  let buffer ← copy bytes self.buffer_ 0
  { self with buffer_ := buffer }.read_first_header sha1 false bytes.length

end Session

end Averyws
