/-
The ZeroMQ dealer of `zmq_dealer.cpp`.

Requests leave as messages of several parts: the type, then the chunks.  The
receiving loop takes parts two at a time, whatever messages they belong to.
-/

import Averyws.Session

namespace Averyws.Dealer

open Utilities

/-! ### The publishing side -/

/-- A PUB socket: the parts of the message begun and the messages sent. -/
structure Publisher where
  parts : List (List UInt8)
  messages : List (List (List UInt8))
  deriving DecidableEq

namespace Publisher

/-- `socket_pub_.send` with and without `ZMQ_SNDMORE`. -/
def send (self : Publisher) (part : List UInt8) (more : Bool) : Publisher :=
  if more then { self with parts := self.parts ++ [part] }
  else { parts := [], messages := self.messages ++ [self.parts ++ [part]] }

def perform (self : Publisher) : Session.DealerCall → Publisher
  | .send_open is_binary => self.send [if is_binary then 0x42 else 0x55] true
  | .send_more chunk => self.send chunk true
  | .send_last chunk => self.send chunk false
  | .send_close => self

def performs (self : Publisher) (calls : List Session.DealerCall) : Publisher :=
  calls.foldl perform self

theorem performs_chunks (self : Publisher) (chunks : List (List UInt8)) (nonempty : chunks ≠ []) :
    self.performs (Session.send_chunks chunks) =
      { parts := [], messages := self.messages ++ [self.parts ++ chunks] } := by
  unfold performs
  induction chunks generalizing self with
  | nil => exact absurd rfl nonempty
  | cons chunk rest ih =>
      cases rest with
      | nil => rfl
      | cons next rest =>
          rw [Session.send_chunks, List.foldl_cons, ih _ (List.cons_ne_nil _ _)]
          simp only [perform, send, if_true, List.append_assoc, List.cons_append, List.nil_append]
          exact List.cons_ne_nil _ _

end Publisher

def message (session : Session) (request : ChunkVector) : List (List UInt8) :=
  [if session.header_.is_binary then 0x42 else 0x55] ::
    if request.size = 0 then [[]] else request.chunk_vector_

theorem performs_request (publisher : Publisher) (idle : publisher.parts = [])
    (session : Session) (request : ChunkVector) (chunks : request.chunk_vector_ ≠ []) :
    publisher.performs (session.request request) =
      { parts := [], messages := publisher.messages ++ [message session request] } := by
  have opened : publisher.perform (.send_open session.header_.is_binary) =
      { publisher with parts := [[if session.header_.is_binary then 0x42 else 0x55]] } := by
    change publisher.send _ true = _
    unfold Publisher.send
    rw [if_pos rfl, idle]
    rfl
  have called : publisher.performs (session.request request) =
      (publisher.perform (.send_open session.header_.is_binary)).performs
        (if request.size = 0 then [.send_last []]
          else Session.send_chunks request.chunk_vector_) := by
    unfold Session.request Publisher.performs
    rw [List.foldl_append, List.foldl_append]
    rfl
  rw [called, opened]
  unfold message
  by_cases empty : request.size = 0
  · rw [if_pos empty, if_pos empty]
    rfl
  · rw [if_neg empty, if_neg empty, Publisher.performs_chunks _ _ chunks]
    rfl

/-! ### The receiving loop -/

/-- A message the SUB socket delivers: its first part passes the subscriptions. -/
structure Message where
  type : List UInt8
  rest : List (List UInt8)
  subscribed : type.head? = some 0x42 ∨ type.head? = some 0x55

def Message.parts (message : Message) : List (List UInt8) :=
  message.type :: message.rest

structure Part where
  message : Nat
  index : Nat
  data : List UInt8
  deriving DecidableEq

def arrivals : Nat → List Message → List Part
  | _, [] => []
  | first, message :: rest =>
      (message.parts.zipIdx.map fun part => { message := first, index := part.2, data := part.1 })
        ++ arrivals (first + 1) rest

structure Callback where
  type : Part
  message : Part
  deriving DecidableEq

/-- The flag passed to the callback; the source reads past the end of an empty
type part. -/
def Callback.is_binary (callback : Callback) : Option Bool :=
  callback.type.data.head?.map fun byte => byte == 0x42

/-- The loop: one part is the type, the next one the message. -/
def run : List Part → List Callback
  | type :: message :: rest => { type := type, message := message } :: run rest
  | _ => []

structure Callback.Paired (callback : Callback) : Prop where
  type : callback.type.index = 0
  same : callback.message.message = callback.type.message
  later : 0 < callback.message.index

instance (callback : Callback) : Decidable callback.Paired :=
  decidable_of_iff (callback.type.index = 0 ∧
      callback.message.message = callback.type.message ∧ 0 < callback.message.index)
    ⟨fun ⟨type, same, later⟩ => ⟨type, same, later⟩,
      fun paired => ⟨paired.type, paired.same, paired.later⟩⟩

def Aligned (messages : List Message) : Prop :=
  (∀ message ∈ messages.dropLast, message.parts.length = 2) ∧
    ∀ message ∈ messages.getLast?, message.parts.length ≤ 3

theorem aligned_single (message : Message) : Aligned [message] ↔ message.parts.length ≤ 3 := by
  simp [Aligned]

theorem aligned_cons (message next : Message) (rest : List Message) :
    Aligned (message :: next :: rest) ↔ message.parts.length = 2 ∧ Aligned (next :: rest) := by
  simp [Aligned, and_assoc]

theorem run_paired_iff (first : Nat) (messages : List Message) :
    (∀ callback ∈ run (arrivals first messages), callback.Paired) ↔ Aligned messages := by
  induction messages generalizing first with
  | nil => simp [arrivals, run, Aligned]
  | cons message rest ih =>
      obtain ⟨type, parts, subscribed⟩ := message
      match parts with
      | [] =>
          cases rest with
          | nil =>
              rw [aligned_single]
              exact ⟨fun _ => (by decide : 1 ≤ 3), fun _ _ member => nomatch member⟩
          | cons next later =>
              rw [aligned_cons]
              constructor
              · intro paired
                have crossed := (paired _ List.mem_cons_self).same
                exact absurd crossed (Nat.succ_ne_self first)
              · rintro ⟨one, -⟩
                cases one
      | [payload] =>
          have pair : (∀ callback ∈ run (arrivals first (⟨type, [payload], subscribed⟩ :: rest)),
              callback.Paired) ↔ ∀ callback ∈ run (arrivals (first + 1) rest), callback.Paired := by
            refine List.forall_mem_cons.trans (and_iff_right ?_)
            exact ⟨rfl, rfl, Nat.one_pos⟩
          rw [pair, ih]
          cases rest with
          | nil => simp [Aligned, Message.parts]
          | cons next later =>
              rw [aligned_cons]
              exact (and_iff_right rfl).symm
      | [payload, third] =>
          cases rest with
          | nil =>
              rw [aligned_single]
              refine ⟨fun _ => Nat.le_refl 3, fun _ callback member => ?_⟩
              rw [List.mem_singleton.mp member]
              exact ⟨rfl, rfl, Nat.one_pos⟩
          | cons next later =>
              rw [aligned_cons]
              constructor
              · intro paired
                have shifted := (paired _ (List.mem_cons_of_mem _ List.mem_cons_self)).type
                cases shifted
              · rintro ⟨three, -⟩
                cases three
      | payload :: third :: fourth :: more =>
          have long :
              ¬(⟨type, payload :: third :: fourth :: more, subscribed⟩ : Message).parts.length ≤
                3 := by
            simp [Message.parts]
          constructor
          · intro paired
            have shifted := (paired _ (List.mem_cons_of_mem _ List.mem_cons_self)).type
            cases shifted
          · intro aligned
            cases rest with
            | nil => exact absurd ((aligned_single _).mp aligned) long
            | cons next later =>
                have two := ((aligned_cons _ _ _).mp aligned).1
                exact absurd (Nat.le_trans (Nat.le_of_eq two) (by decide)) long

/-- The callback pairs every type with a payload of the same message exactly when
all messages but the last have two parts and the last has no more than three. -/
theorem callbacks_paired_iff (messages : List Message) :
    (∀ callback ∈ run (arrivals 0 messages), callback.Paired) ↔
      (∀ message ∈ messages.dropLast, message.parts.length = 2) ∧
        ∀ message ∈ messages.getLast?, message.parts.length ≤ 3 :=
  run_paired_iff 0 messages

/-- A type part alone takes the type part of the next message as its payload. -/
theorem callbacks_mixed :
    ¬∀ messages : List Message, ∀ callback ∈ run (arrivals 0 messages), callback.Paired := by
  intro paired
  have first := paired [⟨[0x42], [], Or.inl rfl⟩, ⟨[0x55, 0x75], [[0x78]], Or.inr rfl⟩]
    ⟨⟨0, 0, [0x42]⟩, ⟨1, 0, [0x55, 0x75]⟩⟩ List.mem_cons_self
  exact absurd first.same (by decide)

end Averyws.Dealer
