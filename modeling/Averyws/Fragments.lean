/-
A message in fragments of any length, gathered into chunks of any size.

Only lengths matter here: which reads `read_chunk` asks for, when a frame is
finished, and how the chunks are cut.  A frame is loaded by giving every read it
asks for the bytes that come next on the stream.
-/

import Averyws.ReadChain
import Averyws.Utilities.ChunkVectorRun

namespace Averyws

open Library.Bytes Library.Cells Library.Chunks
open Utilities

/-- What loading one frame leaves: the bytes of each read, the session, the
actions that are not reads of the payload, and the unread stream. -/
structure Loaded where
  reads : List Nat
  session : Session
  actions : List Action
  rest : List UInt8

def Loaded.cancelled (self : Loaded) : Bool :=
  self.actions.any fun action => action.write?.isSome

/-- `read_chunk` until it asks for no more of the payload. -/
def Session.load : Nat → Session → UInt64 → List UInt8 → Option Loaded
  | 0, _, _, _ => none
  | fuel + 1, self, previous_read, stream => do
      let (self, actions) ← self.read_chunk previous_read false
      match actions with
      | [.async_read { handler := .read_chunk consume, target := target, count := count }] =>
          if count ≤ stream.length then
            let self ← self.store target (stream.take count)
            let loaded ← Session.load fuel self consume (stream.drop count)
            return { loaded with reads := count :: loaded.reads }
          else none
      | actions =>
          return { reads := [], session := self, actions := actions, rest := stream }

/-- One fragment: the session once its header has been read, its payload and what
follows it on the stream. -/
structure Fragment where
  context : Session
  payload : List UInt8
  following : List UInt8
  size : context.header_.payload_size.toNat = payload.length
  masked : (context.header_.mask context.heap).isSome = true

def Fragment.fin (self : Fragment) : Bool :=
  self.context.header_.is_fin self.context.heap

def Fragment.total (fragments : List Fragment) : Nat :=
  (fragments.map fun fragment => fragment.payload.length).sum

def Session.begin (self : Session) (chunk_size : UInt64) : Session :=
  { self with buffer_ := ChunkVector.new chunk_size, gather_ := self.gather_.reset }

/-- A frame is announced by the header `context` has read: of the frames before,
the buffer and the gatherer are left. -/
def Session.announce (self context : Session) : Session :=
  { context with
    buffer_ := self.buffer_
    gather_ := self.gather_.more context.header_.payload_size }

def Session.load_frame (fuel : Nat) (self : Session) (fragment : Fragment) : Option Loaded :=
  Session.load fuel (self.announce fragment.context) 0 (fragment.payload ++ fragment.following)

def Session.load_message (fuel : Nat) : Session → List Fragment → Option (List Loaded)
  | _, [] => some []
  | self, fragment :: rest => do
      let loaded ← self.load_frame fuel fragment
      if loaded.cancelled then
        return [loaded]
      else
        let later ← Session.load_message fuel loaded.session rest
        return loaded :: later

section Closing

variable {gather : Gather} {buffer : ChunkVector} {consumed : Nat}

theorem Gather.Filled.width (filled : gather.Filled buffer consumed)
    (room : consumed + buffer.chunk_size_.toNat < 2 ^ 63) : buffer.bytes.length < 2 ^ 64 := by
  have high := filled.high
  omega

private theorem Gather.Filled.last_size (filled : gather.Filled buffer consumed)
    (finished : gather.total_size_ = gather.total_consumed_)
    (room : consumed + buffer.chunk_size_.toNat < 2 ^ 63) :
    ((buffer.chunk_size + gather.total_size_ - 1) % buffer.chunk_size + 1).toNat =
      (buffer.chunk_size_.toNat + consumed - 1) % buffer.chunk_size_.toNat + 1 := by
  have positive := filled.full.1
  have total : gather.total_size_.toNat = consumed := by rw [finished, filled.counted]
  have sum : (buffer.chunk_size_ + gather.total_size_).toNat =
      buffer.chunk_size_.toNat + consumed := by
    rw [UInt64.toNat_add, total, Nat.mod_eq_of_lt (by omega)]
  have less : (buffer.chunk_size_ + gather.total_size_ - 1).toNat =
      buffer.chunk_size_.toNat + consumed - 1 := by
    rw [UInt64.toNat_sub_of_le _ _ (by
      rw [UInt64.le_iff_toNat_le, sum]
      change 1 ≤ _
      omega), sum]
    rfl
  have small := Nat.mod_lt (buffer.chunk_size_.toNat + consumed - 1) positive
  rw [ChunkVector.chunk_size, UInt64.toNat_add, UInt64.toNat_mod, less]
  change (_ + 1) % 2 ^ 64 = _
  rw [Nat.mod_eq_of_lt (by omega)]

theorem Gather.Filled.close (filled : gather.Filled buffer consumed)
    (finished : gather.total_size_ = gather.total_consumed_)
    (complete : gather.utf8_.complete = true)
    (room : consumed + buffer.chunk_size_.toNat < 2 ^ 63) :
    ∃ closed, gather.plan buffer true = some (0, { gather with next_consume_ := 0 }, closed) ∧
      closed.Cut buffer.chunk_size_.toNat consumed := by
  unfold Gather.plan
  rw [if_pos finished, if_pos rfl, if_neg (by rw [complete]; exact Bool.noConfusion)]
  exact ⟨_, rfl, filled.full.cut (filled.width room) filled.low filled.high
    (filled.last_size finished room)⟩

end Closing

/-! ### The reads of one frame -/

/-- Of the bytes announced so far, `consumed` have been read and `remaining` are
still to be read. -/
structure Session.Filling (session : Session) (chunk_size : UInt64) (consumed remaining : Nat) :
    Prop where
  filled : session.gather_.Filled session.buffer_ consumed
  total : session.gather_.total_size_.toNat = consumed + remaining
  chunk_size : session.buffer_.chunk_size_ = chunk_size
  valid : session.gather_.utf8_.valid = true

/-- No read is empty, and together they take the payload and nothing behind it. -/
structure Loaded.Takes (loaded : Loaded) (payload following : List UInt8) : Prop where
  positive : ∀ count ∈ loaded.reads, 0 < count
  sum : loaded.reads.sum = payload.length
  rest : loaded.rest = following

def Loaded.requests (self : Loaded) : List ChunkVector :=
  self.actions.filterMap Action.request?

section Reads

variable {session : Session} {chunk_size : UInt64} {consumed remaining : Nat}

theorem Session.load_congr (fuel : Nat) {session other : Session} {amount : UInt64}
    (stream : List UInt8) (same : session.read_chunk amount false = other.read_chunk 0 false) :
    Session.load fuel session amount stream = Session.load fuel other 0 stream := by
  cases fuel with
  | zero => rfl
  | succ fuel =>
      unfold load
      rw [same]

def Session.planned (session : Session) (next : Gather) (grown : ChunkVector) : Session :=
  { session with
    new_request_ := session.header_.is_fin session.heap
    gather_ := next
    buffer_ := grown }

theorem Session.Filling.ask (filling : session.Filling chunk_size consumed remaining)
    (unfinished : 0 < remaining) (room : consumed + remaining + chunk_size.toNat < 2 ^ 63) :
    ∃ next grown count, session.gather_.Plans next session.buffer_ grown consumed count ∧
      session.read_chunk 0 false = some (session.planned next grown, [.async_read
        { handler := .read_chunk next.next_consume_
          target := some (.chunk (grown.position consumed))
          count := count }]) := by
  have total := filling.total
  have width := filling.filled.width (by rw [filling.chunk_size]; omega)
  have crowded : ¬2 ^ 64 ≤ consumed + session.buffer_.chunk_size_.toNat := by
    rw [filling.chunk_size]
    omega
  obtain ⟨next, grown, count, result, plans⟩ := (filling.filled.plan_cases width
    (session.header_.is_fin session.heap) (by omega)).resolve_right (fun none => crowded none.2)
  have different : next.total_consumed_ ≠ next.total_size_ := by
    intro equal
    have level := filling.filled.counted
    rw [plans.counted, plans.total] at equal
    rw [equal] at level
    omega
  have whole : transfer_exactly next.next_consume_ next.next_consume_ = count := by
    unfold transfer_exactly
    rw [plans.awaits.next, Nat.min_self]
  refine ⟨next, grown, count, plans, ?_⟩
  rw [session.read_chunk_zero _ result]
  unfold after_gather
  rw [if_neg (not_not.mpr rfl), if_pos different, plans.awaits.position, whole]
  rfl

theorem Session.Filling.arrive {next : Gather} {grown : ChunkVector} {count : Nat}
    (filling : session.Filling chunk_size consumed remaining)
    (plans : session.gather_.Plans next session.buffer_ grown consumed count)
    (masked : (session.header_.mask session.heap).isSome = true)
    (room : consumed + remaining < 2 ^ 63) (data : List UInt8) (length : data.length = count) :
    ∃ stored : Session,
      (session.planned next grown).store (some (.chunk (grown.position consumed))) data =
        some stored ∧
      ((∃ later : Session,
          stored.read_chunk next.next_consume_ false = later.read_chunk 0 false ∧
          later.Filling chunk_size (consumed + count) (remaining - count) ∧
          later.header_ = session.header_ ∧ later.heap = session.heap) ∨
        ∃ last : Session,
          stored.read_chunk next.next_consume_ false = some (last, last.cancel_socket 1007)) := by
  have total := filling.total
  have last := plans.last
  have nonzero := plans.awaits.next_ne_zero
  have valid : next.utf8_.valid = true := by
    rw [plans.utf8]
    exact filling.valid
  obtain ⟨key, mask⟩ := Option.isSome_iff_exists.mp masked
  obtain ⟨stored, after, storing, unmasked, same, -, filled⟩ :=
    plans.awaits.unmask_eq mask valid data length (by omega)
  refine ⟨{ session.planned next grown with buffer_ := stored }, ?_, ?_⟩
  · unfold store
    simp only [planned, storing, Option.bind_eq_bind, Option.bind_some]
    rfl
  · by_cases accepted : (Websocket.applyMask data key next.mask_offset_
        (!session.header_.is_binary) next.utf8_).utf8.valid = true
    · left
      refine ⟨_, Session.read_chunk_delivered { session.planned next grown with
        buffer_ := stored } _ _ after nonzero unmasked accepted, ⟨filled, ?_, ?_, accepted⟩,
        rfl, rfl⟩
      · change next.total_size_.toNat = _
        rw [plans.total, total]
        omega
      · exact same.trans (plans.chunk_size.trans filling.chunk_size)
    · right
      exact Session.read_chunk_rejected { session.planned next grown with buffer_ := stored } _ _
        after nonzero unmasked (Bool.eq_false_iff.mpr accepted)

/-- Behind the last byte of a frame the next header is read; the last frame of
the message posts its chunks first, or is cancelled inside a character. -/
theorem Session.Filling.finish (filling : session.Filling chunk_size consumed 0)
    (room : consumed + chunk_size.toNat < 2 ^ 63) :
    ∃ next actions, session.read_chunk 0 false = some (next, actions) ∧
      next.new_request_ = session.header_.is_fin session.heap ∧
      ((session.header_.is_fin session.heap = false ∧ next.Filling chunk_size consumed 0 ∧
          actions = [next.async_read_header]) ∨
        (session.header_.is_fin session.heap = true ∧
          next.buffer_.Cut chunk_size.toNat consumed ∧
          actions = [.post next.buffer_, next.async_read_header]) ∨
        actions = next.cancel_socket 1007) := by
  have total := filling.total
  have filled := filling.filled
  have finished : session.gather_.total_size_ = session.gather_.total_consumed_ := by
    rw [← UInt64.toNat_inj, total, filled.counted, Nat.add_zero]
  cases fin : session.header_.is_fin session.heap with
  | false =>
      have planned : session.gather_.plan session.buffer_ false = _ :=
        Gather.plan_continue finished
      rw [← fin] at planned
      rw [session.read_chunk_zero _ planned]
      unfold after_gather
      rw [if_neg (not_not.mpr rfl), if_neg (not_not.mpr finished.symm)]
      refine ⟨_, _, rfl, fin, .inl ⟨rfl, ⟨?_, total, filling.chunk_size, filling.valid⟩, ?_⟩⟩
      · exact ⟨filled.opened, filled.full, filled.counted, filled.low, filled.high⟩
      · simp only [fin]
        rfl
  | true =>
      cases complete : session.gather_.utf8_.complete with
      | true =>
          obtain ⟨closed, planned, cut⟩ := filled.close finished complete
            (by rw [filling.chunk_size]; exact room)
          rw [← fin] at planned
          rw [session.read_chunk_zero _ planned]
          unfold after_gather
          rw [if_neg (not_not.mpr rfl), if_neg (not_not.mpr finished.symm)]
          refine ⟨_, _, rfl, fin, .inr (.inl ⟨rfl, ?_, ?_⟩)⟩
          · rw [filling.chunk_size] at cut
            exact cut
          · simp only [fin]
            rfl
      | false =>
          have planned : session.gather_.plan session.buffer_ true = _ :=
            Gather.plan_incomplete finished complete
          rw [← fin] at planned
          rw [session.read_chunk_zero _ planned]
          exact ⟨_, _, rfl, fin, .inr (.inr rfl)⟩

structure Loaded.Finishes (loaded : Loaded) (chunk_size : UInt64) (total : Nat) (fin : Bool) :
    Prop where
  new_request : loaded.session.new_request_ = fin
  kept : fin = false → loaded.session.Filling chunk_size total 0
  more : fin = false → loaded.requests = []
  cut : fin = true → loaded.session.buffer_.Cut chunk_size.toNat total
  posted : fin = true → loaded.requests = [loaded.session.buffer_]

/-- Every frame is loaded to its end: by induction on the fuel, since each read
takes at least one byte. -/
theorem Session.Filling.load (fuel : Nat) {payload : List UInt8}
    (filling : session.Filling chunk_size consumed payload.length)
    (masked : (session.header_.mask session.heap).isSome = true)
    (following : List UInt8) (enough : payload.length < fuel)
    (room : consumed + payload.length + chunk_size.toNat < 2 ^ 63) :
    ∃ loaded, Session.load fuel session 0 (payload ++ following) = some loaded ∧
      (loaded.cancelled = false → loaded.Takes payload following ∧
        loaded.Finishes chunk_size (consumed + payload.length)
          (session.header_.is_fin session.heap)) := by
  induction fuel generalizing session consumed payload with
  | zero => exact absurd enough (Nat.not_lt_zero _)
  | succ fuel ih =>
      rcases Nat.eq_zero_or_pos payload.length with none | some
      · have empty := List.eq_nil_of_length_eq_zero none
        subst empty
        obtain ⟨next, actions, result, flag, ending⟩ := filling.finish room
        unfold Session.load
        simp only [result, Option.bind_eq_bind, Option.bind_some]
        rcases ending with ⟨fin, kept, rfl⟩ | ⟨fin, cut, rfl⟩ | rfl
        · refine ⟨_, rfl, fun _ => ⟨⟨?_, rfl, rfl⟩, ?_⟩⟩
          · exact fun _ member => absurd member List.not_mem_nil
          · rw [fin] at flag ⊢
            exact ⟨flag, fun _ => kept, fun _ => rfl, nofun, nofun⟩
        · refine ⟨_, rfl, fun _ => ⟨⟨?_, rfl, rfl⟩, ?_⟩⟩
          · exact fun _ member => absurd member List.not_mem_nil
          · rw [fin] at flag ⊢
            exact ⟨flag, nofun, nofun, fun _ => cut, fun _ => rfl⟩
        · exact ⟨_, rfl, nofun⟩
      · obtain ⟨next, grown, count, plans, result⟩ := filling.ask some room
        have positive := plans.awaits.positive
        have inside : count ≤ payload.length := by
          have last := plans.last
          have total := filling.total
          omega
        obtain ⟨stored, storing, outcome⟩ := filling.arrive plans masked (by omega)
          (payload.take count) (by rw [List.length_take, Nat.min_eq_left inside])
        have first : (payload ++ following).take count = payload.take count :=
          List.take_append_of_le_length inside
        have behind : (payload ++ following).drop count = payload.drop count ++ following :=
          List.drop_append_of_le_length inside
        have fits : count ≤ (payload ++ following).length := by
          rw [List.length_append]
          omega
        have left : (payload.drop count).length = payload.length - count := List.length_drop
        unfold Session.load
        simp only [result, Option.bind_eq_bind, Option.bind_some, if_pos fits, first, storing,
          behind]
        rcases outcome with ⟨later, same, filling', header, heap⟩ | ⟨last, rejected⟩
        · rw [← left] at filling'
          obtain ⟨loaded, done, ended⟩ := ih filling' (by rw [header, heap]; exact masked)
            (by omega) (by omega)
          rw [Session.load_congr fuel _ same, done]
          refine ⟨_, rfl, fun accepted => ?_⟩
          obtain ⟨takes, finishes⟩ := ended accepted
          rw [header, heap, left, Nat.add_assoc, Nat.add_sub_cancel' inside] at finishes
          refine ⟨⟨?_, ?_, takes.rest⟩, ⟨finishes.new_request, finishes.kept,
            finishes.more, finishes.cut, finishes.posted⟩⟩
          · intro other member
            rcases List.mem_cons.mp member with rfl | earlier
            · exact positive
            · exact takes.positive other earlier
          · rw [List.sum_cons, takes.sum, left]
            omega
        · obtain ⟨fuel, rfl⟩ : ∃ smaller, fuel = smaller + 1 :=
            Nat.exists_eq_add_one.mpr (by omega)
          unfold Session.load
          simp only [rejected, Option.bind_eq_bind, Option.bind_some]
          exact ⟨_, rfl, nofun⟩

end Reads

section Messages

variable {session : Session} {chunk_size : UInt64} {consumed : Nat}

theorem Session.filling_begin (session : Session) (positive : 0 < chunk_size.toNat) :
    (session.begin chunk_size).Filling chunk_size 0 0 := by
  refine ⟨⟨rfl, ChunkVector.full_new _ positive, rfl, Nat.le_refl _, ?_⟩, rfl, rfl, rfl⟩
  change 0 < 0 + chunk_size.toNat
  rw [Nat.zero_add]
  exact positive

theorem Session.Filling.load_frame (filling : session.Filling chunk_size consumed 0)
    (fragment : Fragment) (fuel : Nat) (enough : fragment.payload.length < fuel)
    (room : consumed + fragment.payload.length + chunk_size.toNat < 2 ^ 63) :
    ∃ loaded, session.load_frame fuel fragment = some loaded ∧
      (loaded.cancelled = false → loaded.Takes fragment.payload fragment.following ∧
        loaded.Finishes chunk_size (consumed + fragment.payload.length) fragment.fin) := by
  have filled := filling.filled
  have total : (session.gather_.total_size_ + fragment.context.header_.payload_size).toNat =
      consumed + fragment.payload.length := by
    rw [UInt64.toNat_add, filling.total, fragment.size, Nat.mod_eq_of_lt (by omega), Nat.add_zero]
  have started : (session.announce fragment.context).Filling chunk_size consumed
      fragment.payload.length :=
    ⟨⟨filled.opened, filled.full, filled.counted, filled.low, filled.high⟩, total,
      filling.chunk_size, filling.valid⟩
  exact started.load fuel fragment.masked fragment.following enough room

theorem Session.load_message_cons {fragment : Fragment} {loaded : Loaded} {fuel : Nat}
    (done : session.load_frame fuel fragment = some loaded) (accepted : loaded.cancelled = false)
    (rest : List Fragment) :
    session.load_message fuel (fragment :: rest) =
      (loaded.session.load_message fuel rest).map (loaded :: ·) := by
  rw [Session.load_message]
  simp only [done, Option.bind_eq_bind, Option.bind_some, accepted]
  exact Option.map_eq_bind.symm

theorem Session.load_message_cancelled {fragment : Fragment} {loaded : Loaded} {fuel : Nat}
    (done : session.load_frame fuel fragment = some loaded) (cancelled : loaded.cancelled = true)
    (rest : List Fragment) :
    session.load_message fuel (fragment :: rest) = some [loaded] := by
  rw [Session.load_message]
  simp only [done, Option.bind_eq_bind, Option.bind_some, cancelled]
  rfl

/-- By induction on the number of frames before the last, each of which leaves the
session between two frames again. -/
theorem Session.Filling.load_message (fuel count : Nat)
    (filling : session.Filling chunk_size consumed 0) (fragments : List Fragment)
    (flags : fragments.map Fragment.fin = List.replicate count false ++ [true])
    (room : consumed + Fragment.total fragments + chunk_size.toNat < 2 ^ 63)
    (enough : ∀ fragment ∈ fragments, fragment.payload.length < fuel) :
    ∃ frames, session.load_message fuel fragments = some frames ∧
      ((∀ loaded ∈ frames, loaded.cancelled = false) →
        List.Forall₂ (fun fragment loaded => loaded.Takes fragment.payload fragment.following)
          fragments frames ∧
        ∃ request, frames.map Loaded.requests = List.replicate count [] ++ [[request]] ∧
          request.Cut chunk_size.toNat (consumed + Fragment.total fragments)) := by
  induction count generalizing session consumed fragments with
  | zero =>
      obtain ⟨fragment, rfl, fin⟩ := List.map_eq_singleton_iff.mp flags
      obtain ⟨loaded, done, ended⟩ := filling.load_frame fragment fuel
        (enough fragment List.mem_cons_self) room
      cases verdict : loaded.cancelled with
      | true =>
          refine ⟨_, Session.load_message_cancelled done verdict [], fun accepted => ?_⟩
          exact absurd verdict (Bool.eq_false_iff.mp (accepted loaded List.mem_cons_self))
      | false =>
          obtain ⟨takes, finishes⟩ := ended verdict
          refine ⟨[loaded], Session.load_message_cons done verdict [],
            fun _ => ⟨.cons takes .nil, loaded.session.buffer_, ?_, finishes.cut fin⟩⟩
          rw [List.map_singleton, finishes.posted fin]
          rfl
  | succ count ih =>
      obtain ⟨fragment, rest, rfl, fin, later⟩ := List.map_eq_cons_iff.mp flags
      change consumed + (fragment.payload.length + Fragment.total rest) + _ < _ at room
      obtain ⟨loaded, done, ended⟩ := filling.load_frame fragment fuel
        (enough fragment List.mem_cons_self) (by omega)
      cases verdict : loaded.cancelled with
      | true =>
          refine ⟨_, Session.load_message_cancelled done verdict rest, fun accepted => ?_⟩
          exact absurd verdict (Bool.eq_false_iff.mp (accepted loaded List.mem_cons_self))
      | false =>
          obtain ⟨takes, finishes⟩ := ended verdict
          obtain ⟨frames, done', ended'⟩ := ih (finishes.kept fin) rest later (by omega)
            (fun other member => enough other (List.mem_cons_of_mem fragment member))
          refine ⟨loaded :: frames, ?_, fun accepted => ?_⟩
          · rw [Session.load_message_cons done verdict, done']
            rfl
          · obtain ⟨takes', request, requests, cut⟩ :=
              ended' fun other member => accepted other (List.mem_cons_of_mem loaded member)
            refine ⟨.cons takes takes', request, ?_, ?_⟩
            · rw [List.map_cons, requests, finishes.more fin]
              rfl
            · rw [Nat.add_assoc] at cut
              exact cut

end Messages

private theorem send_chunks_concat (front : List (List UInt8)) (last : List UInt8) :
    Session.send_chunks (front ++ [last]) =
      front.map Session.DealerCall.send_more ++ [.send_last last] := by
  induction front with
  | nil => rfl
  | cons chunk front ih =>
      rw [List.cons_append, List.map_cons, List.cons_append, ← ih]
      cases front with
      | nil => rfl
      | cons _ _ => rfl

/-- One call for each chunk in order; the last chunk, or the empty one of an empty
message, with `send_last`. -/
def Session.CallsFor (chunks : List (List UInt8)) (calls : List Session.DealerCall) : Prop :=
  ∃ is_binary, calls = .send_open is_binary ::
    (chunks.dropLast.map .send_more ++ [.send_last (chunks.getLastD []), .send_close])

theorem Utilities.ChunkVector.Cut.calls {request : ChunkVector} {chunk_size total : Nat}
    (cut : request.Cut chunk_size total) (positive : 0 < chunk_size) (running : Session) :
    Session.CallsFor request.chunk_vector_ (running.request request) := by
  refine ⟨running.header_.is_binary, ?_⟩
  unfold Session.request
  have count := cut.count
  rcases List.eq_nil_or_concat request.chunk_vector_ with empty | ⟨front, back, whole⟩
  · have size : request.size = 0 := by
      unfold ChunkVector.size
      rw [empty]
      rfl
    rw [if_pos size, empty]
    rfl
  · rw [List.concat_eq_append] at whole
    have some : request.size ≠ 0 := by
      intro zero
      have none := cut.size
      rw [zero] at none
      rw [whole, List.length_append, List.length_singleton, ← none] at count
      change front.length + 1 = (0 + chunk_size - 1) / chunk_size at count
      rw [Nat.zero_add, Nat.div_eq_of_lt (Nat.sub_one_lt_of_lt positive)] at count
      cases count
    rw [if_neg some, whole, send_chunks_concat, List.dropLast_concat, List.getLastD_concat]
    simp only [List.cons_append, List.nil_append, List.append_assoc]

/-- A message in any fragments is read exactly, cut into chunks of the chunk size
and requested chunk by chunk. -/
theorem Session.message_cut (session : Session) {chunk_size : UInt64} (positive : 1 ≤ chunk_size)
    (fragments : List Fragment) (count fuel : Nat)
    (flags : fragments.map Fragment.fin = List.replicate count false ++ [true])
    (room : Fragment.total fragments + chunk_size.toNat < 2 ^ 63)
    (enough : ∀ fragment ∈ fragments, fragment.payload.length < fuel) :
    ∃ frames, (session.begin chunk_size).load_message fuel fragments = some frames ∧
      ((∀ loaded ∈ frames, loaded.cancelled = false) →
        List.Forall₂ (fun fragment loaded => loaded.Takes fragment.payload fragment.following)
          fragments frames ∧
        ∃ request, frames.map Loaded.requests = List.replicate count [] ++ [[request]] ∧
          request.Cut chunk_size.toNat (Fragment.total fragments) ∧
          ∀ running : Session,
            Session.CallsFor request.chunk_vector_ (running.request request)) := by
  have size : 0 < chunk_size.toNat := UInt64.le_iff_toNat_le.mp positive
  obtain ⟨frames, done, ended⟩ := (session.filling_begin size).load_message fuel count fragments
    flags (by rw [Nat.zero_add]; exact room) enough
  refine ⟨frames, done, fun accepted => ?_⟩
  obtain ⟨takes, request, requests, cut⟩ := ended accepted
  rw [Nat.zero_add] at cut
  exact ⟨takes, request, requests, cut, cut.calls size⟩

def sampleFragment (first : UInt8) (payload following : List UInt8)
    (short : payload.length < 126) : Fragment where
  context := { Session.init with
    header_ := { Header.init with
      mask_ := some { buffer := 0, offset := 10 }
      payload_size_ := UInt64.ofNat payload.length }
    heap := (Store.empty.alloc ((Block.zero 14).write 0 [first])).2 }
  payload := payload
  following := following
  size := UInt64.toNat_ofNat_of_lt' (by change _ < 2 ^ 64; omega)
  masked := rfl

def sampleMessage : List Fragment :=
  [sampleFragment 0x01 [0x61, 0x62] [0x00] (by decide),
    sampleFragment 0x00 [] [0x80] (by decide),
    sampleFragment 0x80 [0x63, 0xc3, 0xa9, 0x64, 0x65] [0x89] (by decide)]

theorem message_cut_sample :
    ∃ frames, (Session.init.begin 3).load_message 8 sampleMessage = some frames ∧
      frames.map Loaded.reads = [[2], [], [1, 3, 1]] ∧
      ∃ request, frames.map Loaded.requests = [[], [], [request]] ∧ request.Cut 3 7 ∧
        ∀ running : Session, Session.CallsFor request.chunk_vector_ (running.request request) := by
  have positive : (1 : UInt64) ≤ 3 := by decide
  obtain ⟨frames, done, ended⟩ := Session.init.message_cut positive sampleMessage 2 8
    (by decide +kernel) (by decide) (by decide)
  have found : ((Session.init.begin 3).load_message 8 sampleMessage).any (fun frames =>
      frames.map Loaded.reads = [[2], [], [1, 3, 1]] ∧
        ∀ loaded ∈ frames, loaded.cancelled = false) = true := by decide +kernel
  rw [done, Option.any_some, decide_eq_true_iff] at found
  obtain ⟨-, request, requests, cut, calls⟩ := ended found.2
  exact ⟨frames, done, found.1, request, requests, cut, calls⟩

/-! ### Frames on the wire -/

/-- Every data frame the header reader lets pass is a fragment, and the handler of
its header starts to load it. -/
theorem Session.Begun.receive_fragment {receiver : Receiver} {session : Session}
    {header : FrameHeader} (begun : session.Begun receiver header)
    (data : ¬ControlOpcode header.opcode)
    (accepted : header.second_verdict receiver.new_request = 0) (payload following : List UInt8)
    (length : payload.length = header.length) :
    ∃ fragment : Fragment, fragment.payload = payload ∧ fragment.following = following ∧
      fragment.fin = header.fin ∧
      session.receive (session.headerRead 2 header.tail.length) header.tail =
        ((if session.new_request_ then session.begin CHUNK_VECTOR_DEFAULT_SIZE
          else session).announce fragment.context).read_chunk 0 false := by
  have arrived : session.receive (session.headerRead 2 header.tail.length) header.tail =
      { session with heap := session.temp_header_.filled session.heap header }.handle_read_header
        false := rfl
  obtain ⟨next, result, -, described, state⟩ := begun.process_tail accepted
  rw [if_neg data] at state
  let context : Session := { session with
    temp_header_ := next
    heap := session.temp_header_.filled session.heap header
    header_ := session.header_.transfer next }
  have first : context.header_.byte context.heap 0 = header.first := described.first
  have mask : context.header_.mask context.heap = some header.key := described.mask
  refine ⟨⟨context, payload, following, ?_, ?_⟩, rfl, rfl, ?_, ?_⟩
  · rw [length]
    exact described.payload
  · rw [mask]
    rfl
  · unfold Fragment.fin
    rw [Header.is_fin_eq, first]
    rfl
  · rw [arrived]
    unfold handle_read_header
    simp only [begun.new_request, result, Header.state, state]
    rw [if_neg Bool.noConfusion, if_neg (not_not.mpr rfl)]
    cases receiver.new_request <;> rfl

end Averyws
