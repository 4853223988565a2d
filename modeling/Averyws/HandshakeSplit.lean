/-
The handshake request as the transport may split it.

The session answers what its first read happens to deliver, without the last
byte, which the handler overwrites.  A request that is answered when it arrives
whole is answered from its first piece exactly when that piece reaches beyond the
line end behind the key.
-/

import Averyws.SessionRun

namespace Averyws

open Library.Bytes
open Utilities Utilities.Base64

theorem find_bound {search text : List UInt8} {index : Nat}
    (found : find search text = some index) :
    index + search.length ≤ text.length := by
  induction text generalizing index with
  | nil =>
      unfold find at found
      split at found
      · rename_i empty
        cases found
        rw [empty]
        exact Nat.le_refl 0
      · cases found
  | cons byte rest ih =>
      unfold find at found
      split at found
      · rename_i here
        cases found
        rw [Nat.zero_add]
        exact (List.isPrefixOf_iff_prefix.mp here).length_le
      · obtain ⟨later, foundLater, same⟩ := Option.map_eq_some_iff.mp found
        have bound := ih foundLater
        rw [List.length_cons]
        omega

theorem find_take (search text : List UInt8) (count index : Nat) (proper : search ≠ []) :
    find search (text.take count) = some index ↔
      find search text = some index ∧ index + search.length ≤ count := by
  induction text generalizing count index with
  | nil =>
      rw [List.take_nil]
      constructor
      · intro found
        have bound := find_bound found
        have positive := List.length_pos_iff.mpr proper
        rw [List.length_nil] at bound
        omega
      · exact fun both => both.1
  | cons byte rest ih =>
      cases count with
      | zero =>
          have positive := List.length_pos_iff.mpr proper
          rw [List.take_zero, find, if_neg proper]
          constructor
          · intro impossible
            cases impossible
          · intro both
            omega
      | succ count =>
          have prefixes : search.isPrefixOf (byte :: rest.take count) = true ↔
              search.isPrefixOf (byte :: rest) = true ∧ search.length ≤ count + 1 := by
            rw [← List.take_succ_cons, List.isPrefixOf_iff_prefix, List.isPrefixOf_iff_prefix,
              List.prefix_take_iff]
          rw [List.take_succ_cons, find, find]
          by_cases here : search.isPrefixOf (byte :: rest) = true
          · by_cases fits : search.length ≤ count + 1
            · rw [if_pos (prefixes.mpr ⟨here, fits⟩), if_pos here]
              constructor
              · intro found
                cases found
                exact ⟨rfl, by omega⟩
              · exact fun both => both.1
            · rw [if_neg (fun both => fits (prefixes.mp both).2), if_pos here]
              constructor
              · intro found
                obtain ⟨later, foundLater, -⟩ := Option.map_eq_some_iff.mp found
                have bound := find_bound foundLater
                have short := List.length_take_le count rest
                omega
              · intro both
                omega
          · rw [if_neg (fun both => here (prefixes.mp both).1), if_neg here]
            constructor
            · intro found
              obtain ⟨later, foundLater, same⟩ := Option.map_eq_some_iff.mp found
              obtain ⟨whole, bound⟩ := (ih count later).mp foundLater
              rw [whole]
              exact ⟨congrArg some same, by omega⟩
            · intro both
              obtain ⟨later, foundLater, same⟩ := Option.map_eq_some_iff.mp both.1
              rw [(ih count later).mpr ⟨foundLater, by omega⟩]
              exact congrArg some same

theorem takeWhile_take (text : List UInt8) (count : Nat) (keep : UInt8 → Bool) :
    (text.take count).takeWhile keep = (text.takeWhile keep).take count := by
  induction text generalizing count with
  | nil => rw [List.take_nil, List.takeWhile_nil, List.take_nil]
  | cons byte rest ih =>
      cases count with
      | zero => rfl
      | succ count =>
          rw [List.take_succ_cons, List.takeWhile_cons, List.takeWhile_cons]
          cases keep byte with
          | true => rw [if_pos rfl, if_pos rfl, List.take_succ_cons, ih]
          | false => rfl

def text_from (bytes : List UInt8) (start : Nat) : List UInt8 :=
  (bytes.drop start).takeWhile fun byte => byte ≠ 0

theorem text_from_take (bytes : List UInt8) (count start : Nat) :
    text_from (bytes.take count) start = (text_from bytes start).take (count - start) := by
  unfold text_from
  rw [List.drop_take, takeWhile_take]

theorem text_from_terminated (bytes : List UInt8) (count start : Nat) :
    text_from (bytes ++ 0 :: List.replicate count 0) start = text_from bytes start := by
  unfold text_from
  rw [← List.replicate_succ, List.drop_append, List.drop_replicate]
  have stop : ∀ zeros,
      (List.replicate zeros (0 : UInt8)).takeWhile (fun byte => byte ≠ 0) = [] := by
    intro zeros
    cases zeros <;> rfl
  rw [List.takeWhile_append, stop, List.append_nil]
  split
  · rename_i whole
    exact ((List.takeWhile_prefix _).eq_of_length whole).symm
  · rfl

theorem strstr_terminated (bytes search : List UInt8) (count start found : Nat)
    (proper : search ≠ []) :
    strstr (bytes ++ 0 :: List.replicate count 0) start search = some (some found) ↔
      ∃ index, find search (text_from bytes start) = some index ∧ found = start + index := by
  have same := text_from_terminated bytes count start
  unfold text_from at same
  unfold strstr
  simp only
  rw [same]
  change (if _ then some ((find search (text_from bytes start)).map (start + ·)) else none) = _ ↔ _
  split
  · rw [Option.some_inj, Option.map_eq_some_iff]
    constructor
    · rintro ⟨index, here, sum⟩
      exact ⟨index, here, sum.symm⟩
    · rintro ⟨index, here, sum⟩
      exact ⟨index, here, sum.symm⟩
  · rename_i outside
    constructor
    · intro impossible
      cases impossible
    · rintro ⟨index, here, -⟩
      exfalso
      apply outside
      have bound := find_bound here
      have positive := List.length_pos_iff.mpr proper
      have within : (text_from bytes start).length ≤ bytes.length - start := by
        unfold text_from
        exact (List.takeWhile_sublist _).length_le.trans (Nat.le_of_eq List.length_drop)
      rw [List.drop_append_of_le_length (by omega)]
      exact List.mem_append_right _ List.mem_cons_self

/-! ### The key of a request -/

/-- Where the key starts and where the line end behind it stands: the first one
from the twenty-second byte of the key on. -/
def key_span (text : List UInt8) : Option (Nat × Nat) := do
  let found ← find Session.search (text_from text 0)
  let found := found + Session.search.length
  let found_end ←
    find (ascii "\r\n") (text_from text (found + (Session.search.length + 1)))
  return (found, found + (Session.search.length + 1) + found_end)

theorem key_span_eq_some_iff (text : List UInt8) (start stop : Nat) :
    key_span text = some (start, stop) ↔
      ∃ found found_end, find Session.search (text_from text 0) = some found ∧
        find (ascii "\r\n")
          (text_from text (found + Session.search.length + (Session.search.length + 1))) =
            some found_end ∧
        start = found + Session.search.length ∧
        stop = found + Session.search.length + (Session.search.length + 1) + found_end := by
  unfold key_span
  simp only [Option.bind_eq_bind, Option.bind_eq_some_iff, Option.pure_def, Option.some_inj,
    Prod.mk.injEq]
  constructor
  · rintro ⟨found, here, found_end, behind, first, last⟩
    exact ⟨found, found_end, here, behind, first.symm, last.symm⟩
  · rintro ⟨found, found_end, here, behind, first, last⟩
    exact ⟨found, here, found_end, behind, first.symm, last.symm⟩

/-- A piece shows the key exactly when it holds the line end behind it. -/
theorem key_span_take (text : List UInt8) (count start stop : Nat) :
    key_span (text.take count) = some (start, stop) ↔
      key_span text = some (start, stop) ∧ stop + 2 ≤ count := by
  have proper : Session.search ≠ [] := by decide
  have line : ascii "\r\n" ≠ [] := by decide
  have two : (ascii "\r\n").length = 2 := by decide
  rw [key_span_eq_some_iff, key_span_eq_some_iff]
  constructor
  · rintro ⟨found, found_end, here, behind, first, last⟩
    rw [text_from_take, find_take _ _ _ _ proper] at here
    rw [text_from_take, find_take _ _ _ _ line, two] at behind
    exact ⟨⟨found, found_end, here.1, behind.1, first, last⟩, by omega⟩
  · rintro ⟨⟨found, found_end, here, behind, first, last⟩, within⟩
    refine ⟨found, found_end, ?_, ?_, first, last⟩
    · rw [text_from_take, find_take _ _ _ _ proper]
      exact ⟨here, by omega⟩
    · rw [text_from_take, find_take _ _ _ _ line, two]
      exact ⟨behind, by omega⟩

theorem key_span_bounds {text : List UInt8} {start stop : Nat}
    (span : key_span text = some (start, stop)) : start ≤ stop ∧ stop ≤ text.length := by
  obtain ⟨found, found_end, -, behind, first, last⟩ := (key_span_eq_some_iff _ _ _).mp span
  have bound := find_bound behind
  have within : (text_from text (found + Session.search.length +
      (Session.search.length + 1))).length ≤
        text.length - (found + Session.search.length + (Session.search.length + 1)) := by
    unfold text_from
    exact (List.takeWhile_sublist _).length_le.trans (Nat.le_of_eq List.length_drop)
  have two : (ascii "\r\n").length = 2 := by decide
  omega

theorem length_base64_digest {digest : Digest} {b64 : List UInt8}
    (done : base64_encode digest.toList = some b64) : b64.length = 28 := by
  rw [length_base64_encode done, Vector.length_toList]
  decide

def single (memory : List UInt8) : ChunkVector :=
  { chunk_vector_ := [memory], open_ := true, chunk_size_ := CHUNK_VECTOR_DEFAULT_SIZE }

theorem started_buffer {session : Session} (started : Session.init.start = some session) :
    session.buffer_ = single (List.replicate 1024 0) := by
  have size : CHUNK_VECTOR_DEFAULT_SIZE.toNat = 1024 := by decide
  unfold Session.start at started
  obtain ⟨⟨buffer, position⟩, grown, same⟩ := Option.bind_eq_some_iff.mp started
  unfold ChunkVector.new_chunk ChunkVector.new at grown
  rw [if_neg Bool.noConfusion] at grown
  simp only [ChunkVector.bytes, List.flatten_nil, List.length_nil, size, List.nil_append] at grown
  rw [if_neg (by decide)] at grown
  obtain ⟨last, -, pair⟩ := Option.map_eq_some_iff.mp grown
  cases pair
  cases same
  rfl

theorem exists_started : ∃ session, Session.init.start = some session := by
  have positive : 0 < CHUNK_VECTOR_DEFAULT_SIZE.toNat := by decide
  have room : (ChunkVector.new CHUNK_VECTOR_DEFAULT_SIZE).bytes.length +
      CHUNK_VECTOR_DEFAULT_SIZE.toNat < 2 ^ 64 := by decide
  obtain ⟨grown, last, made, -⟩ :=
    (ChunkVector.full_new CHUNK_VECTOR_DEFAULT_SIZE positive).new_chunk_eq rfl room
  unfold Session.start
  rw [made]
  exact ⟨_, rfl⟩

section Chunk

variable {memory : List UInt8}

theorem at_single (full : memory.length = 1024) (index : Nat) (within : index < 1024) :
    (single memory).at_ (UInt64.ofNat index) = some { chunk := 0, offset := index } := by
  have small : (UInt64.ofNat index).toNat = index :=
    UInt64.toNat_ofNat_of_lt' (within.trans (by decide))
  have size : CHUNK_VECTOR_DEFAULT_SIZE.toNat = 1024 := by decide
  unfold ChunkVector.at_ single
  simp only [UInt64.toNat_div, UInt64.toNat_mod, small, size, Nat.div_eq_of_lt within,
    Nat.mod_eq_of_lt within, List.getElem?_cons_zero, full, if_pos within]

theorem copy_single (full : memory.length = 1024) (bytes : List UInt8) (index : Nat)
    (within : index < 1024) (fits : index + bytes.length ≤ 1024) :
    Session.copy bytes (single memory) index = some (single (overwrite memory index bytes)) := by
  unfold Session.copy
  rw [at_single full index within]
  unfold ChunkVector.store
  simp only [Option.bind_eq_bind, Option.bind_some, single, List.getElem?_cons_zero, full,
    if_pos fits, List.set_cons_zero]

theorem text_single (full : memory.length = 1024) :
    Session.text (single memory) = some memory := by
  have size : (single memory).chunk_size.toNat = 1024 := rfl
  unfold Session.text
  rw [show (0 : UInt64) = UInt64.ofNat 0 from rfl, at_single full 0 (by omega)]
  unfold ChunkVector.load
  simp only [Option.bind_eq_bind, Option.bind_some, size]
  simp only [single, List.getElem?_cons_zero, full, Nat.zero_add, Nat.le_refl, if_pos]
  rw [slice, List.drop_zero, ← full, List.take_length]

theorem respond_single {session : Session} (one : session.buffer_ = single memory)
    (full : memory.length = 1024) (b64 : List UInt8) (digits : b64.length = 28) :
    ∃ next, session.respond b64 =
      some (next, [.async_write
        { handler := .handshake
          bytes := Session.response ++ b64 ++ Session.response_end }]) := by
  have head : Session.response.length = 97 := by decide
  have tail : Session.response_end.length = 4 := by decide
  have first : (overwrite memory 0 Session.response).length = 1024 := by
    rw [length_overwrite _ _ _ (by omega), full]
  have second : (overwrite (overwrite memory 0 Session.response) Session.response.length
      b64).length = 1024 := by
    rw [length_overwrite _ _ _ (by omega), first]
  have third : (overwrite (overwrite (overwrite memory 0 Session.response)
      Session.response.length b64) (Session.response.length + b64.length)
      Session.response_end).length = 1024 := by
    rw [length_overwrite _ _ _ (by omega), second]
  have begun := take_overwrite_add memory 0 Session.response (Nat.zero_le _)
  rw [Nat.zero_add, List.take_zero, List.nil_append] at begun
  unfold Session.respond
  rw [one, copy_single full _ 0 (by omega) (by omega)]
  simp only [Option.bind_eq_bind, Option.bind_some]
  rw [copy_single first _ _ (by omega) (by omega)]
  simp only [Option.bind_some]
  rw [copy_single second _ _ (by omega) (by omega)]
  simp only [Option.bind_some]
  rw [text_single third]
  simp only [Option.bind_some, Option.pure_def]
  rw [take_overwrite_add _ _ _ (by omega), take_overwrite_add _ _ _ (by omega), begun]
  exact ⟨_, rfl⟩

end Chunk

def reply_to (sha1 : List UInt8 → Digest) (key : List UInt8) : Option (List UInt8) :=
  (base64_encode (sha1 (key ++ Session.magic_number)).toList).map fun b64 =>
    Session.response ++ b64 ++ Session.response_end

def terminated (bytes : List UInt8) : List UInt8 :=
  bytes.dropLast ++ 0 :: List.replicate (1024 - bytes.length) 0

private theorem overwrite_cleared (bytes : List UInt8) :
    overwrite (List.replicate 1024 0) 0 bytes =
      bytes ++ List.replicate (1024 - bytes.length) 0 := by
  rw [overwrite, List.take_zero, List.nil_append, Nat.zero_add, List.drop_replicate]

private theorem length_filled {bytes : List UInt8} (fits : bytes.length ≤ 1024) :
    (bytes ++ List.replicate (1024 - bytes.length) 0).length = 1024 := by
  rw [List.length_append, List.length_replicate]
  omega

private theorem overwrite_filled {bytes : List UInt8} (positive : bytes ≠ []) :
    overwrite (bytes ++ List.replicate (1024 - bytes.length) 0) (bytes.length - 1) [0] =
      terminated bytes := by
  have count := List.length_pos_iff.mpr positive
  rw [overwrite, List.take_append_of_le_length (by omega), ← List.dropLast_eq_take,
    List.length_singleton, Nat.sub_add_cancel count, List.drop_left, List.append_assoc,
    List.singleton_append]
  rfl

private theorem length_terminated {bytes : List UInt8} (positive : bytes ≠ [])
    (fits : bytes.length ≤ 1024) : (terminated bytes).length = 1024 := by
  have count := List.length_pos_iff.mpr positive
  have filled := length_filled fits
  rw [← overwrite_filled positive, length_overwrite, filled]
  rw [List.length_singleton, filled]
  omega

private theorem slice_terminated {bytes : List UInt8} (positive : bytes ≠ []) {start stop : Nat}
    (span : key_span bytes.dropLast = some (start, stop)) :
    slice (terminated bytes) start (stop - start) = slice bytes start (stop - start) := by
  obtain ⟨ordered, bound⟩ := key_span_bounds span
  unfold terminated
  rw [slice_append _ _ _ _ (by omega)]
  conv => rhs; rw [← List.dropLast_concat_getLast positive]
  rw [slice_append _ _ _ _ (by omega)]

/-- The first read is answered exactly when it shows the key before its last
byte, and then with the response to that key. -/
theorem receive_first_answers_iff (sha1 : List UInt8 → Digest) {session : Session}
    (started : Session.init.start = some session) (bytes : List UInt8)
    (positive : bytes ≠ []) (fits : bytes.length ≤ 1024) (reply : List UInt8) :
    (∃ next, session.receive_first sha1 bytes =
        some (next, [.async_write { handler := .handshake, bytes := reply }])) ↔
      ∃ start stop, key_span bytes.dropLast = some (start, stop) ∧
        reply_to sha1 (slice bytes start (stop - start)) = some reply := by
  have proper : Session.search ≠ [] := by decide
  have line : ascii "\r\n" ≠ [] := by decide
  have count := List.length_pos_iff.mpr positive
  have cleared : (List.replicate 1024 (0 : UInt8)).length = 1024 := List.length_replicate
  have whole := length_terminated positive fits
  unfold Session.receive_first
  rw [started_buffer started, copy_single cleared _ 0 (by omega) (by omega), overwrite_cleared]
  simp only [Option.bind_eq_bind, Option.bind_some]
  unfold Session.read_first_header
  rw [if_neg Bool.noConfusion, copy_single (length_filled fits) _ _ (by omega)
    (by rw [List.length_singleton]; omega), overwrite_filled positive]
  simp only [Option.bind_eq_bind, Option.bind_some]
  rw [text_single whole]
  simp only [Option.bind_some]
  have shown (search : List UInt8) (start found : Nat) (proper : search ≠ []) :
      strstr (terminated bytes) start search = some (some found) ↔
        ∃ index, find search (text_from bytes.dropLast start) = some index ∧
          found = start + index :=
    strstr_terminated bytes.dropLast search (1024 - bytes.length) start found proper
  have responds : ∀ b64 : List UInt8, b64.length = 28 → ∃ next,
      { session with buffer_ := single (terminated bytes) }.respond b64 =
        some (next, [.async_write
          { handler := .handshake
            bytes := Session.response ++ b64 ++ Session.response_end }]) :=
    fun b64 digits => respond_single rfl whole b64 digits
  constructor
  · rintro ⟨next, done⟩
    obtain ⟨found, here, done⟩ := Option.bind_eq_some_iff.mp done
    cases found with
    | none => cases done
    | some found =>
        obtain ⟨index, first, sum⟩ := (shown _ _ _ proper).mp here
        rw [Nat.zero_add] at sum
        obtain ⟨found_end, behind, done⟩ := Option.bind_eq_some_iff.mp done
        cases found_end with
        | none => cases done
        | some found_end =>
            obtain ⟨last, second, stop⟩ := (shown _ _ _ line).mp behind
            obtain ⟨b64, encoded, done⟩ := Option.bind_eq_some_iff.mp done
            have span : key_span bytes.dropLast =
                some (found + Session.search.length, found_end) := by
              rw [key_span_eq_some_iff]
              exact ⟨found, last, by rw [sum]; exact first, second, rfl, stop⟩
            refine ⟨_, _, span, ?_⟩
            rw [slice_terminated positive span] at encoded
            unfold reply_to
            rw [encoded]
            obtain ⟨after, answer⟩ := responds b64 (length_base64_digest encoded)
            rw [answer] at done
            cases done
            rfl
  · rintro ⟨start, stop, span, answer⟩
    obtain ⟨b64, encoded, same⟩ := Option.map_eq_some_iff.mp answer
    obtain ⟨found, last, first, second, rfl, rfl⟩ := (key_span_eq_some_iff _ _ _).mp span
    obtain ⟨after, answer⟩ := responds b64 (length_base64_digest encoded)
    rw [(shown _ _ _ proper).mpr ⟨found, first, (Nat.zero_add _).symm⟩]
    simp only [Option.bind_some]
    rw [(shown _ _ _ line).mpr ⟨last, second, rfl⟩]
    simp only [Option.bind_some]
    rw [slice_terminated positive span, encoded]
    simp only [Option.bind_some]
    rw [answer, same]
    exact ⟨after, rfl⟩

/-! ### Segmentations of a request -/

namespace Connection

/-- The response a session gives to bytes that its reads deliver in these
segments.  `start` reads once, and what that read leaves stays in the socket. -/
def answer (sha1 : List UInt8 → Digest) (segments : List (List UInt8)) : Option (List UInt8) := do
  let connection ← accept segments.flatten
  let segment ← segments.head?
  let (_, actions) ← connection.complete_first sha1 segment.length
  let op ← (actions.filterMap Action.write?).head?
  return op.bytes

theorem answer_eq_some_iff (sha1 : List UInt8 → Digest) (segment : List UInt8)
    (later : List (List UInt8)) (positive : segment ≠ []) (reply : List UInt8) :
    answer sha1 (segment :: later) = some reply ↔
      segment.length ≤ 1024 ∧ ∃ start stop,
        key_span segment.dropLast = some (start, stop) ∧
        reply_to sha1 (slice segment start (stop - start)) = some reply := by
  obtain ⟨session, started⟩ := exists_started
  have size : session.buffer_.size.toNat = 1024 := by
    rw [started_buffer started]
    unfold ChunkVector.size single
    simp only [List.getLast?_singleton, List.length_singleton, List.length_replicate]
    decide
  have count := List.length_pos_iff.mpr positive
  have taken : (segment ++ later.flatten).take segment.length = segment := List.take_left
  have enough : segment.length ≤ (segment ++ later.flatten).length := by
    rw [List.length_append]
    exact Nat.le_add_right _ _
  unfold answer accept complete_first
  rw [started]
  simp only [Option.bind_eq_bind, Option.bind_some, List.flatten_cons, List.head?_cons,
    Option.pure_def, size, taken]
  by_cases fits : segment.length ≤ 1024
  · rw [if_pos ⟨trivial, count, fits, enough⟩]
    have answers := receive_first_answers_iff sha1 started segment positive fits reply
    constructor
    · intro done
      refine ⟨fits, answers.mp ?_⟩
      obtain ⟨⟨next, actions⟩, received, done⟩ := Option.bind_eq_some_iff.mp done
      obtain ⟨⟨session', actions'⟩, first, same⟩ := Option.bind_eq_some_iff.mp received
      cases same
      rcases Session.receive_first_cases first with ⟨rfl, -, -⟩ | ⟨other, rfl, -⟩
      · cases done
      · cases done
        exact ⟨_, first⟩
    · rintro ⟨-, span⟩
      obtain ⟨next, first⟩ := answers.mpr span
      rw [first]
      rfl
  · rw [if_neg (fun all => fits all.2.2.1)]
    constructor
    · intro impossible
      cases impossible
    · intro all
      exact absurd all.1 fits

/-- A request answered whole is answered alike under a segmentation exactly when
the first segment reaches beyond the line end behind the key. -/
theorem split_answer_iff (sha1 : List UInt8 → Digest) (request reply : List UInt8)
    (answered : answer sha1 [request] = some reply) (segments : List (List UInt8))
    (split : segments.flatten = request) (proper : ∀ segment ∈ segments, segment ≠ []) :
    answer sha1 segments = some reply ↔
      ∃ start stop, key_span request = some (start, stop) ∧
        stop + 2 < (segments.headD []).length := by
  cases segments with
  | nil =>
      constructor
      · intro impossible
        unfold answer at impossible
        simp only [List.head?_nil, Option.bind_eq_bind, Option.bind_none,
          Option.bind_fun_none] at impossible
        cases impossible
      · rintro ⟨start, stop, -, within⟩
        exact absurd within (Nat.not_lt_zero _)
  | cons segment later =>
      have positive := proper segment List.mem_cons_self
      have nonempty : request ≠ [] := by
        rw [← split, List.flatten_cons]
        exact List.append_ne_nil_of_left_ne_nil positive _
      have shorter : segment.length ≤ request.length := by
        rw [← split, List.flatten_cons, List.length_append]
        exact Nat.le_add_right _ _
      obtain ⟨small, start, stop, span, answer⟩ :=
        (answer_eq_some_iff sha1 request [] nonempty reply).mp answered
      rw [List.dropLast_eq_take, key_span_take] at span
      rw [answer_eq_some_iff sha1 segment later positive reply, List.headD_cons]
      have front : segment.dropLast = request.take (segment.length - 1) := by
        rw [List.dropLast_eq_take, ← split, List.flatten_cons,
          List.take_append_of_le_length (Nat.sub_le _ _)]
      have same : stop + 2 < segment.length →
          slice segment start (stop - start) = slice request start (stop - start) := by
        intro within
        have bounds := key_span_bounds span.1
        rw [← split, List.flatten_cons, slice_append _ _ _ _ (by omega)]
      rw [front]
      constructor
      · rintro ⟨-, start', stop', span', -⟩
        rw [key_span_take] at span'
        exact ⟨start', stop', span'.1, by omega⟩
      · rintro ⟨start', stop', span', within⟩
        rw [span.1] at span'
        cases span'
        refine ⟨by omega, start, stop, ?_, ?_⟩
        · rw [key_span_take]
          exact ⟨span.1, by omega⟩
        · rw [same within]
          exact answer

def sampleReply : List UInt8 :=
  Session.response ++ ascii "AAAAAAAAAAAAAAAAAAAAAAAAAAA=" ++ Session.response_end

theorem split_answer_beyond_key :
    answer zeroDigest [sampleRequest.take 62, sampleRequest.drop 62] = some sampleReply := by
  apply (split_answer_iff zeroDigest sampleRequest sampleReply (by decide +kernel)
    [sampleRequest.take 62, sampleRequest.drop 62] (by decide +kernel) (by decide +kernel)).mpr
  exact ⟨35, 59, by decide +kernel, by decide +kernel⟩

/-- A first read that ends inside the key closes a session that would have been
answered. -/
theorem split_unanswered :
    ∃ request reply segments, request.length ≤ 1024 ∧
      answer zeroDigest [request] = some reply ∧ segments.flatten = request ∧
      (∀ segment ∈ segments, segment ≠ []) ∧ answer zeroDigest segments ≠ some reply := by
  refine ⟨sampleRequest, sampleReply,
    [sampleRequest.take 40, sampleRequest.drop 40], ?_, ?_, ?_, ?_, ?_⟩ <;> decide +kernel

end Connection

end Averyws
