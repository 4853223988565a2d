/-
The first read against what it should answer.

The handler ends the request with a zero byte and looks for the key in the C
string before it.  It moves on past the header name before it asks whether the
name was found, and starts to look for the line end a whole name behind the start
of the key.
-/

import Averyws.HandshakeSplit
import Averyws.Utilities.Base64Codec

namespace Averyws

open Library.Bytes
open Utilities Utilities.Base64

theorem find_drop (search text : List UInt8) (count index : Nat)
    (found : find search text = some index) (behind : count ≤ index) :
    find search (text.drop count) = some (index - count) := by
  induction count generalizing text index with
  | zero => exact found
  | succ count ih =>
      cases text with
      | nil =>
          have bound := find_bound found
          rw [List.length_nil] at bound
          omega
      | cons byte rest =>
          unfold find at found
          split at found
          · cases found
            omega
          · obtain ⟨later, here, same⟩ := Option.map_eq_some_iff.mp found
            rw [List.drop_succ_cons, ih rest later here (by omega)]
            exact congrArg some (by omega)

theorem takeWhile_drop (keep : UInt8 → Bool) (text : List UInt8) (count : Nat)
    (within : count ≤ (text.takeWhile keep).length) :
    (text.drop count).takeWhile keep = (text.takeWhile keep).drop count := by
  induction text generalizing count with
  | nil => rw [List.drop_nil, List.takeWhile_nil, List.drop_nil]
  | cons byte rest ih =>
      cases count with
      | zero => rfl
      | succ count =>
          rw [List.takeWhile_cons] at within ⊢
          cases kept : keep byte with
          | true =>
              rw [kept, if_pos rfl, List.length_cons] at within
              rw [if_pos rfl, List.drop_succ_cons, List.drop_succ_cons]
              exact ih count (Nat.le_of_succ_le_succ within)
          | false =>
              rw [kept, if_neg Bool.noConfusion, List.length_nil] at within
              omega

theorem text_from_add (bytes : List UInt8) (start count : Nat)
    (within : count ≤ (text_from bytes start).length) :
    text_from bytes (start + count) = (text_from bytes start).drop count := by
  unfold text_from at within ⊢
  rw [← List.drop_drop, takeWhile_drop _ _ _ within]

theorem length_text_from_le (bytes : List UInt8) (start : Nat) :
    (text_from bytes start).length ≤ bytes.length - start := by
  unfold text_from
  exact (List.takeWhile_sublist _).length_le.trans (Nat.le_of_eq List.length_drop)

/-- A search that starts before a zero byte ends before it, whatever is behind. -/
theorem strstr_before (text rest search : List UInt8) (start : Nat)
    (within : start ≤ text.length) :
    strstr (text ++ 0 :: rest) start search =
      some ((find search (text_from text start)).map (start + ·)) := by
  have cut : ∀ front : List UInt8, (front ++ 0 :: rest).takeWhile (fun byte => byte ≠ 0) =
      front.takeWhile fun byte => byte ≠ 0 := by
    intro front
    induction front with
    | nil => rfl
    | cons byte front ih => rw [List.cons_append, List.takeWhile_cons, List.takeWhile_cons, ih]
  unfold strstr text_from
  simp only [List.drop_append_of_le_length within, cut]
  exact if_pos (List.mem_append_right _ List.mem_cons_self)

theorem strstr_behind (text search : List UInt8) (count start : Nat)
    (behind : text.length < start) :
    strstr (text ++ 0 :: List.replicate count 1) start search = none := by
  obtain ⟨more, rfl⟩ := Nat.exists_eq_add_of_lt behind
  have rest : (text ++ 0 :: List.replicate count (1 : UInt8)).drop (text.length + more + 1) =
      List.replicate (count - more) 1 := by
    rw [Nat.add_assoc, List.drop_append, List.drop_of_length_le (Nat.le_add_right _ _),
      Nat.add_sub_cancel_left, List.nil_append, List.drop_succ_cons, List.drop_replicate]
  unfold strstr
  rw [rest]
  apply if_neg
  intro member
  exact absurd (List.eq_of_mem_replicate member) (by decide)

/-! ### The answer to a request -/

/-- The bytes between the header name and the first line end behind it. -/
def request_key (text : List UInt8) : Option (List UInt8) := do
  let found ← find Session.search (text_from text 0)
  let value := text_from text (found + Session.search.length)
  let stop ← find (ascii "\r\n") value
  return value.take stop

def right_answer (sha1 : List UInt8 → Digest) (text : List UInt8) : List Action :=
  match request_key text with
  | none => [.remove]
  | some key =>
      [.async_write
        { handler := .handshake
          bytes := Session.response
            ++ Library.Base64.encode (sha1 (key ++ Session.magic_number)).toList
            ++ Session.response_end }]

/-- The first read is answered rightly, whatever the chunk holds behind its bytes. -/
def AnsweredRightly (sha1 : List UInt8 → Digest) (bytes : List UInt8) : Prop :=
  ∀ (session : Session) (rest : List UInt8), session.buffer_ = single (bytes ++ rest) →
    (bytes ++ rest).length = 1024 →
    ∃ next, session.read_first_header sha1 false bytes.length =
      some (next, right_answer sha1 bytes.dropLast)

/-- The name is there with 22 bytes behind it, and no line end hides in these: the
key is at least as long, or it is not ended, neither before a zero byte nor in the
C string from its twenty-third byte on. -/
def KeyInReach (text : List UInt8) : Prop :=
  ∃ found, find Session.search (text_from text 0) = some found ∧
    found + Session.search.length + (Session.search.length + 1) ≤ text.length ∧
    ((∃ stop, find (ascii "\r\n") (text_from text (found + Session.search.length)) = some stop ∧
        Session.search.length + 1 ≤ stop) ∨
      (find (ascii "\r\n") (text_from text (found + Session.search.length)) = none ∧
        find (ascii "\r\n") (text_from text
          (found + Session.search.length + (Session.search.length + 1))) = none))

section Answer

variable {sha1 : List UInt8 → Digest} {session : Session} {bytes rest : List UInt8}

private theorem overwrite_last (positive : bytes ≠ []) :
    overwrite (bytes ++ rest) (bytes.length - 1) [0] = bytes.dropLast ++ 0 :: rest := by
  have count := List.length_pos_iff.mpr positive
  rw [overwrite, List.take_append_of_le_length (by omega), ← List.dropLast_eq_take,
    List.length_singleton, Nat.sub_add_cancel count, List.drop_left, List.append_assoc,
    List.singleton_append]

private theorem length_ended (full : (bytes ++ rest).length = 1024) (positive : bytes ≠ []) :
    (bytes.dropLast ++ 0 :: rest).length = 1024 := by
  have count := List.length_pos_iff.mpr positive
  rw [List.length_append] at full
  rw [List.length_append, List.length_dropLast, List.length_cons]
  omega

private theorem read_first_header_eq (one : session.buffer_ = single (bytes ++ rest))
    (full : (bytes ++ rest).length = 1024) (positive : bytes ≠ []) :
    session.read_first_header sha1 false bytes.length =
      (strstr (bytes.dropLast ++ 0 :: rest) 0 Session.search).bind fun found =>
        match found with
        | none => none
        | some found =>
            (strstr (bytes.dropLast ++ 0 :: rest)
                (found + Session.search.length + (Session.search.length + 1))
                (ascii "\r\n")).bind fun found_end =>
              match found_end with
              | none => some ({ session with
                  buffer_ := single (bytes.dropLast ++ 0 :: rest) }, [.remove])
              | some found_end =>
                  (base64_encode (sha1 (slice (bytes.dropLast ++ 0 :: rest)
                      (found + Session.search.length)
                      (found_end - (found + Session.search.length))
                        ++ Session.magic_number)).toList).bind fun b64 =>
                    { session with
                      buffer_ := single (bytes.dropLast ++ 0 :: rest) }.respond b64 := by
  have count := List.length_pos_iff.mpr positive
  have within : bytes.length ≤ 1024 := by
    rw [← full, List.length_append]
    exact Nat.le_add_right _ _
  unfold Session.read_first_header
  rw [if_neg Bool.noConfusion, one, copy_single full _ _ (by omega)
    (by rw [List.length_singleton]; omega), overwrite_last positive]
  simp only [Option.bind_eq_bind, Option.bind_some, text_single (length_ended full positive)]
  rfl

private theorem answers_unnamed (one : session.buffer_ = single (bytes ++ rest))
    (full : (bytes ++ rest).length = 1024) (positive : bytes ≠ [])
    (unnamed : find Session.search (text_from bytes.dropLast 0) = none) :
    session.read_first_header sha1 false bytes.length = none := by
  rw [read_first_header_eq one full positive, strstr_before _ _ _ _ (Nat.zero_le _), unnamed]
  rfl

private theorem answers_outside {count found : Nat}
    (one : session.buffer_ = single (bytes ++ List.replicate count 1))
    (full : (bytes ++ List.replicate count 1).length = 1024) (positive : bytes ≠ [])
    (named : find Session.search (text_from bytes.dropLast 0) = some found)
    (outside : bytes.dropLast.length <
      found + Session.search.length + (Session.search.length + 1)) :
    session.read_first_header sha1 false bytes.length = none := by
  rw [read_first_header_eq one full positive, strstr_before _ _ _ _ (Nat.zero_le _), named,
    Option.map_some, Option.bind_some, Nat.zero_add]
  simp only [strstr_behind _ _ _ _ outside, Option.bind_none]

section Named

variable {found : Nat} (one : session.buffer_ = single (bytes ++ rest))
  (full : (bytes ++ rest).length = 1024) (positive : bytes ≠ [])
  (named : find Session.search (text_from bytes.dropLast 0) = some found)
  (within : found + Session.search.length + (Session.search.length + 1) ≤ bytes.dropLast.length)

include one full positive named within

private theorem answers_unended
    (unended : find (ascii "\r\n") (text_from bytes.dropLast
      (found + Session.search.length + (Session.search.length + 1))) = none) :
    ∃ next, session.read_first_header sha1 false bytes.length = some (next, [.remove]) := by
  rw [read_first_header_eq one full positive, strstr_before _ _ _ _ (Nat.zero_le _), named,
    Option.map_some, Option.bind_some, Nat.zero_add]
  simp only [strstr_before _ _ _ _ within, unended, Option.map_none, Option.bind_some]
  exact ⟨_, rfl⟩

private theorem answers_ended {stop : Nat}
    (ended : find (ascii "\r\n") (text_from bytes.dropLast
      (found + Session.search.length + (Session.search.length + 1))) = some stop) :
    ∃ next, session.read_first_header sha1 false bytes.length =
      some (next, [.async_write
        { handler := .handshake
          bytes := Session.response
            ++ Library.Base64.encode (sha1 ((bytes.dropLast.drop
                (found + Session.search.length)).take (Session.search.length + 1 + stop)
                  ++ Session.magic_number)).toList
            ++ Session.response_end }]) := by
  have bound := find_bound ended
  have room := length_text_from_le bytes.dropLast
    (found + Session.search.length + (Session.search.length + 1))
  have key : slice (bytes.dropLast ++ 0 :: rest) (found + Session.search.length)
      (found + Session.search.length + (Session.search.length + 1) + stop
        - (found + Session.search.length)) =
      (bytes.dropLast.drop (found + Session.search.length)).take
        (Session.search.length + 1 + stop) := by
    rw [slice_append _ _ _ _ (by omega), slice]
    congr 1
    omega
  have encoded (digest : Digest) :
      base64_encode digest.toList = some (Library.Base64.encode digest.toList) := by
    rw [base64_encode_encode_iff, Vector.length_toList]
    exact ⟨by decide, by decide⟩
  rw [read_first_header_eq one full positive, strstr_before _ _ _ _ (Nat.zero_le _), named,
    Option.map_some, Option.bind_some, Nat.zero_add]
  simp only [strstr_before _ _ _ _ within, ended, Option.map_some, Option.bind_some, key, encoded]
  apply respond_single rfl (length_ended full positive)
  rw [Library.Base64.length_encode, Vector.length_toList]

end Named

end Answer

/-! ### Exactly the keys in reach -/

theorem text_from_take_eq (bytes : List UInt8) (start count : Nat)
    (within : count ≤ (text_from bytes start).length) :
    (text_from bytes start).take count = (bytes.drop start).take count := by
  have front : text_from bytes start <+: bytes.drop start := List.takeWhile_prefix _
  obtain ⟨rest, whole⟩ := front
  rw [← whole, List.take_append_of_le_length within]

theorem request_key_of_named {text : List UInt8} {found : Nat}
    (named : find Session.search (text_from text 0) = some found) :
    request_key text =
      (find (ascii "\r\n") (text_from text (found + Session.search.length))).map fun stop =>
        (text_from text (found + Session.search.length)).take stop := by
  unfold request_key
  simp only [named, Option.bind_eq_bind, Option.bind_some, Option.pure_def]
  exact Option.map_eq_bind.symm

private theorem key_of_replies {left right : List UInt8}
    (same : ∀ sha1 : List UInt8 → Digest,
      Library.Base64.encode (sha1 (left ++ Session.magic_number)).toList =
        Library.Base64.encode (sha1 (right ++ Session.magic_number)).toList) : left = right := by
  by_contra different
  have apart : right ++ Session.magic_number ≠ left ++ Session.magic_number :=
    fun equal => different (List.append_cancel_right equal).symm
  have equal := same fun input =>
    if input = left ++ Session.magic_number then Vector.replicate 20 0 else Vector.replicate 20 1
  rw [if_pos rfl, if_neg apart] at equal
  exact absurd equal (by decide +kernel)

private theorem right_answer_some {sha1 : List UInt8 → Digest} {text key : List UInt8}
    (known : request_key text = some key) :
    right_answer sha1 text = [.async_write
      { handler := .handshake
        bytes := Session.response
          ++ Library.Base64.encode (sha1 (key ++ Session.magic_number)).toList
          ++ Session.response_end }] := by
  unfold right_answer
  rw [known]

private theorem right_answer_none {sha1 : List UInt8 → Digest} {text : List UInt8}
    (unknown : request_key text = none) : right_answer sha1 text = [.remove] := by
  unfold right_answer
  rw [unknown]

section Reach

variable {session : Session} {bytes rest : List UInt8} {found : Nat}

private theorem answered_of_reach (positive : bytes ≠ []) (reach : KeyInReach bytes.dropLast)
    (sha1 : List UInt8 → Digest) : AnsweredRightly sha1 bytes := by
  intro session rest one full
  obtain ⟨found, named, within, key⟩ := reach
  have known := request_key_of_named named
  rcases key with ⟨stop, ended, far⟩ | ⟨unended, later⟩
  · obtain ⟨later, rfl⟩ := Nat.exists_eq_add_of_le far
    have bound := find_bound ended
    have behind : find (ascii "\r\n") (text_from bytes.dropLast
        (found + Session.search.length + (Session.search.length + 1))) = some later := by
      rw [text_from_add _ _ _ (by omega), find_drop _ _ _ _ ended far, Nat.add_sub_cancel_left]
    rw [ended, Option.map_some] at known
    rw [right_answer_some known, text_from_take_eq _ _ _ (by omega)]
    exact answers_ended one full positive named within behind
  · rw [unended, Option.map_none] at known
    rw [right_answer_none known]
    exact answers_unended one full positive named within later

variable (one : session.buffer_ = single (bytes ++ rest))
  (full : (bytes ++ rest).length = 1024) (positive : bytes ≠ [])
  (named : find Session.search (text_from bytes.dropLast 0) = some found)
  (within : found + Session.search.length + (Session.search.length + 1) ≤ bytes.dropLast.length)
  (answered : ∀ sha1, ∃ next, session.read_first_header sha1 false bytes.length =
    some (next, right_answer sha1 bytes.dropLast))

include one full positive named within answered

/-- The key that is hashed ends 22 bytes behind the name at the earliest. -/
private theorem far_of_answered {stop later : Nat}
    (first : find (ascii "\r\n") (text_from bytes.dropLast (found + Session.search.length)) =
      some stop)
    (ended : find (ascii "\r\n") (text_from bytes.dropLast
      (found + Session.search.length + (Session.search.length + 1))) = some later) :
    Session.search.length + 1 ≤ stop := by
  have known := request_key_of_named named
  have bound := find_bound first
  have beyond := find_bound ended
  have room := length_text_from_le bytes.dropLast
    (found + Session.search.length + (Session.search.length + 1))
  rw [first, Option.map_some] at known
  have equal : (bytes.dropLast.drop (found + Session.search.length)).take
        (Session.search.length + 1 + later) =
      (text_from bytes.dropLast (found + Session.search.length)).take stop := by
    apply key_of_replies
    intro sha1
    obtain ⟨next, done⟩ := answered sha1
    obtain ⟨other, answer⟩ := answers_ended one full positive named within ended
    rw [right_answer_some known, answer] at done
    have actions := congrArg Prod.snd (Option.some.inj done)
    simp only [List.cons.injEq, Action.async_write.injEq, WriteOp.mk.injEq,
      true_and, and_true] at actions
    exact List.append_cancel_left (List.append_cancel_right actions)
  have lengths := congrArg List.length equal
  rw [List.length_take, List.length_take, List.length_drop] at lengths
  omega

/-- A request is answered and not removed, or removed and not answered. -/
private theorem ends_agree :
    find (ascii "\r\n") (text_from bytes.dropLast
        (found + Session.search.length + (Session.search.length + 1))) = none ↔
      find (ascii "\r\n") (text_from bytes.dropLast (found + Session.search.length)) = none := by
  have known := request_key_of_named named
  obtain ⟨next, done⟩ := answered zeroDigest
  constructor
  · intro ended
    obtain ⟨other, answer⟩ := answers_unended one full positive named within ended
    cases first : find (ascii "\r\n")
        (text_from bytes.dropLast (found + Session.search.length)) with
    | none => rfl
    | some stop =>
        rw [first, Option.map_some] at known
        rw [right_answer_some known, answer] at done
        cases done
  · intro first
    cases ended : find (ascii "\r\n") (text_from bytes.dropLast
        (found + Session.search.length + (Session.search.length + 1))) with
    | none => rfl
    | some later =>
        obtain ⟨other, answer⟩ := answers_ended one full positive named within ended
        rw [first, Option.map_none] at known
        rw [right_answer_none known, answer] at done
        cases done

end Reach

/-- The key is taken from the request, whatever the digest and whatever the chunk
holds behind the request, exactly when it is in reach. -/
theorem read_first_header_iff (bytes : List UInt8) (positive : bytes ≠ [])
    (fits : bytes.length ≤ 1024) :
    (∀ sha1, AnsweredRightly sha1 bytes) ↔ KeyInReach bytes.dropLast := by
  constructor
  · intro right
    have full : (bytes ++ List.replicate (1024 - bytes.length) (1 : UInt8)).length = 1024 := by
      rw [List.length_append, List.length_replicate]
      omega
    obtain ⟨session, one⟩ : ∃ session : Session,
        session.buffer_ = single (bytes ++ List.replicate (1024 - bytes.length) 1) :=
      ⟨{ Session.init with
        buffer_ := single (bytes ++ List.replicate (1024 - bytes.length) 1) }, rfl⟩
    have answered (sha1 : List UInt8 → Digest) := right sha1 session _ one full
    cases named : find Session.search (text_from bytes.dropLast 0) with
    | none =>
        obtain ⟨next, done⟩ := answered zeroDigest
        rw [answers_unnamed one full positive named] at done
        cases done
    | some found =>
        by_cases within : found + Session.search.length + (Session.search.length + 1) ≤
            bytes.dropLast.length
        · have agree := ends_agree one full positive named within answered
          refine ⟨found, named, within, ?_⟩
          cases first : find (ascii "\r\n")
              (text_from bytes.dropLast (found + Session.search.length)) with
          | none => exact Or.inr ⟨rfl, agree.mpr first⟩
          | some stop =>
              obtain ⟨later, ended⟩ : ∃ later, find (ascii "\r\n") (text_from bytes.dropLast
                  (found + Session.search.length + (Session.search.length + 1))) = some later := by
                apply Option.ne_none_iff_exists'.mp
                intro unended
                rw [agree.mp unended] at first
                cases first
              exact Or.inl ⟨stop, rfl,
                far_of_answered one full positive named within answered first ended⟩
        · obtain ⟨next, done⟩ := answered zeroDigest
          rw [answers_outside one full positive named (Nat.not_le.mp within)] at done
          cases done
  · exact answered_of_reach positive

/-- A key of 24 characters behind the name, which stands at 14. -/
theorem read_first_header_iff_sample :
    KeyInReach sampleRequest.dropLast ∧ ∀ sha1, AnsweredRightly sha1 sampleRequest := by
  have reach : KeyInReach sampleRequest.dropLast :=
    ⟨14, by decide +kernel, by decide +kernel, Or.inl ⟨24, by decide +kernel, by decide +kernel⟩⟩
  exact ⟨reach, (read_first_header_iff sampleRequest (by decide) (by decide)).mpr reach⟩

theorem read_first_header_without_key : ∃ session : Session,
    session.buffer_ = single (ascii "GET / HTTP/1.1\r\n\r\n" ++ List.replicate 1006 0) ∧
      session.read_first_header zeroDigest false (ascii "GET / HTTP/1.1\r\n\r\n").length =
        none := by
  refine ⟨{ Session.init with
    buffer_ := single (ascii "GET / HTTP/1.1\r\n\r\n" ++ List.replicate 1006 0) }, rfl, ?_⟩
  exact answers_unnamed rfl (by decide +kernel) (by decide) (by decide +kernel)

end Averyws
