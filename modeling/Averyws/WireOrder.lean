/-
Frames on the wire of one session.

Nothing keeps two writes of a session apart: each is put on the wire piece by
piece while the others are.  When every write is started behind writes that are
whole on the wire, what follows the handshake response is a beginning of whole
frames.
-/

import Averyws.Library.Outbox
import Averyws.SessionRun

namespace Averyws

open Library.Outbox Library.Run
open Utilities

def Outgoing.parcel (out : Outgoing) : Parcel WriteHandler UInt8 :=
  { label := out.op.handler, content := out.op.bytes, sent := out.written }

def WriteOp.posted (op : WriteOp) : Parcel WriteHandler UInt8 :=
  { label := op.handler, content := op.bytes, sent := 0 }

namespace Connection

def parcels (self : Connection) : List (Parcel WriteHandler UInt8) :=
  self.writes.map Outgoing.parcel

variable {sha1 : List UInt8 → Digest} {before after : Connection} {actions : List Action}

/-- A step that may start a write and puts nothing on the wire. -/
structure Quiet (before after : Connection) (actions : List Action) : Prop where
  parcels : after.parcels =
    before.parcels ++ (actions.filterMap Action.write?).map WriteOp.posted
  wire : after.wire = before.wire
  handshake_end : after.handshake_end = before.handshake_end
  starting : after.starting = true → before.starting = true
  few : (actions.filterMap Action.write?).length ≤ 1
  handshake : ∀ op ∈ actions.filterMap Action.write?, op.handler = .handshake →
    before.starting = true ∧ after.starting = false

private theorem parcels_complete {writes : List Outgoing} {index : Nat} {out : Outgoing}
    (found : writes[index]? = some out) :
    (writes.set index { out with completed := true }).map Outgoing.parcel =
      writes.map Outgoing.parcel :=
  map_set_of_eq Outgoing.parcel found rfl

private theorem quiet_of_idle (parcels : after.parcels = before.parcels)
    (wire : after.wire = before.wire) (handshake_end : after.handshake_end = before.handshake_end)
    (starting : after.starting = true → before.starting = true)
    (none : actions.filterMap Action.write? = []) : Quiet before after actions where
  parcels := by rw [parcels, none, List.map_nil, List.append_nil]
  wire := wire
  handshake_end := handshake_end
  starting := starting
  few := by rw [none]; exact Nat.zero_le 1
  handshake := by
    intro op member
    rw [none] at member
    cases member

private theorem quiet_performs (before : Connection) (next : Connection)
    (parcels : next.parcels = before.parcels) (wire : next.wire = before.wire)
    (handshake_end : next.handshake_end = before.handshake_end)
    (starting : next.starting = true → before.starting = true)
    (few : (actions.filterMap Action.write?).length ≤ 1)
    (handshake : ∀ op ∈ actions.filterMap Action.write?, op.handler = .handshake →
      before.starting = true ∧ next.starting = false) :
    Quiet before (next.performs actions) actions := by
  rw [performs_eq]
  refine ⟨?_, wire, handshake_end, starting, few, handshake⟩
  rw [← parcels]
  unfold Connection.parcels
  rw [List.map_append, List.map_map]
  rfl

theorem Phase.respond_quiet (phase : before.Phase) {stimulus : Stimulus}
    (done : before.respond sha1 stimulus = some (after, actions)) :
    Quiet before after actions ∨ ∃ index count,
      stimulus = .socket (.write_some index count) ∧ actions = [] ∧
        before.write_some index count = some after := by
  cases stimulus with
  | write data is_binary =>
      cases done
      left
      change Quiet before (before.performs [.async_write (Session.write data is_binary)])
        [.async_write (Session.write data is_binary)]
      refine quiet_performs before before rfl rfl rfl id ?_ ?_
      · exact Nat.le_refl 1
      · intro op member
        rw [List.mem_singleton.mp member]
        exact WriteHandler.noConfusion
  | socket event =>
      cases event with
      | read_first count =>
          left
          obtain ⟨starting, -, -, -, session, received, rfl⟩ := complete_first_cases done
          rcases Session.receive_first_cases received with ⟨rfl, -⟩ | ⟨reply, rfl, -⟩
          · exact quiet_of_idle rfl rfl rfl (fun _ => starting) rfl
          · exact quiet_performs before _ rfl rfl rfl (fun _ => starting) (Nat.le_refl 1)
              fun op _ _ => ⟨starting, rfl⟩
      | fail_first =>
          left
          obtain ⟨starting, rfl, rfl⟩ := fail_first_cases done
          exact quiet_of_idle rfl rfl rfl (fun _ => starting) rfl
      | read index =>
          left
          obtain ⟨op, session, found, enough, received, rfl⟩ := complete_read_cases done
          have size : (before.input.take op.count).length = op.count :=
            List.length_take_of_le enough
          obtain ⟨-, here, stage | stuck⟩ := phase.of_read found
          · obtain ⟨few, others⟩ := (stage.aftermath _ size received).writes
            exact quiet_performs before _ rfl rfl rfl id few
              fun op member handshake => absurd handshake (others op member).1
          · rw [stuck.2 _ size] at received
            cases received
      | fail_read index =>
          left
          obtain ⟨-, rfl, rfl⟩ := fail_read_cases done
          exact quiet_of_idle rfl rfl rfl id rfl
      | write_some index count =>
          right
          obtain ⟨next, taken, same⟩ := Option.map_eq_some_iff.mp done
          cases same
          exact ⟨index, count, rfl, rfl, taken⟩
      | written index error =>
          left
          obtain ⟨out, found, -, -, outcome⟩ := complete_write_cases done
          rcases outcome with ⟨-, -, rfl, rfl⟩ | ⟨-, nothing, rfl⟩
          · exact quiet_of_idle (parcels_complete found) rfl rfl id rfl
          · refine quiet_of_idle (parcels_complete found) rfl rfl id ?_
            rcases nothing with rfl | rfl
            · rfl
            · rfl

def starts (sha1 : List UInt8 → Digest) (self : Connection) (stimulus : Stimulus) :
    List WriteOp :=
  match self.respond sha1 stimulus with
  | none => []
  | some (_, actions) => actions.filterMap Action.write?

theorem starts_eq {stimulus : Stimulus}
    (done : before.respond sha1 stimulus = some (after, actions)) :
    before.starts sha1 stimulus = actions.filterMap Action.write? := by
  unfold starts
  rw [done]

/-- A write is started only behind writes that are whole on the wire. -/
def WritesInTurn (sha1 : List UInt8 → Digest) (self : Connection) (stimulus : Stimulus) : Prop :=
  self.starts sha1 stimulus ≠ [] → ∀ out ∈ self.writes, out.written = out.op.bytes.length

instance (sha1 : List UInt8 → Digest) (connection : Connection) (stimulus : Stimulus) :
    Decidable (connection.WritesInTurn sha1 stimulus) := by
  unfold WritesInTurn
  exact inferInstance

structure Orderly (connection : Connection) : Prop where
  wire : connection.wire = connection.parcels.flatMap Parcel.onWire
  inTurn : InTurn connection.parcels
  unanswered : connection.starting = true → connection.handshake_end = none ∧
    ∀ parcel ∈ connection.parcels, parcel.label ≠ .handshake
  answered : ∀ stop, connection.handshake_end = some stop →
    ∃ early late, connection.parcels = early ++ late ∧
      (early.flatMap Parcel.onWire).length = stop ∧ (∀ parcel ∈ early, parcel.Whole) ∧
      ∀ parcel ∈ late, parcel.label ≠ .handshake

theorem Orderly.idle (orderly : before.Orderly) (quiet : Quiet before after actions)
    (none : actions.filterMap Action.write? = []) : after.Orderly := by
  have parcels := quiet.parcels
  rw [none, List.map_nil, List.append_nil] at parcels
  refine ⟨?_, ?_, ?_, ?_⟩
  · rw [quiet.wire, parcels]
    exact orderly.wire
  · rw [parcels]
    exact orderly.inTurn
  · rw [parcels, quiet.handshake_end]
    exact fun starting => orderly.unanswered (quiet.starting starting)
  · rw [parcels, quiet.handshake_end]
    exact orderly.answered

theorem Orderly.post (orderly : before.Orderly) (quiet : Quiet before after actions)
    {op : WriteOp} (one : actions.filterMap Action.write? = [op])
    (whole : ∀ parcel ∈ before.parcels, parcel.Whole) : after.Orderly := by
  have parcels := quiet.parcels
  have handshake := quiet.handshake op (by rw [one]; exact List.mem_singleton_self op)
  rw [one] at parcels
  change after.parcels = before.parcels ++ [op.posted] at parcels
  refine ⟨?_, ?_, ?_, ?_⟩
  · rw [quiet.wire, parcels, List.flatMap_append, List.flatMap_singleton, WriteOp.posted,
      Parcel.onWire_posted, List.append_nil]
    exact orderly.wire
  · rw [parcels]
    exact InTurn.post whole _
  · intro starting
    obtain ⟨unanswered, others⟩ := orderly.unanswered (quiet.starting starting)
    refine ⟨quiet.handshake_end.trans unanswered, fun parcel member => ?_⟩
    rw [parcels] at member
    rcases List.mem_append.mp member with earlier | new
    · exact others parcel earlier
    · rw [List.mem_singleton.mp new]
      intro same
      rw [(handshake same).2] at starting
      cases starting
  · intro stop ended
    rw [quiet.handshake_end] at ended
    obtain ⟨early, late, split, length, done, others⟩ := orderly.answered stop ended
    refine ⟨early, late ++ [op.posted], ?_, length, done, fun parcel member => ?_⟩
    · rw [parcels, split, List.append_assoc]
    · rcases List.mem_append.mp member with earlier | new
      · exact others parcel earlier
      · rw [List.mem_singleton.mp new]
        intro same
        rw [(orderly.unanswered (handshake same).1).1] at ended
        cases ended

private theorem Orderly.unfinished (orderly : before.Orderly) {index : Nat} {out : Outgoing}
    (found : before.writes[index]? = some out) (rest : out.written ≠ out.op.bytes.length)
    (changed : Outgoing) :
    ∃ front, before.parcels = front ++ [out.parcel] ∧ (∀ parcel ∈ front, parcel.Whole) ∧
      (before.writes.set index changed).map Outgoing.parcel = front ++ [changed.parcel] := by
  have here : before.parcels[index]? = some out.parcel := by
    unfold parcels
    rw [List.getElem?_map, found]
    rfl
  have inTurn := orderly.inTurn
  obtain ⟨front, split, place⟩ := inTurn.unfinished here rest
  rw [split] at inTurn
  refine ⟨front, split, inTurn.front, ?_⟩
  unfold parcels at split
  rw [List.map_set, split, List.set_append_right _ _ (Nat.le_of_eq place), ← place, Nat.sub_self]
  rfl

theorem Orderly.write_some (orderly : before.Orderly) {index count : Nat}
    (done : before.write_some index count = some after) : after.Orderly := by
  obtain ⟨out, found, -, positive, within, rfl⟩ := write_some_cases done
  obtain ⟨front, split, whole, moved⟩ := orderly.unfinished found (by omega)
    { out with written := out.written + count }
  have wire : before.wire ++ (out.op.bytes.drop out.written).take count =
      (front ++ [{ out with written := out.written + count }.parcel]).flatMap Parcel.onWire := by
    have grown := out.parcel.onWire_add count
    have old := orderly.wire
    rw [split, List.flatMap_append, List.flatMap_singleton] at old
    rw [List.flatMap_append, List.flatMap_singleton]
    change _ = _ ++ { out.parcel with sent := out.parcel.sent + count }.onWire
    rw [grown, old, List.append_assoc]
    rfl
  refine ⟨?_, ?_, ?_, ?_⟩
  · change _ = (List.map _ _).flatMap _
    rw [moved]
    exact wire
  · change InTurn (List.map _ _)
    rw [moved]
    exact InTurn.post whole _
  · intro starting
    obtain ⟨unanswered, others⟩ := orderly.unanswered starting
    rw [split] at others
    have other : out.op.handler ≠ .handshake :=
      others out.parcel (List.mem_append_right _ List.mem_cons_self)
    constructor
    · change (if _ then _ else _) = _
      rw [if_neg (fun both => other both.1)]
      exact unanswered
    · change ∀ parcel ∈ List.map _ _, _
      rw [moved]
      intro parcel member
      rcases List.mem_append.mp member with earlier | new
      · exact others parcel (List.mem_append_left _ earlier)
      · rw [List.mem_singleton.mp new]
        exact other
  · intro stop ended
    change (if _ then _ else _) = _ at ended
    change ∃ early late, List.map _ _ = early ++ late ∧ _
    rw [moved]
    by_cases last : out.op.handler = .handshake ∧ out.written + count = out.op.bytes.length
    · -- the response is whole: nothing has been started behind it
      rw [if_pos last] at ended
      cases ended
      refine ⟨_, [], (List.append_nil _).symm, by rw [wire], fun parcel member => ?_,
        fun parcel member => absurd member List.not_mem_nil⟩
      rcases List.mem_append.mp member with earlier | new
      · exact whole parcel earlier
      · rw [List.mem_singleton.mp new]
        exact last.2
    · rw [if_neg last] at ended
      obtain ⟨early, late, other, length, done, others⟩ := orderly.answered stop ended
      -- the write that gets on is not whole, so it is behind the response
      rcases List.eq_nil_or_concat' late with rfl | ⟨middle, behind, rfl⟩
      · rw [List.append_nil] at other
        have broken := done out.parcel (by
          rw [← other, split]
          exact List.mem_append_right _ List.mem_cons_self)
        change out.written = out.op.bytes.length at broken
        omega
      · rw [split, ← List.append_assoc] at other
        obtain ⟨same, here⟩ := List.append_inj' other rfl
        cases here
        refine ⟨early, middle ++ [_], by rw [same, List.append_assoc], length, done, ?_⟩
        intro parcel member
        rcases List.mem_append.mp member with earlier | new
        · exact others parcel (List.mem_append_left _ earlier)
        · rw [List.mem_singleton.mp new]
          exact others out.parcel (List.mem_append_right _ List.mem_cons_self)

theorem Orderly.respond (phase : before.Phase) (orderly : before.Orderly) {stimulus : Stimulus}
    (inTurn : before.WritesInTurn sha1 stimulus)
    (done : before.respond sha1 stimulus = some (after, actions)) : after.Orderly := by
  rcases phase.respond_quiet done with quiet | ⟨index, count, rfl, rfl, taken⟩
  · unfold WritesInTurn at inTurn
    rw [starts_eq done] at inTurn
    have few := quiet.few
    cases started : actions.filterMap Action.write? with
    | nil => exact orderly.idle quiet started
    | cons op rest =>
        rw [started] at few
        have one : rest = [] :=
          List.eq_nil_of_length_eq_zero (Nat.le_zero.mp (Nat.le_of_succ_le_succ few))
        rw [one] at started
        apply orderly.post quiet started
        intro parcel member
        obtain ⟨out, inside, rfl⟩ := List.mem_map.mp member
        apply inTurn _ out inside
        rw [started]
        exact List.cons_ne_nil _ _
  · exact orderly.write_some taken

/-! ### Whole frames -/

def frames (self : Connection) : List (List UInt8) :=
  (self.parcels.filter fun parcel => parcel.label ≠ .handshake).map Parcel.content

/-- What is on the wire behind the response is a beginning of queued frames, each
taken once. -/
def WholeFrames (connection : Connection) : Prop :=
  ∀ stop, connection.handshake_end = some stop →
    ∃ frames : List (List UInt8), frames.Subperm connection.frames ∧
      connection.wire.drop stop <+: frames.flatten

theorem Orderly.whole_frames {connection : Connection} (orderly : connection.Orderly) :
    connection.WholeFrames := by
  intro stop ended
  obtain ⟨early, late, split, length, -, others⟩ := orderly.answered stop ended
  have inTurn := orderly.inTurn
  rw [split] at inTurn
  refine ⟨late.map Parcel.content, ?_, ?_⟩
  · apply List.Sublist.subperm
    unfold frames
    rw [split, List.filter_append, List.map_append]
    have kept : late.filter (fun parcel => parcel.label ≠ .handshake) = late := by
      apply List.filter_eq_self.mpr
      intro parcel member
      exact decide_eq_true (others parcel member)
    rw [kept]
    exact List.sublist_append_right _ _
  · rw [orderly.wire, split, List.flatMap_append, ← length, List.drop_left]
    exact inTurn.suffix.wire_prefix

theorem orderly_of_run {input : List UInt8} {first final : Connection}
    (accepted : Connection.accept input = some first)
    (run : Reaches (next sha1) (WritesInTurn sha1) first final) :
    final.Phase ∧ final.Orderly := by
  apply run.invariant fun connection => connection.Phase ∧ connection.Orderly
  · intro before stimulus after holds inTurn taken
    obtain ⟨⟨next, actions⟩, done, same⟩ := Option.map_eq_some_iff.mp taken
    cases same
    exact ⟨holds.1.respond done, holds.2.respond holds.1 inTurn done⟩
  · refine ⟨phase_accept accepted, ?_⟩
    unfold accept at accepted
    obtain ⟨session, -, same⟩ := Option.bind_eq_some_iff.mp accepted
    cases same
    refine ⟨rfl, InTurn.nil, fun _ => ⟨rfl, fun _ member => ?_⟩, fun _ ended => ?_⟩
    · cases member
    · cases ended

end Connection

/-- In every run in which each write is started behind writes that are whole on
the wire, the wire behind the response carries whole frames. -/
theorem wire_carries_whole_frames (sha1 : List UInt8 → Digest) {input : List UInt8}
    {first final : Connection} (accepted : Connection.accept input = some first)
    (run : Reaches (Connection.next sha1) (Connection.WritesInTurn sha1) first final) :
    final.WholeFrames :=
  (Connection.orderly_of_run accepted run).2.whole_frames

theorem wire_carries_whole_frames_two :
    ∃ final : Connection, final.handshake_end = some 129 ∧
      final.wire.drop 129 = [0x81, 0x01, 0x61, 0x82, 0x01] ∧ final.WholeFrames := by
  obtain ⟨first, final, accepted, run, here⟩ := Reaches.of_trace_any
    (Connection.next zeroDigest) (Connection.WritesInTurn zeroDigest)
    (Connection.accept sampleRequest)
    (fun final => decide (final.handshake_end = some 129 ∧
      final.wire.drop 129 = [0x81, 0x01, 0x61, 0x82, 0x01]))
    (sampleHandshake ++ [.write [0x61] false, .socket (.write_some 1 3), .write [0x62] true,
      .socket (.write_some 2 2)]) (by decide +kernel)
  obtain ⟨ended, wire⟩ := of_decide_eq_true here
  exact ⟨final, ended, wire, wire_carries_whole_frames zeroDigest accepted run⟩

private theorem not_prefix_mixed (frames : List (List UInt8))
    (from_two : frames ⊆ [[0x81, 0x01, 0x61], [0x82, 0x01, 0x62]]) :
    ¬[0x81, 0x82] <+: frames.flatten := by
  cases frames with
  | nil => decide
  | cons frame rest =>
      have member := from_two List.mem_cons_self
      rw [List.flatten_cons]
      rcases List.mem_cons.mp member with rfl | last
      · rintro ⟨behind, same⟩
        cases same
      · rw [List.mem_singleton.mp last]
        rintro ⟨behind, same⟩
        cases same

theorem broadcasts_mix_on_the_wire :
    ¬∀ (sha1 : List UInt8 → Digest) (input : List UInt8) (first final : Connection),
      Connection.accept input = some first →
      Reaches (Connection.next sha1) anyEvent first final → final.WholeFrames := by
  intro all
  obtain ⟨first, final, accepted, run, here⟩ := Reaches.of_trace_any
    (Connection.next zeroDigest) anyEvent (Connection.accept sampleRequest)
    (fun final => decide (final.handshake_end = some 129 ∧
      final.wire.drop 129 = [0x81, 0x82] ∧
      final.frames = [[0x81, 0x01, 0x61], [0x82, 0x01, 0x62]]))
    (sampleHandshake ++ [.write [0x61] false, .write [0x62] true, .socket (.write_some 1 1),
      .socket (.write_some 2 1)]) (by decide +kernel)
  obtain ⟨ended, wire, queued⟩ := of_decide_eq_true here
  obtain ⟨frames, from_queued, whole⟩ := all zeroDigest _ first final accepted run 129 ended
  rw [queued] at from_queued
  rw [wire] at whole
  exact not_prefix_mixed frames from_queued.subset whole

end Averyws
