/-
Histories of operations on the session manager.

Every operation may name any session and any sid.  A registry keeps beside the
manager the sessions that an operation has put into it and that no removal has
named since.
-/

import Averyws.Heartbeats
import Averyws.SessionManager

namespace Averyws

open Library.Run

def Session.identity (self : Session) : Bool × String :=
  (self.authenticated_, self.sid_)

section Identity

variable {sha1 : List UInt8 → Digest} {actions : List Action}

theorem Session.after_gather_identity (self : Session) (rcode : Nat) :
    (self.after_gather rcode).1.identity = self.identity := by
  unfold after_gather
  split_ifs <;> rfl

theorem Session.read_chunk_identity {before after : Session} {previous_read : UInt64}
    (done : before.read_chunk previous_read false = some (after, actions)) :
    after.identity = before.identity := by
  unfold read_chunk at done
  obtain ⟨⟨rcode, gather, buffer⟩, -, done⟩ := Option.bind_eq_some_iff.mp done
  have same := Session.after_gather_identity
    { before with
      new_request_ := before.header_.is_fin before.heap
      gather_ := gather
      buffer_ := buffer } rcode
  rw [Option.some.inj done] at same
  exact same

theorem Session.handle_read_header_identity {before after : Session}
    (done : before.handle_read_header false = some (after, actions)) :
    after.identity = before.identity := by
  rcases Session.handle_read_header_cases done with ⟨control, rfl⟩ | ⟨-, -, gather, buffer, data⟩
  · rfl
  · have same := Session.read_chunk_identity data
    exact same

theorem Session.handle_control_read_identity {before after : Session}
    (done : before.handle_control_read false = some (after, actions)) :
    after.identity = before.identity := by
  rcases Session.handle_control_read_cases done with ⟨control, rfl | rfl⟩ <;> rfl

theorem Session.store_identity {before after : Session} {target : Option Target}
    {bytes : List UInt8} (done : before.store target bytes = some after) :
    after.identity = before.identity := by
  unfold store at done
  cases target with
  | none => cases done
  | some target =>
      cases target with
      | header pointer =>
          rw [← Option.some.inj done]
          rfl
      | control offset =>
          rw [← Option.some.inj done]
          simp only [identity]
      | chunk position =>
          obtain ⟨buffer, -, done⟩ := Option.bind_eq_some_iff.mp done
          cases done
          rfl

theorem Session.receive_identity {before after : Session} {op : ReadOp} {bytes : List UInt8}
    (done : before.receive op bytes = some (after, actions)) :
    after.identity = before.identity := by
  unfold receive at done
  obtain ⟨stored, arrived, done⟩ := Option.bind_eq_some_iff.mp done
  rw [← Session.store_identity arrived]
  cases handler : op.handler with
  | handle_read_header =>
      rw [handler] at done
      exact Session.handle_read_header_identity done
  | handle_control_read =>
      rw [handler] at done
      exact Session.handle_control_read_identity done
  | read_chunk previous_read =>
      rw [handler] at done
      exact Session.read_chunk_identity done

theorem Session.receive_first_identity {before after : Session} {bytes : List UInt8}
    (done : before.receive_first sha1 bytes = some (after, actions)) :
    after.identity = before.identity := by
  rcases Session.receive_first_next done with ⟨-, buffer, rfl⟩ | ⟨reply, buffer, -, rfl⟩ <;> rfl

theorem Connection.performs_session (self : Connection) (actions : List Action) :
    (self.performs actions).session = self.session := by
  rw [Connection.performs_eq]

theorem Connection.respond_identity {before after : Connection} {stimulus : Stimulus}
    (done : before.respond sha1 stimulus = some (after, actions)) :
    after.session.identity = before.session.identity := by
  cases stimulus with
  | write data is_binary =>
      cases done
      rfl
  | socket event =>
      cases event with
      | read_first count =>
          obtain ⟨-, -, -, -, session, received, rfl⟩ := Connection.complete_first_cases done
          rw [Connection.performs_session]
          exact Session.receive_first_identity received
      | fail_first =>
          obtain ⟨-, -, rfl⟩ := Connection.fail_first_cases done
          rfl
      | read index =>
          obtain ⟨op, session, -, -, received, rfl⟩ := Connection.complete_read_cases done
          rw [Connection.performs_session]
          exact Session.receive_identity received
      | fail_read index =>
          obtain ⟨-, -, rfl⟩ := Connection.fail_read_cases done
          rfl
      | write_some index count =>
          obtain ⟨written, taken, same⟩ := Option.map_eq_some_iff.mp done
          cases same
          obtain ⟨out, -, -, -, -, rfl⟩ := Connection.write_some_cases taken
          rfl
      | written index error =>
          obtain ⟨out, -, -, -, ⟨-, -, -, rfl⟩ | ⟨-, -, rfl⟩⟩ :=
            Connection.complete_write_cases done
          · rfl
          · rfl

/-- Only the constructor sets `authenticated_` and `sid_`. -/
theorem identity_of_run {allowed : Connection → Stimulus → Prop} {input : List UInt8}
    {start connection : Connection} (accepted : Connection.accept input = some start)
    (run : Reaches (Connection.next sha1) allowed start connection) :
    connection.session.identity = Session.init.identity := by
  induction run with
  | start =>
      unfold Connection.accept at accepted
      obtain ⟨session, started, accepted⟩ := Option.bind_eq_some_iff.mp accepted
      unfold Session.start at started
      obtain ⟨made, -, started⟩ := Option.bind_eq_some_iff.mp started
      cases accepted
      cases started
      rfl
  | next stimulus _ _ taken ih =>
      obtain ⟨⟨after, actions⟩, done, same⟩ := Option.map_eq_some_iff.mp taken
      cases same
      exact (Connection.respond_identity done).trans ih

end Identity

namespace SessionManager

def authed_sessions (self : SessionManager) : List Nat :=
  self.authed_.entries.map Sigma.snd

theorem mem_authed_sessions (self : SessionManager) (session : Nat) :
    session ∈ self.authed_sessions ↔ ∃ sid, self.authed_.lookup sid = some session := by
  unfold authed_sessions
  rw [List.mem_map]
  constructor
  · rintro ⟨⟨sid, other⟩, member, rfl⟩
    exact ⟨sid, AList.mem_lookup_iff.mpr member⟩
  · rintro ⟨sid, found⟩
    exact ⟨⟨sid, session⟩, AList.mem_lookup_iff.mp found, rfl⟩

theorem mem_remove_unauthed (self : SessionManager) (session other : Nat) :
    other ∈ (self.remove_unauthed session).unauthed_ ↔
      other ≠ session ∧ other ∈ self.unauthed_ :=
  self.distinct.mem_erase_iff

theorem remove_unauthed_of_not_mem (self : SessionManager) (session : Nat)
    (absent : session ∉ self.unauthed_) : self.remove_unauthed session = self := by
  have same : self.unauthed_.erase session = self.unauthed_ := List.erase_of_not_mem absent
  unfold remove_unauthed
  cases self
  simp only [mk.injEq, and_true]
  exact same

theorem mem_authed_insert (self : SessionManager) (session : Nat) (sid : String)
    (free : sid ∉ self.authed_) (other : Nat) :
    other ∈ ({ self with authed_ := self.authed_.insert sid session } :
        SessionManager).authed_sessions ↔
      other = session ∨ other ∈ self.authed_sessions := by
  unfold authed_sessions
  rw [AList.entries_insert_of_notMem free, List.map_cons, List.mem_cons]

theorem mem_authed_erase (self : SessionManager) (sid : String) (other : Nat) :
    other ∈ (self.remove_authed sid).authed_sessions ↔
      ∃ place, place ≠ sid ∧ self.authed_.lookup place = some other := by
  rw [mem_authed_sessions]
  constructor
  · rintro ⟨place, found⟩
    by_cases same : place = sid
    · subst same
      rw [remove_authed, AList.lookup_erase] at found
      cases found
    · exact ⟨place, same, (AList.lookup_erase_ne same).symm.trans found⟩
  · rintro ⟨place, different, found⟩
    exact ⟨place, (AList.lookup_erase_ne different).trans found⟩

theorem add_authed_of_taken (self : SessionManager) (session : Nat) (sid : String)
    (taken : sid ∈ self.authed_) : self.add_authed session sid = self.remove_unauthed session :=
  if_pos taken

theorem add_authed_of_free (self : SessionManager) (session : Nat) (sid : String)
    (free : sid ∉ self.authed_) :
    self.add_authed session sid =
      { self.remove_unauthed session with authed_ := self.authed_.insert sid session } :=
  if_neg free

/-- The two functions differ in nothing but the message they print. -/
theorem move_to_authed_eq (self : SessionManager) (session : Nat) (sid : String) :
    self.move_to_authed session sid = self.add_authed session sid :=
  rfl

theorem remove_of_identity (self : SessionManager) (session : Nat) {object : Session}
    (identity : object.identity = Session.init.identity) :
    self.remove session object.authenticated_ object.sid_ = self.remove_unauthed session := by
  have unset : object.authenticated_ = false := congrArg Prod.fst identity
  rw [unset]
  rfl

/-- In exactly one of `unauthed_` and `authed_`. -/
def Placed (self : SessionManager) (session : Nat) : Prop :=
  session ∈ self.unauthed_ ↔ session ∉ self.authed_sessions

instance (self : SessionManager) (session : Nat) : Decidable (self.Placed session) :=
  inferInstanceAs (Decidable (_ ↔ _))

end SessionManager

/-! ### Histories -/

inductive Operation
  | add_unauthed (session : Nat)
  | add_authed (session : Nat) (sid : String)
  | move_to_authed (session : Nat) (sid : String)
  | remove_authed (sid : String)
  | remove_unauthed (session : Nat)
  | remove (session : Nat)
  deriving DecidableEq

namespace Operation

/-- `remove` asks the session for the two fields as the constructor left them. -/
def apply (manager : SessionManager) : Operation → SessionManager
  | .add_unauthed session => manager.add_unauthed session
  | .add_authed session sid => manager.add_authed session sid
  | .move_to_authed session sid => manager.move_to_authed session sid
  | .remove_authed sid => manager.remove_authed sid
  | .remove_unauthed session => manager.remove_unauthed session
  | .remove session => manager.remove session Session.init.authenticated_ Session.init.sid_

/-- The sessions an operation adds; a taken sid adds none. -/
def adds (manager : SessionManager) : Operation → List Nat
  | .add_unauthed session => [session]
  | .add_authed session sid => if sid ∈ manager.authed_ then [] else [session]
  | .move_to_authed session sid => if sid ∈ manager.authed_ then [] else [session]
  | _ => []

def removes (manager : SessionManager) : Operation → List Nat
  | .remove_authed sid => (manager.authed_.lookup sid).toList
  | .remove_unauthed session => [session]
  | .remove session => [session]
  | _ => []

/-- No session of `authed_` is added to `unauthed_`, and no session of
`unauthed_` is offered a sid that is taken. -/
def Orderly (manager : SessionManager) : Operation → Prop
  | .add_unauthed session => session ∉ manager.authed_sessions
  | .add_authed session sid => sid ∉ manager.authed_ ∨ session ∉ manager.unauthed_
  | .move_to_authed session sid => sid ∉ manager.authed_ ∨ session ∉ manager.unauthed_
  | _ => True

instance (manager : SessionManager) : ∀ operation, Decidable (Orderly manager operation)
  | .add_unauthed _ => inferInstanceAs (Decidable (_ ∉ _))
  | .add_authed _ _ => inferInstanceAs (Decidable (_ ∨ _))
  | .move_to_authed _ _ => inferInstanceAs (Decidable (_ ∨ _))
  | .remove_authed _ => .isTrue trivial
  | .remove_unauthed _ => .isTrue trivial
  | .remove _ => .isTrue trivial

def Refused (manager : SessionManager) : Operation → Prop
  | .add_authed _ sid => sid ∈ manager.authed_
  | .move_to_authed _ sid => sid ∈ manager.authed_
  | _ => False

end Operation

structure Registry where
  manager : SessionManager
  connected : List Nat

namespace Registry

def init : Registry :=
  { manager := SessionManager.init, connected := [] }

def step (self : Registry) (operation : Operation) : Option Registry :=
  some
    { manager := operation.apply self.manager
      connected := self.connected.filter (fun session => session ∉ operation.removes self.manager)
        ∪ operation.adds self.manager }

def Orderly (self : Registry) (operation : Operation) : Prop :=
  operation.Orderly self.manager

instance (self : Registry) (operation : Operation) : Decidable (self.Orderly operation) :=
  inferInstanceAs (Decidable (operation.Orderly self.manager))

structure Kept (registry : Registry) : Prop where
  apart : ∀ session ∈ registry.manager.unauthed_, session ∉ registry.manager.authed_sessions
  known : ∀ session ∈ registry.manager.unauthed_, session ∈ registry.connected
  somewhere : ∀ session ∈ registry.connected,
    session ∈ registry.manager.unauthed_ ∨ session ∈ registry.manager.authed_sessions

theorem Kept.placed {self : Registry} (kept : self.Kept) :
    ∀ session ∈ self.connected, self.manager.Placed session := by
  intro session connected
  unfold SessionManager.Placed
  constructor
  · exact kept.apart session
  · intro outside
    rcases kept.somewhere session connected with here | there
    · exact here
    · exact (outside there).elim

theorem kept_init : init.Kept where
  apart := fun _ member => (List.not_mem_nil member).elim
  known := fun _ member => (List.not_mem_nil member).elim
  somewhere := fun _ member => (List.not_mem_nil member).elim

section Step

variable {self : Registry} {session : Nat} {sid : String}

private theorem Kept.add_unauthed (kept : self.Kept)
    (orderly : session ∉ self.manager.authed_sessions)
    {connected : List Nat} (added : ∀ other, other ∈ connected ↔
      other ∈ self.connected ∨ other = session) :
    Kept { manager := self.manager.add_unauthed session, connected := connected } where
  apart := by
    intro other member
    rcases (self.manager.mem_add_unauthed session other).mp member with rfl | before
    · exact orderly
    · exact kept.apart other before
  known := by
    intro other member
    rw [added]
    rcases (self.manager.mem_add_unauthed session other).mp member with same | before
    · exact Or.inr same
    · exact Or.inl (kept.known other before)
  somewhere := by
    intro other member
    rcases (added other).mp member with before | same
    · rcases kept.somewhere other before with here | there
      · exact Or.inl ((self.manager.mem_add_unauthed session other).mpr (Or.inr here))
      · exact Or.inr there
    · exact Or.inl ((self.manager.mem_add_unauthed session other).mpr (Or.inl same))

private theorem Kept.remove_unauthed (kept : self.Kept)
    {connected : List Nat} (removed : ∀ other, other ∈ connected ↔
      other ∈ self.connected ∧ other ≠ session) :
    Kept { manager := self.manager.remove_unauthed session, connected := connected } where
  apart := by
    intro other member
    exact kept.apart other ((self.manager.mem_remove_unauthed session other).mp member).2
  known := by
    intro other member
    have before := (self.manager.mem_remove_unauthed session other).mp member
    exact (removed other).mpr ⟨kept.known other before.2, before.1⟩
  somewhere := by
    intro other member
    obtain ⟨before, different⟩ := (removed other).mp member
    rcases kept.somewhere other before with here | there
    · exact Or.inl ((self.manager.mem_remove_unauthed session other).mpr ⟨different, here⟩)
    · exact Or.inr there

private theorem Kept.add_authed (kept : self.Kept)
    (orderly : sid ∉ self.manager.authed_ ∨ session ∉ self.manager.unauthed_)
    {connected : List Nat} (added : ∀ other, other ∈ connected ↔
      other ∈ self.connected ∨ (sid ∉ self.manager.authed_ ∧ other = session)) :
    Kept { manager := self.manager.add_authed session sid, connected := connected } := by
  by_cases taken : sid ∈ self.manager.authed_
  · rw [self.manager.add_authed_of_taken _ _ taken,
      self.manager.remove_unauthed_of_not_mem session (orderly.resolve_left (not_not.mpr taken))]
    have same : ∀ other, other ∈ connected ↔ other ∈ self.connected := by
      intro other
      rw [added, or_iff_left (fun fresh => fresh.1 taken)]
    refine ⟨kept.apart, fun other member => (same other).mpr (kept.known other member), ?_⟩
    exact fun other member => kept.somewhere other ((same other).mp member)
  rw [self.manager.add_authed_of_free _ _ taken]
  have authed := self.manager.mem_authed_insert session sid taken
  have unauthed := self.manager.mem_remove_unauthed session
  refine ⟨?_, ?_, ?_⟩
  · intro other member there
    have before := (unauthed other).mp member
    rcases (authed other).mp there with same | there
    · exact before.1 same
    · exact kept.apart other before.2 there
  · intro other member
    have before := (unauthed other).mp member
    exact (added other).mpr (Or.inl (kept.known other before.2))
  · intro other member
    by_cases same : other = session
    · exact Or.inr ((authed other).mpr (Or.inl same))
    · have before := ((added other).mp member).resolve_right (fun fresh => same fresh.2)
      rcases kept.somewhere other before with here | there
      · exact Or.inl ((unauthed other).mpr ⟨same, here⟩)
      · exact Or.inr ((authed other).mpr (Or.inr there))

private theorem Kept.remove_authed (kept : self.Kept)
    {connected : List Nat} (removed : ∀ other, other ∈ connected ↔
      other ∈ self.connected ∧ self.manager.authed_.lookup sid ≠ some other) :
    Kept { manager := self.manager.remove_authed sid, connected := connected } where
  apart := by
    intro other member there
    obtain ⟨place, -, found⟩ := (self.manager.mem_authed_erase sid other).mp there
    exact kept.apart other member ((self.manager.mem_authed_sessions other).mpr ⟨place, found⟩)
  known := by
    intro other member
    refine (removed other).mpr ⟨kept.known other member, ?_⟩
    intro found
    exact kept.apart other member ((self.manager.mem_authed_sessions other).mpr ⟨sid, found⟩)
  somewhere := by
    intro other member
    obtain ⟨before, different⟩ := (removed other).mp member
    rcases kept.somewhere other before with here | there
    · exact Or.inl here
    · obtain ⟨place, found⟩ := (self.manager.mem_authed_sessions other).mp there
      refine Or.inr ((self.manager.mem_authed_erase sid other).mpr ⟨place, ?_, found⟩)
      rintro rfl
      exact different found

end Step

theorem refused_unchanged (manager : SessionManager) (operation : Operation)
    (orderly : operation.Orderly manager) (refused : operation.Refused manager) :
    operation.apply manager = manager := by
  have unchanged : ∀ session sid, sid ∈ manager.authed_ →
      sid ∉ manager.authed_ ∨ session ∉ manager.unauthed_ →
      manager.add_authed session sid = manager := by
    intro session sid taken orderly
    rw [SessionManager.add_authed_of_taken _ _ _ taken]
    exact manager.remove_unauthed_of_not_mem session (orderly.resolve_left (not_not.mpr taken))
  cases operation with
  | add_authed session sid => exact unchanged session sid refused orderly
  | move_to_authed session sid =>
      exact (manager.move_to_authed_eq session sid).trans (unchanged session sid refused orderly)
  | add_unauthed | remove_authed | remove_unauthed | remove => exact refused.elim

theorem Kept.step {self next : Registry} (kept : self.Kept) {operation : Operation}
    (orderly : self.Orderly operation) (taken : self.step operation = some next) :
    next.Kept := by
  cases taken
  cases operation with
  | add_unauthed session =>
      apply kept.add_unauthed orderly
      intro other
      simp [Operation.adds, Operation.removes]
  | add_authed session sid =>
      apply kept.add_authed orderly
      intro other
      simp [Operation.adds, Operation.removes]
  | move_to_authed session sid =>
      apply kept.add_authed orderly
      intro other
      simp [Operation.adds, Operation.removes]
  | remove_authed sid =>
      apply kept.remove_authed
      intro other
      simp [Operation.adds, Operation.removes]
  | remove_unauthed session =>
      apply kept.remove_unauthed
      intro other
      simp [Operation.adds, Operation.removes]
  | remove session =>
      apply kept.remove_unauthed
      intro other
      simp [Operation.adds, Operation.removes]

/-- Every connected session is in exactly one of the two collections, and an
operation that is refused changes nothing, in every history of orderly
operations. -/
theorem everyone_connected_once {registry : Registry}
    (run : Reaches Registry.step Registry.Orderly Registry.init registry) :
    (∀ session ∈ registry.connected, registry.manager.Placed session) ∧
      ∀ operation, registry.Orderly operation → operation.Refused registry.manager →
        operation.apply registry.manager = registry.manager := by
  have kept : registry.Kept := run.invariant Kept
    (fun _ _ _ kept orderly taken => kept.step orderly taken) kept_init
  exact ⟨kept.placed, refused_unchanged registry.manager⟩

def orderlyHistory : List Operation :=
  [.add_unauthed 0, .add_unauthed 1, .move_to_authed 1 "a", .add_authed 2 "a", .remove 0]

theorem everyone_connected_once_sample : ∃ registry : Registry,
    (registry.connected = [1] ∧ registry.manager.unauthed_ = []) ∧
      (∀ session ∈ registry.connected, registry.manager.Placed session) ∧
      ∀ operation : Operation, registry.Orderly operation →
        operation.Refused registry.manager →
        operation.apply registry.manager = registry.manager := by
  obtain ⟨start, registry, same, run, here⟩ := Reaches.of_trace_any Registry.step Registry.Orderly
    (some Registry.init)
    (fun registry => decide (registry.connected = [1] ∧ registry.manager.unauthed_ = []))
    orderlyHistory (by decide +kernel)
  cases same
  exact ⟨registry, of_decide_eq_true here, everyone_connected_once run⟩

/-- The condition cannot be weakened: any other operation puts a connected
session into both collections or into neither. -/
theorem Kept.misplaced {self next : Registry} (kept : self.Kept) {operation : Operation}
    (disorderly : ¬self.Orderly operation) (taken : self.step operation = some next) :
    ∃ session ∈ next.connected, ¬next.manager.Placed session := by
  have lost : ∀ session sid,
      ¬(sid ∉ self.manager.authed_ ∨ session ∉ self.manager.unauthed_) →
      sid ∈ self.manager.authed_ ∧ session ∈ self.connected ∧
        ¬(self.manager.add_authed session sid).Placed session := by
    intro session sid both
    obtain ⟨taken, waiting⟩ := not_or.mp both
    have before := not_not.mp waiting
    refine ⟨not_not.mp taken, kept.known session before, ?_⟩
    rw [self.manager.add_authed_of_taken _ _ (not_not.mp taken)]
    intro placed
    exact ((self.manager.mem_remove_unauthed session session).mp
      (placed.mpr (kept.apart session before))).1 rfl
  cases taken
  cases operation with
  | add_unauthed session =>
      refine ⟨session, by simp [Operation.adds], fun placed => ?_⟩
      have inside := (self.manager.mem_add_unauthed session session).mpr (Or.inl rfl)
      exact placed.mp inside (not_not.mp disorderly)
  | add_authed session sid =>
      obtain ⟨-, before, out⟩ := lost session sid disorderly
      exact ⟨session, by simp [Operation.removes, before], out⟩
  | move_to_authed session sid =>
      obtain ⟨-, before, out⟩ := lost session sid disorderly
      exact ⟨session, by simp [Operation.removes, before], out⟩
  | remove_authed | remove_unauthed | remove => exact (disorderly trivial).elim

/-- Two connected sessions ask for one sid: the second is then in neither
collection. -/
theorem refused_session_lost : ∃ registry,
    Reaches Registry.step anyEvent Registry.init registry ∧
      1 ∈ registry.connected ∧ 1 ∉ registry.manager.unauthed_ ∧
      1 ∉ registry.manager.authed_sessions := by
  obtain ⟨start, registry, same, run, here⟩ := Reaches.of_trace_any Registry.step anyEvent
    (some Registry.init)
    (fun registry => decide (1 ∈ registry.connected ∧ 1 ∉ registry.manager.unauthed_ ∧
      1 ∉ registry.manager.authed_sessions))
    [.add_unauthed 0, .add_unauthed 1, .move_to_authed 0 "a", .move_to_authed 1 "a"]
    (by decide +kernel)
  cases same
  exact ⟨registry, run, of_decide_eq_true here⟩

end Registry

/-! ### The removal of a session -/

namespace SessionManager

def SamePlace (before after : SessionManager) (session : Nat) : Prop :=
  (session ∈ after.unauthed_ ↔ session ∈ before.unauthed_) ∧
    ∀ sid, after.authed_.lookup sid = some session ↔ before.authed_.lookup sid = some session

/-- `remove` takes a session out of `unauthed_` only, whatever has become of it:
it does what it should exactly for the sessions that are not in `authed_`. -/
theorem remove_removes_iff {sha1 : List UInt8 → Digest} {allowed : Connection → Stimulus → Prop}
    {input : List UInt8} {start connection : Connection}
    (accepted : Connection.accept input = some start)
    (run : Reaches (Connection.next sha1) allowed start connection)
    (manager : SessionManager) (session : Nat) :
    let after := manager.remove session connection.session.authenticated_ connection.session.sid_
    (session ∉ after.unauthed_ ∧ session ∉ after.authed_sessions ∧
        ∀ other, other ≠ session → manager.SamePlace after other) ↔
      session ∉ manager.authed_sessions := by
  intro after
  have same : after = manager.remove_unauthed session :=
    manager.remove_of_identity session (identity_of_run accepted run)
  rw [same]
  constructor
  · exact fun removed => removed.2.1
  · intro absent
    refine ⟨?_, absent, ?_⟩
    · exact fun member => ((manager.mem_remove_unauthed session session).mp member).1 rfl
    · intro other different
      refine ⟨?_, fun sid => Iff.rfl⟩
      rw [mem_remove_unauthed, and_iff_right different]

theorem remove_removes_iff_waiting : ∃ start, Connection.accept [] = some start ∧
    let manager := SessionManager.init.add_unauthed 0
    let after := manager.remove 0 start.session.authenticated_ start.session.sid_
    (0 ∉ after.unauthed_ ∧ 0 ∉ after.authed_sessions ∧
        ∀ other, other ≠ 0 → manager.SamePlace after other) ↔
      0 ∉ manager.authed_sessions := by
  have started : (Connection.accept []).isSome = true := by decide +kernel
  obtain ⟨start, accepted⟩ := Option.isSome_iff_exists.mp started
  have run : Reaches (Connection.next zeroDigest) anyEvent start start := .start
  exact ⟨start, accepted, remove_removes_iff accepted run (SessionManager.init.add_unauthed 0) 0⟩

/-- A session moved behind a sid, its only one, is still there when it is removed. -/
theorem remove_leaves_authed :
    let manager := [Operation.add_unauthed 0, .move_to_authed 0 "a"].foldl Operation.apply .init
    0 ∈ (manager.remove 0 Session.init.authenticated_ Session.init.sid_).authed_sessions := by
  decide +kernel

end SessionManager

end Averyws
