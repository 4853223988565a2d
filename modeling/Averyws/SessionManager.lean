/-
The registry of `ws_session_manager.cpp`.

A session is named by a number, as the source names it by its pointer.  The
feed tables are left out: nothing fills or reads them.
-/

import Mathlib.Data.List.AList

namespace Averyws

structure SessionManager where
  unauthed_ : List Nat
  authed_ : AList fun _ : String => Nat
  distinct : unauthed_.Nodup

namespace SessionManager

def init : SessionManager :=
  { unauthed_ := [], authed_ := ∅, distinct := List.nodup_nil }

def add_unauthed (self : SessionManager) (session : Nat) : SessionManager :=
  { self with
    unauthed_ := self.unauthed_.insert session
    distinct := self.distinct.insert }

def remove_unauthed (self : SessionManager) (session : Nat) : SessionManager :=
  { self with
    unauthed_ := self.unauthed_.erase session
    distinct := self.distinct.erase session }

def add_authed (self : SessionManager) (session : Nat) (sid : String) : SessionManager :=
  let self := self.remove_unauthed session
  if sid ∈ self.authed_ then self
  else { self with authed_ := self.authed_.insert sid session }

def move_to_authed (self : SessionManager) (session : Nat) (sid : String) : SessionManager :=
  let self := self.remove_unauthed session
  if sid ∈ self.authed_ then self
  else { self with authed_ := self.authed_.insert sid session }

def remove_authed (self : SessionManager) (sid : String) : SessionManager :=
  { self with authed_ := self.authed_.erase sid }

/-- The session is asked for `authenticated()` and `sid()`. -/
def remove (self : SessionManager) (session : Nat) (authenticated : Bool) (sid : String) :
    SessionManager :=
  if authenticated then self.remove_authed sid else self.remove_unauthed session

theorem mem_add_unauthed (self : SessionManager) (session other : Nat) :
    other ∈ (self.add_unauthed session).unauthed_ ↔ other = session ∨ other ∈ self.unauthed_ :=
  List.mem_insert_iff

end SessionManager

end Averyws
