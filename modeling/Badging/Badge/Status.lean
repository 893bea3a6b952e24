/-!
# The status of a badge

A badge is a draft until it is activated, and it is archived at the end of its life. A badge
that has been awarded is locked: `locked` is the status with the same availability whose
criteria can no longer change. An archived badge has nothing left to lock.
-/

namespace Badging

/-- Where a badge stands in its life. -/
inductive Status where
  | draft
  | active
  | draftLocked
  | activeLocked
  | archived
deriving DecidableEq, Repr

namespace Status

/-- All of them, in the order of their codes. -/
def all : List Status := [.draft, .active, .draftLocked, .activeLocked, .archived]

def code : Status → Nat
  | .draft => 0
  | .active => 1
  | .draftLocked => 2
  | .activeLocked => 3
  | .archived => 4

def ofCode? (n : Nat) : Option Status := all.find? (·.code == n)

def label : Status → String
  | .draft => "draft"
  | .active => "active"
  | .draftLocked => "draft_locked"
  | .activeLocked => "active_locked"
  | .archived => "archived"

def ofLabel? (s : String) : Option Status := all.find? (·.label == s)

/-- Available to learners and subject to review. -/
def isActive : Status → Bool
  | .active | .activeLocked => true
  | _ => false

/-- Awarded before, so that the criteria are fixed. -/
def isLocked : Status → Bool
  | .draftLocked | .activeLocked => true
  | _ => false

/-- The status after the first award. -/
def locked : Status → Status
  | .draft => .draftLocked
  | .active => .activeLocked
  | s => s

def activated : Status → Status
  | .draft => .active
  | .draftLocked => .activeLocked
  | s => s

def deactivated : Status → Status
  | .active => .draft
  | .activeLocked => .draftLocked
  | s => s

def isEditable (s : Status) : Bool := !s.isLocked && s != .archived

@[simp] theorem ofCode?_code (s : Status) : ofCode? s.code = some s := by
  cases s <;> rfl

@[simp] theorem ofLabel?_label (s : Status) : ofLabel? s.label = some s := by
  cases s <;> decide

@[simp] theorem locked_locked (s : Status) : s.locked.locked = s.locked := by
  cases s <;> rfl

@[simp] theorem isEditable_locked (s : Status) : s.locked.isEditable = false := by
  cases s <;> rfl

@[simp] theorem isActive_locked (s : Status) : s.locked.isActive = s.isActive := by
  cases s <;> rfl

@[simp] theorem isEditable_activated (s : Status) : s.activated.isEditable = s.isEditable := by
  cases s <;> rfl

@[simp] theorem isEditable_deactivated (s : Status) :
    s.deactivated.isEditable = s.isEditable := by
  cases s <;> rfl

end Status

end Badging
