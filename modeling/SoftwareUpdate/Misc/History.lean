import Mathlib.Tactic.TypeStar

/-!
# Histories

A history is the list of the events so far, newest first, in which some events begin a new
segment. What has happened in the current segment is read off the history by recursion; the
event that begins a segment belongs to no segment.
-/

namespace SoftwareUpdate.Misc.History

variable {ε : Type*} {begins happened happened' : ε → Bool} {x : ε} {log : List ε}

/-- Whether an event with `happened` is newer than the last event with `begins`. -/
def since (begins happened : ε → Bool) : List ε → Bool
  | [] => false
  | x :: log => !begins x && (happened x || since begins happened log)

@[simp] theorem since_nil : since begins happened [] = false := rfl

@[simp] theorem since_cons :
    since begins happened (x :: log) = (!begins x && (happened x || since begins happened log)) :=
  rfl

theorem since_imp (himp : ∀ x, happened x = true → happened' x = true)
    (h : since begins happened log = true) : since begins happened' log = true := by
  induction log with
  | nil => cases h
  | cons x log ih =>
    simp only [since_cons, Bool.and_eq_true, Bool.or_eq_true] at h ⊢
    exact ⟨h.1, h.2.imp (himp x) ih⟩

/-! ## The first value of a segment -/

variable {β : Type*} {value : ε → Option β}

/-- The value of the oldest event since the last one with `begins` that has a value. -/
def firstSince (begins : ε → Bool) (value : ε → Option β) : List ε → Option β
  | [] => none
  | x :: log => if begins x then none else (firstSince begins value log).or (value x)

theorem firstSince_cons : firstSince begins value (x :: log) =
    if begins x then none else (firstSince begins value log).or (value x) :=
  rfl

/-! ## The history before an event -/

/-- The history before the newest event with `begins`. -/
def priorTo (begins : ε → Bool) : List ε → List ε
  | [] => []
  | x :: log => if begins x then log else priorTo begins log

theorem priorTo_cons :
    priorTo begins (x :: log) = if begins x then log else priorTo begins log :=
  rfl

end SoftwareUpdate.Misc.History
