import Mathlib.Logic.Function.Basic

/-!
# Arrays of latching switches

A command names one switch of an array and the position to latch it in.  Commands are
idempotent, so a sender that has nothing new for an array may send its last command again.
-/

namespace Framework

variable {α : Type} [DecidableEq α]

/-- Latch the switch at `address` closed or open. -/
structure LatchCommand (α : Type) where
  address : α
  close : Bool
  deriving DecidableEq

namespace LatchCommand

def apply (c : LatchCommand α) (switches : α → Bool) : α → Bool :=
  Function.update switches c.address c.close

def Settled (c : LatchCommand α) (switches : α → Bool) : Prop := c.apply switches = switches

theorem settled_apply (c : LatchCommand α) (switches : α → Bool) :
    c.Settled (c.apply switches) :=
  Function.update_idem _ _ _

theorem settled_of_position {c : LatchCommand α} {switches : α → Bool}
    (h : switches c.address = c.close) : c.Settled switches := by
  simp only [Settled, apply]
  rw [← h, Function.update_eq_self]

/-- Sending the new command if there is one, and the last one otherwise, latches exactly the new
command and leaves what was sent settled. -/
theorem resend {last : LatchCommand α} {switches : α → Bool} (hlast : last.Settled switches)
    (new : Option (LatchCommand α)) :
    (new.getD last).apply switches = new.elim switches (·.apply switches) ∧
      (new.getD last).Settled ((new.getD last).apply switches) := by
  refine ⟨?_, settled_apply _ _⟩
  cases new with
  | none => exact hlast
  | some c => rfl

end LatchCommand

end Framework
