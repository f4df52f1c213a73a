import BoxFlow.Number.Overflow
import BoxFlow.Paint.Command
import BoxFlow.Warning

/-!
# Drawing as a value

Laying something out gives a value, the commands it draws and the warnings it
raises. A sequence of steps draws and warns in the order of the steps, and no
step sees what was drawn before it.

Some numbers have a bounded range. A step that would leave it makes the whole
layout fail, and what has been drawn is then of no use. The first such step is
the one that is told.
-/

namespace BoxFlow

/-- A value with the commands drawn and the warnings raised on the way to it, and
the operation that has made the layout fail, if one has. -/
structure Draw (α : Type) where
  value : α
  commands : List Command := []
  warnings : List Warning := []
  overflow : Option Overflow := none

namespace Draw

instance : Monad Draw where
  pure value := { value }
  bind x f :=
    let y := f x.value
    ⟨y.value, x.commands ++ y.commands, x.warnings ++ y.warnings, x.overflow.or y.overflow⟩

/-- Draws commands. -/
def draw (commands : List Command) : Draw Unit := { value := (), commands }

/-- Raises warnings. -/
def warn (warnings : List Warning) : Draw Unit := { value := (), warnings }

/-- Fails if the result of an operation is not in range. -/
def require (inRange : Bool) (operation : Overflow) : Draw Unit where
  value := ()
  overflow := if inRange then none else some operation

variable {α β : Type}

@[simp] theorem value_pure (a : α) : (pure a : Draw α).value = a := rfl

@[simp] theorem commands_pure (a : α) : (pure a : Draw α).commands = [] := rfl

@[simp] theorem value_bind (x : Draw α) (f : α → Draw β) :
    (x >>= f).value = (f x.value).value := rfl

@[simp] theorem commands_bind (x : Draw α) (f : α → Draw β) :
    (x >>= f).commands = x.commands ++ (f x.value).commands := rfl

@[simp] theorem overflow_pure (a : α) : (pure a : Draw α).overflow = none := rfl

@[simp] theorem overflow_bind (x : Draw α) (f : α → Draw β) :
    (x >>= f).overflow = x.overflow.or (f x.value).overflow := rfl

@[simp] theorem overflow_draw (commands : List Command) : (draw commands).overflow = none := rfl

@[simp] theorem overflow_warn (warnings : List Warning) : (warn warnings).overflow = none := rfl

@[simp] theorem overflow_require (inRange : Bool) (operation : Overflow) :
    (require inRange operation).overflow = if inRange then none else some operation := rfl

/-- What has to be in range draws nothing of its own. -/
@[simp] theorem commands_require (inRange : Bool) (operation : Overflow) :
    (require inRange operation).commands = [] := rfl

end Draw

end BoxFlow
