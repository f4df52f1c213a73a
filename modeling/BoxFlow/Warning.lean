/-!
# Warnings

Nothing stops at unusable input. What was dropped or skipped is reported as a
warning, and a log lets each distinct text through once until it is cleared.
-/

namespace BoxFlow

/-- A report about input that was dropped or skipped. -/
structure Warning where
  component : String
  message : String
deriving DecidableEq, Repr

namespace Warning

/-- The text of a warning: its component in brackets, then the message. -/
def text (w : Warning) : String :=
  "[" ++ w.component ++ "] " ++ w.message

/-- About style rules and declarations. -/
def css (message : String) : Warning := ⟨"css", message⟩

/-- About selectors that turn out unusable while matching. -/
def selector (message : String) : Warning := ⟨"selector", message⟩

/-- About trees that are too deep to be styled. -/
def cascade (message : String) : Warning := ⟨"cascade", message⟩

/-- About boxes and tables. -/
def layout (message : String) : Warning := ⟨"layout", message⟩

/-- About images that are not shown. -/
def image (message : String) : Warning := ⟨"image", message⟩

/-- About fonts. -/
def render (message : String) : Warning := ⟨"render", message⟩

end Warning

/-- The texts reported since the log was last cleared. -/
structure WarningLog where
  reported : List String := []
deriving DecidableEq, Repr

namespace WarningLog

/-- Reports a warning: the texts to show now, none if it was shown before. -/
def warn (log : WarningLog) (w : Warning) : List String × WarningLog :=
  if w.text ∈ log.reported then ([], log) else ([w.text], ⟨w.text :: log.reported⟩)

/-- Reports warnings in turn. -/
def warnAll (log : WarningLog) : List Warning → List String × WarningLog
  | [] => ([], log)
  | w :: ws =>
    let (shown, log) := log.warn w
    let (later, log) := warnAll log ws
    (shown ++ later, log)

/-- Forgets everything reported. -/
def clear (_ : WarningLog) : WarningLog := {}

/-- The texts shown for a sequence of warnings by a fresh log. -/
def shownFor (ws : List Warning) : List String :=
  (WarningLog.warnAll {} ws).1

end WarningLog

end BoxFlow
