/-!
# Text on a terminal

Escape sequences that switch an attribute of the text on and off again.
-/

namespace BoxFlow.Terminal

/-- A text between the sequences of two attribute codes. -/
def between (on off text : String) : String :=
  "\x1b[" ++ on ++ "m" ++ text ++ "\x1b[" ++ off ++ "m"

/-- A bold text. -/
def bold (text : String) : String := between "1" "0" text

/-- A dimmed text. -/
def dimmed (text : String) : String := between "2" "0" text

/-- A green text. -/
def green (text : String) : String := between "32" "39" text

/-- A yellow text. -/
def yellow (text : String) : String := between "33" "39" text

/-- A blue text. -/
def blue (text : String) : String := between "34" "39" text

/-- A cyan text. -/
def cyan (text : String) : String := between "36" "39" text

end BoxFlow.Terminal
