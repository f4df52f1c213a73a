import BoxFlow.Layout.Metrics
import BoxFlow.Text.Cut

/-!
# Blank characters and lines of text

Source text is normalized before it is shown: a line break becomes one space and
takes the blanks after it along, and a run of no-break spaces becomes one space.
Normalized text is broken into lines at spaces, as many words on a line as fit.
-/

namespace BoxFlow.Text

/-- The no-break space. -/
def noBreakSpace : Char := '\u00a0'

/-- Normalizes the rest of a text. `previous` is the character written last, with
a no-break space standing for the space written for it; `afterBreak` holds while
blanks are taken along by a line break. -/
def normalizeFrom (atStart : Bool) (previous : Option Char) (afterBreak : Bool) :
    List Char → List Char
  | [] => []
  | c :: cs =>
    if c = '\n' then
      if atStart || previous == some ' ' || previous == some noBreakSpace then
        normalizeFrom false previous true cs
      else ' ' :: normalizeFrom false (some ' ') true cs
    else if c = '\r' || (afterBreak && isBlank c) then
      normalizeFrom false previous afterBreak cs
    else if c = noBreakSpace then
      if previous == some noBreakSpace then normalizeFrom false previous false cs
      else ' ' :: normalizeFrom false (some noBreakSpace) false cs
    else c :: normalizeFrom false (some c) false cs

/-- A text with its line breaks and no-break spaces normalized. -/
def normalize (cs : List Char) : List Char :=
  normalizeFrom true none false cs

/-- A text normalized and trimmed. -/
def visible (cs : List Char) : List Char :=
  trim (normalize cs)

/-- By how much a line may be wider than the space for it, so that rounding does
not break a line that fits exactly. -/
def wrapTolerance : Float32 := 0.01

/-- Lines of words: `line` goes on as long as it fits with the next word. -/
def fillLines (fits : List Char → Bool) (line : List Char) : List (List Char) → List (List Char)
  | [] => [line]
  | word :: words =>
    let longer := line ++ ' ' :: word
    if fits longer then fillLines fits longer words
    else line :: fillLines fits word words

/-- Breaks a text into lines. Without a positive width there is one line. -/
def wrapWith (fits : List Char → Bool) (bounded : Bool) (text : List Char) : List (List Char) :=
  let text := trim text
  if text.isEmpty then []
  else if !bounded || fits text then [text]
  else match words (· == ' ') text with
    | [] => []
    | word :: words => fillLines fits word words

/-- Breaks a text into lines that fit a width at a font size. -/
def wrap (metrics : FontMetrics) (width size : Float32) (text : List Char) : List (List Char) :=
  wrapWith (fun line => metrics.textWidth (.ofList line) size ≤ width + wrapTolerance)
    (!(width ≤ 0)) text

end BoxFlow.Text
