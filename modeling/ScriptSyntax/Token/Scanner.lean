/-
  ScriptSyntax/Token/Scanner.lean
  ===============================
  A scanner: a text, the token read last, and the errors met on the way.

  Errors wait in a queue until they are taken, or go to a listener while there
  is one.  A mark remembers the token and the length of the queue, so a trial
  run can be undone together with the errors it queued.
-/
import ScriptSyntax.Token.Rescan

namespace ScriptSyntax

/-! ## 1. Ways to read -/

/-- A way to read the next token, or to read the current one again. -/
inductive ReadingMode where
  | scan | rescanGreater | rescanSlash | rescanTemplate | rescanLess
  | extendJsxName | scanJsx | scanJsxAttributeValue | rescanJsx
  deriving DecidableEq, Repr

/-- The token that a way of reading makes of the current one. -/
def ReadingMode.read (mode : ReadingMode) (text : Array Char) (t : Token) : Scanned :=
  match mode with
  | .scan => t.next text
  | .rescanGreater => t.rescanGreater text
  | .rescanSlash => t.rescanSlash text
  | .rescanTemplate => t.rescanTemplate text
  | .rescanLess => t.rescanLess
  | .extendJsxName => t.scanJsxName text
  | .scanJsx => t.nextJsx text
  | .scanJsxAttributeValue => t.nextJsxAttributeValue text
  | .rescanJsx => t.rescanJsx text

/-! ## 2. Scanners -/

/-- A text, the token read last, the errors in the queue, and whether a listener takes new errors
before they reach the queue. -/
structure Scanner where
  text : Array Char
  token : Token
  queue : List ScanError := []
  listening : Bool := false
  deriving DecidableEq, Repr

/-- What is remembered of a scanner in order to come back to it. -/
structure Scanner.Mark where
  token : Token
  queued : Nat
  deriving DecidableEq, Repr

namespace Scanner

def ofText (text : Array Char) : Scanner := { text, token := Token.before 0 }

/-- Reads on. The errors that the listener hears are given beside the scanner. -/
def read (s : Scanner) (mode : ReadingMode) : Scanner × List ScanError :=
  let (token, errors) := mode.read s.text s.token
  if s.listening then ({ s with token }, errors)
  else ({ s with token, queue := s.queue ++ errors }, [])

/-- Reads on several times. The tokens read are given in order, then the errors heard. -/
def readAll (s : Scanner) : List ReadingMode → Scanner × List Token × List ScanError
  | [] => (s, [], [])
  | mode :: modes =>
    let (next, heard) := s.read mode
    let (last, tokens, later) := next.readAll modes
    (last, next.token :: tokens, heard ++ later)

/-- Moves to a position, the end of the text at most, and forgets the current token. -/
def moveTo (s : Scanner) (pos : Nat) : Scanner :=
  { s with token := Token.before (min pos s.text.size) }

/-- Takes the errors out of the queue. -/
def takeErrors (s : Scanner) : Scanner × List ScanError := ({ s with queue := [] }, s.queue)

/-! ## 3. Trial runs -/

/-- What is needed to come back to this state. -/
def mark (s : Scanner) : Mark := ⟨s.token, s.queue.length⟩

/-- Comes back to a mark. Errors queued since are dropped. -/
def restore (s : Scanner) (m : Mark) : Scanner :=
  { s with token := m.token, queue := s.queue.take m.queued }

/-- Runs `f` and comes back to the state before it. -/
def lookAhead {α : Type} (s : Scanner) (f : Scanner → Scanner × α) : Scanner × α :=
  let (after, result) := f s
  (after.restore s.mark, result)

/-- Runs `f` and stays where it leads if `keep` holds there; comes back otherwise. -/
def attempt {α : Type} (s : Scanner) (keep : Scanner → Bool) (f : Scanner → Scanner × α) :
    Scanner × α :=
  let (after, result) := f s
  (if keep after then after else after.restore s.mark, result)

end Scanner

end ScriptSyntax
