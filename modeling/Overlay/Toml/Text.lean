import Overlay.Toml.Reader

/-!
# Quoted text

Text stands between quotation marks, where a backslash begins an escape, or
between apostrophes, where every character stands for itself.  Three of either
mark enclose text of several lines.
-/

set_option autoImplicit false

namespace Overlay.Toml.Reader

/-- What may stand for itself between quotation marks. -/
def isPlain (c : Char) : Bool :=
  c != '"' && c != '\\' && isComment c

/-- What may stand between apostrophes. -/
def isVerbatim (c : Char) : Bool :=
  c != '\'' && isComment c

/-- The character with a given number, where there is one. -/
def scalar? (value : Nat) : Option Char :=
  if value.isValidChar then some (Char.ofNat value) else none

/-- What an escape of a single character stands for. -/
def escape? : Char → Option Char
  | 'b' => some '\x08'
  | 't' => some '\t'
  | 'n' => some '\n'
  | 'f' => some '\x0c'
  | 'r' => some '\r'
  | '"' => some '"'
  | '\\' => some '\\'
  | _ => none

/-- A character that is given by its number in hexadecimal digits. -/
def numbered (count : Nat) : Reader Char := do
  match scalar? (number 16 (← exactly count isHexadecimal)) with
  | some c => return c
  | none => failure

/-- An escape after its backslash. -/
def escape : Reader Char := do
  match ← one (fun _ => true) with
  | 'u' => numbered 4
  | 'U' => numbered 8
  | c =>
      match escape? c with
      | some c => return c
      | none => failure

/-- Text up to a quotation mark, by steps. -/
def basicSteps : Nat → Reader (List Char)
  | 0 => failure
  | steps + 1 => do
      match ← one (fun c => isPlain c || c == '"' || c == '\\') with
      | '"' => return []
      | '\\' => return (← escape) :: (← basicSteps steps)
      | c => return c :: (← basicSteps steps)

/-- Text between quotation marks. -/
def basic : Reader (List Char) := do
  char '"'
  bounded basicSteps

/-- Text between apostrophes. -/
def verbatim : Reader (List Char) := do
  char '\''
  let text ← run isVerbatim
  char '\''
  return text

/-! ## Text of several lines -/

/-- A line end within text, which counts as a line feed. -/
def lineFeed : Reader (List Char) := do
  lineEnd
  return ['\n']

/-- Blanks and line ends in any number. -/
def blankLines : Nat → Reader Unit
  | 0 => pure ()
  | steps + 1 => do
      blanks
      match ← attempt lineEnd with
      | some () => blankLines steps
      | none => pure ()

/-- A backslash at the end of a line joins it to the next text. -/
def joinedLine : Reader (List Char) := do
  char '\\'
  blanks
  lineEnd
  bounded blankLines
  return []

/-- The closing marks of text of several lines, with what belongs to the text: up to two
marks may stand right before the closing three. -/
def closing (mark : Char) : Reader (List Char) := fun input =>
  let marks := (input.takeWhile (· == mark)).length
  if marks < 3 then none
  else
    let kept := min (marks - 3) 2
    some (List.replicate kept mark, input.drop (kept + 3))

/-- One or two marks that belong to text of several lines and do not close it. -/
def loneMarks (mark : Char) : Reader (List Char) := fun input =>
  let marks := input.takeWhile (· == mark)
  if marks.isEmpty || 3 ≤ marks.length then none
  else some (marks, input.drop marks.length)

/-- A piece of text of several lines between quotation marks. -/
def basicPiece : Reader (List Char) :=
  run1 isPlain
    <|> joinedLine
    <|> (do char '\\'; return [← escape])
    <|> lineFeed
    <|> loneMarks '"'

/-- A piece of text of several lines between apostrophes. -/
def verbatimPiece : Reader (List Char) :=
  run1 isVerbatim <|> lineFeed <|> loneMarks '\''

/-- Pieces up to the closing marks, by steps. -/
def pieces (mark : Char) (piece : Reader (List Char)) : Nat → Reader (List Char)
  | 0 => failure
  | steps + 1 => closing mark <|> (do
      let first ← piece
      return first ++ (← pieces mark piece steps))

/-- Text of several lines.  A line end right after the opening marks is left out. -/
def severalLines (mark : Char) (piece : Reader (List Char)) : Reader (List Char) := do
  literal (String.ofList [mark, mark, mark])
  let _ ← attempt lineEnd
  bounded (pieces mark piece)

/-- Quoted text of any kind.  Three marks in a row always open text of several lines. -/
def quoted : Reader (List Char) := fun input =>
  match input with
  | '"' :: '"' :: '"' :: _ => severalLines '"' basicPiece input
  | '\'' :: '\'' :: '\'' :: _ => severalLines '\'' verbatimPiece input
  | '\'' :: _ => verbatim input
  | _ => basic input

end Overlay.Toml.Reader
