/-
  ChaosController.Text.Terminal

  What a terminal shows of a text: control characters and control sequences are left out.

  A control sequence begins with the escape character. How it goes on says where it ends: at
  a final character, at a bell, at the byte 9C, or only where the next one begins. A line
  break, a tab and the like end a sequence that is no string or command, and are shown.
  Characters outside ASCII have no meaning inside of a sequence.
-/

namespace ChaosController

/-- Where a terminal stands in a text. -/
inductive Terminal
  /-- Outside of control sequences. -/
  | showing
  /-- Behind an escape character. -/
  | escape
  /-- In a sequence that began with an escape character and a character below `0`. -/
  | short
  /-- In a sequence that began with `ESC [`. -/
  | control
  /-- In a command of the operating system, `ESC ]`, which a bell ends. -/
  | command
  /-- Behind `ESC P`, where the head of a string for a device begins. -/
  | device
  /-- In such a head, behind a parameter. -/
  | parameters
  /-- In such a head, behind a character below `0`. -/
  | marks
  /-- In a string that is not for the screen, which the byte 9C ends. -/
  | string
deriving DecidableEq, Repr

namespace Terminal

/-- The control characters that are blank: they are shown. -/
def isBlankControl (c : Char) : Bool := c == '\t' || c == '\n' || c == '\x0c' || c == '\r'

/-- Behind an escape character, the character tells the kind of sequence. -/
def opening (c : Char) : Terminal :=
  if c = '[' then control
  else if c = ']' then command
  else if c = 'P' then device
  else if c = 'X' ∨ c = '^' ∨ c = '_' then string
  else if ' ' ≤ c ∧ c < '0' then short
  else if '0' ≤ c ∧ c ≤ '~' then showing
  else escape

/-- The head of a string for a device ends with a letter. Behind it, and behind a head that
    is not well-formed, the string goes on to its end. -/
def head (state : Terminal) (c : Char) : Terminal :=
  if '@' ≤ c ∧ c ≤ '~' then string
  else if ' ' ≤ c ∧ c < '0' then marks
  else if '0' ≤ c ∧ c < '@' then
    if state = device ∨ state = parameters ∧ c < '<' then parameters else string
  else state

/-- Whether a character has the byte 9C in it. -/
def hasStringEnd (c : Char) : Bool := (String.utf8EncodeChar c).contains 0x9C

/-- Takes a character other than an escape: where the terminal stands behind it. -/
def next (c : Char) : Terminal → Terminal
  | showing => showing
  | escape => opening c
  | short => if '0' ≤ c ∧ c ≤ '~' then showing else short
  | control => if '@' ≤ c ∧ c ≤ '~' then showing else control
  | command => if c = '\x07' then showing else command
  | device => head device c
  | parameters => head parameters c
  | marks => head marks c
  | string => if hasStringEnd c then showing else string

/-- Whether a character is shown. -/
def shows (c : Char) : Terminal → Bool
  | showing => ' ' ≤ c && c != '\x7f' || isBlankControl c
  | escape | short | control => isBlankControl c
  | command | device | parameters | marks | string => false

/-- What is shown of the rest of a text. Two control characters end every sequence. -/
def display (state : Terminal) : List Char → List Char
  | [] => []
  | c :: rest =>
    if c = '\x1b' then display escape rest
    else if state.shows c then c :: display showing rest
    else if c = '\x18' ∨ c = '\x1a' then display showing rest
    else display (state.next c) rest

end Terminal

/-- What a terminal shows of a text. -/
def shownText (s : String) : String := String.ofList (Terminal.showing.display s.toList)

end ChaosController
