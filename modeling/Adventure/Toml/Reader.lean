/-!
# Reading characters

A reader takes a value off the front of a list of characters and leaves the rest, or fails. The gaps
of a document are read here: blanks, line ends and comments.

The part of `toml::from_str` that the others are made of.
-/

namespace Adventure.Toml

/-- Takes a value off the front of the characters. -/
abbrev Reader := StateT (List Char) Option

/-- A character that may stand in strings and comments: all but the control characters, of which
only the tab is allowed. -/
def isPlain (c : Char) : Bool :=
  c == '\t' || (32 ≤ c.toNat && c.toNat != 127)

/-- A space or a tab. -/
def isSpace (c : Char) : Bool :=
  c == ' ' || c == '\t'

namespace Reader

/-- The next character, which stays. -/
def peek? : Reader (Option Char) :=
  fun cs => some (cs.head?, cs)

/-- Reads one given character if it comes next, and says whether it did. -/
def accept (c : Char) : Reader Bool
  | [] => some (false, [])
  | d :: cs => if d == c then some (true, cs) else some (false, d :: cs)

/-- Reads one given character. -/
def expect (c : Char) : Reader Unit
  | [] => none
  | d :: cs => if d == c then some ((), cs) else none

/-- Reads the characters up to the first that does not belong. -/
def takeWhile (belongs : Char → Bool) : Reader (List Char) :=
  fun cs => some (cs.takeWhile belongs, cs.dropWhile belongs)

/-- Passes over spaces and tabs. -/
def spaces : Reader Unit :=
  fun cs => some ((), cs.dropWhile isSpace)

/-- The rest after spaces, line ends and comments. -/
def afterGap (inComment : Bool) : List Char → Option (List Char)
  | [] => some []
  | '\n' :: cs => afterGap false cs
  | '\r' :: '\n' :: cs => afterGap false cs
  | c :: cs =>
    if inComment then if isPlain c then afterGap true cs else none
    else if isSpace c then afterGap false cs
    else if c == '#' then afterGap true cs
    else some (c :: cs)

/-- Passes over spaces, line ends and comments. -/
def gap : Reader Unit :=
  fun cs => (afterGap false cs).map ((), ·)

/-- The rest of the text after the end of a line. -/
def afterLine (inComment : Bool) : List Char → Option (List Char)
  | [] => some []
  | '\n' :: cs => some cs
  | '\r' :: '\n' :: cs => some cs
  | c :: cs =>
    if inComment then if isPlain c then afterLine true cs else none
    else if isSpace c then afterLine false cs
    else if c == '#' then afterLine true cs
    else none

/-- Passes over what may follow a statement up to the end of its line. -/
def lineEnd : Reader Unit :=
  fun cs => (afterLine false cs).map ((), ·)

end Reader

end Adventure.Toml
