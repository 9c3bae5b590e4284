import Adventure.Toml.Reader

/-!
# Quoted strings

Four forms: between single quotes a string stands as it is, between double quotes a backslash starts
an escape, and three quotes of either kind let a string run over several lines. All readers here
start after the opening quotes and are structural in the text: an escape is a mode of the reader,
not a look ahead.

The part of `toml::from_str` that reads strings.
-/

namespace Adventure.Toml

/-- The digit of base sixteen or less that a character stands for. -/
def digitValue? (c : Char) : Option Nat :=
  if '0' ≤ c ∧ c ≤ '9' then some (c.toNat - '0'.toNat)
  else if 'a' ≤ c ∧ c ≤ 'f' then some (c.toNat - 'a'.toNat + 10)
  else if 'A' ≤ c ∧ c ≤ 'F' then some (c.toNat - 'A'.toNat + 10)
  else none

/-- The character with this code point, if there is one. -/
def charOfCode? (code : Nat) : Option Char :=
  if code.isValidChar then some (Char.ofNat code) else none

/-- What a reader of double-quoted text is about to read. -/
inductive QuotedMode
  | plain
  /-- The character after a backslash. -/
  | escape
  /-- So many more digits of a code point that so far reads as `code`. -/
  | code (digits code : Nat)
  /-- Spaces up to the line end that a backslash stands before. -/
  | lineEnd
  /-- The spaces and line ends that such a line end takes with it. -/
  | gap
deriving Repr, DecidableEq

/-- The character that a one-letter escape stands for. -/
def escapeChar? : Char → Option Char
  | 'b' => some '\x08'
  | 't' => some '\t'
  | 'n' => some '\n'
  | 'f' => some '\x0c'
  | 'r' => some '\r'
  | 'e' => some '\x1b'
  | '"' => some '"'
  | '\\' => some '\\'
  | _ => none

/-- The number of digits of a code point that an escape introduces. -/
def codeDigits? : Char → Option Nat
  | 'x' => some 2
  | 'u' => some 4
  | 'U' => some 8
  | _ => none

/-- Puts characters in front of those read after them. -/
def prepend (cs : List Char) (read : Option (List Char × List Char)) :
    Option (List Char × List Char) :=
  read.map fun r => (cs ++ r.1, r.2)

/-- Reads double-quoted text of one line up to its closing quote. -/
def readBasic : QuotedMode → List Char → Option (List Char × List Char)
  | _, [] => none
  | .escape, c :: cs =>
    match escapeChar? c, codeDigits? c with
    | some d, _ => prepend [d] (readBasic .plain cs)
    | none, some n => readBasic (.code n 0) cs
    | none, none => none
  | .code n code, c :: cs =>
    match digitValue? c with
    | none => none
    | some d =>
      if n ≤ 1 then
        match charOfCode? (16 * code + d) with
        | some e => prepend [e] (readBasic .plain cs)
        | none => none
      else readBasic (.code (n - 1) (16 * code + d)) cs
  | _, c :: cs =>
    if c == '"' then some ([], cs)
    else if c == '\\' then readBasic .escape cs
    else if isPlain c then prepend [c] (readBasic .plain cs)
    else none

/-- Reads single-quoted text of one line up to its closing quote. -/
def readLiteral : List Char → Option (List Char × List Char)
  | [] => none
  | c :: cs =>
    if c == '\'' then some ([], cs)
    else if isPlain c then prepend [c] (readLiteral cs)
    else none

/-- Reads text between three single quotes up to the closing ones. Of five quotes the first two
belong to the text, of four the first. -/
def readLiteralLines : List Char → Option (List Char × List Char)
  | '\'' :: '\'' :: '\'' :: '\'' :: '\'' :: cs => some (['\'', '\''], cs)
  | '\'' :: '\'' :: '\'' :: '\'' :: cs => some (['\''], cs)
  | '\'' :: '\'' :: '\'' :: cs => some ([], cs)
  | '\r' :: '\n' :: cs => prepend ['\r', '\n'] (readLiteralLines cs)
  | c :: cs => if c == '\n' || isPlain c then prepend [c] (readLiteralLines cs) else none
  | [] => none

/-- Reads text between three double quotes up to the closing ones. Of five quotes the first two
belong to the text, of four the first. -/
def readBasicLines : QuotedMode → List Char → Option (List Char × List Char)
  | _, [] => none
  | .escape, '\r' :: '\n' :: cs => readBasicLines .gap cs
  | .escape, c :: cs =>
    if c == '\n' then readBasicLines .gap cs
    else if isSpace c then readBasicLines .lineEnd cs
    else
      match escapeChar? c, codeDigits? c with
      | some d, _ => prepend [d] (readBasicLines .plain cs)
      | none, some n => readBasicLines (.code n 0) cs
      | none, none => none
  | .code n code, c :: cs =>
    match digitValue? c with
    | none => none
    | some d =>
      if n ≤ 1 then
        match charOfCode? (16 * code + d) with
        | some e => prepend [e] (readBasicLines .plain cs)
        | none => none
      else readBasicLines (.code (n - 1) (16 * code + d)) cs
  | .lineEnd, '\r' :: '\n' :: cs => readBasicLines .gap cs
  | .lineEnd, c :: cs =>
    if c == '\n' then readBasicLines .gap cs
    else if isSpace c then readBasicLines .lineEnd cs
    else none
  | .gap, '\r' :: '\n' :: cs => readBasicLines .gap cs
  | .plain, '\r' :: '\n' :: cs => prepend ['\r', '\n'] (readBasicLines .plain cs)
  | _, '"' :: '"' :: '"' :: '"' :: '"' :: cs => some (['"', '"'], cs)
  | _, '"' :: '"' :: '"' :: '"' :: cs => some (['"'], cs)
  | _, '"' :: '"' :: '"' :: cs => some ([], cs)
  | mode, c :: cs =>
    if mode == .gap && (c == '\n' || isSpace c) then readBasicLines .gap cs
    else if c == '\\' then readBasicLines .escape cs
    else if c == '\n' || isPlain c then prepend [c] (readBasicLines .plain cs)
    else none

/-- The rest without a line end at its very start. -/
def withoutLineEnd : List Char → List Char
  | '\n' :: cs => cs
  | '\r' :: '\n' :: cs => cs
  | cs => cs

/-- Reads a quoted string of one line, opening quote included. -/
def quotedLine : Reader String
  | '"' :: cs => (readBasic .plain cs).map fun r => (String.ofList r.1, r.2)
  | '\'' :: cs => (readLiteral cs).map fun r => (String.ofList r.1, r.2)
  | _ => none

/-- Reads a quoted string of any form, opening quotes included. -/
def quoted : Reader String
  | '"' :: '"' :: '"' :: cs =>
    (readBasicLines .plain (withoutLineEnd cs)).map fun r => (String.ofList r.1, r.2)
  | '\'' :: '\'' :: '\'' :: cs =>
    (readLiteralLines (withoutLineEnd cs)).map fun r => (String.ofList r.1, r.2)
  | cs => quotedLine cs

end Adventure.Toml
