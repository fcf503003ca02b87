/-
# RosInterface.Text.Escape -- string literals and their escapes

A quoted literal runs to its first quote that no backslash guards (`untilQuote`).
Inside it a backslash begins an escape: one to three octal digits, `x`, `u` or
`U` with two, four or eight hexadecimal digits, or one of the C letters and the
quotes.  Any other pair stays as it is written, and so does a backslash at the
very end.

An escape may name a number that is no code point.  That is no ordinary mistake
in a literal; `EscapeFault` keeps the two ranges apart that are told apart
elsewhere.
-/
import RosInterface.Text.Quoted

set_option autoImplicit false

namespace RosInterface

/-- A number in an escape that names no code point. -/
inductive EscapeFault where
  /-- Above the last code point, and within a signed word of 32 bits. -/
  | beyondCodePoints
  /-- Too large for a signed word of 32 bits. -/
  | beyondWord
  deriving DecidableEq

namespace Text

open CodePoint (backslash)

/-- The body of a literal whose opening quote has been read, and what follows its
closing quote.  A backslash guards the code point after it. -/
def untilQuote (quote : CodePoint) : Text → Option (Text × Text)
  | [] => none
  | c :: rest =>
      if c = quote then some ([], rest)
      else if c = backslash then
        match rest with
        | [] => none
        | d :: more => (untilQuote quote more).map fun (body, after) => (c :: d :: body, after)
      else (untilQuote quote rest).map fun (body, after) => (c :: body, after)

/-- The code points that the C letters and the quotes stand for after a
backslash. -/
def letterEscapes : List (CodePoint × CodePoint) :=
  [('\'', '\''), ('"', '"'), ('\\', '\\'), ('a', '\x07'), ('b', '\x08'), ('f', '\x0C'),
   ('n', '\n'), ('r', '\r'), ('t', '\t'), ('v', '\x0B')]

/-- The number of hexadecimal digits that an escape letter asks for. -/
def hexEscapeWidth? (c : CodePoint) : Option Nat :=
  if c = 'x' then some 2
  else if c = 'u' then some 4
  else if c = 'U' then some 8
  else none

/-- The code point that a number in an escape names. -/
def codePointOf (n : Nat) : Except EscapeFault CodePoint :=
  match CodePoint.ofNat? n with
  | some c => .ok c
  | none => .error (if n < 0x80000000 then .beyondCodePoints else .beyondWord)

/-- The octal digits at the beginning, three at most. -/
def octalRun (s : Text) : Text := (s.take 3).takeWhile (·.isDigitOf 8)

/-- What the escape after a backslash denotes, and how much of the text it
takes.  `none` at the end of the text, where there is no escape. -/
def escape? : Text → Option (Except EscapeFault Text × Nat)
  | [] => none
  | c :: rest =>
      let octal := octalRun (c :: rest)
      if octal ≠ [] then
        some ((codePointOf (value 8 octal)).map ([·]), octal.length)
      else
        match hexEscapeWidth? c with
        | some width =>
            let digits := rest.take width
            if digits.length = width ∧ digits.all (·.isDigitOf 16) then
              some ((codePointOf (value 16 digits)).map ([·]), width + 1)
            else some (.ok [backslash, c], 1)
        | none =>
            match letterEscapes.lookup c with
            | some image => some (.ok [image], 1)
            | none => some (.ok [backslash, c], 1)

/-- Decode a text of which the first `skipped` code points belong to an escape
that has been read. -/
def unescapeFrom : Nat → Text → Except EscapeFault Text
  | _, [] => .ok []
  | skipped + 1, _ :: rest => unescapeFrom skipped rest
  | 0, c :: rest =>
      if c = backslash then
        match escape? rest with
        | none => .ok [c]
        | some (.error fault, _) => .error fault
        | some (.ok piece, taken) => (unescapeFrom taken rest).map (piece ++ ·)
      else (unescapeFrom 0 rest).map (c :: ·)

/-- Decode the escapes of a literal's body, first to last. -/
def unescape (s : Text) : Except EscapeFault Text := unescapeFrom 0 s

end Text

end RosInterface
