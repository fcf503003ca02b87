/-
# RosInterface.Declaration.Comment -- the end of a line that is not read

A hash begins a comment, unless it stands inside quotes.  Quotes are followed
from the beginning of the line; inside them a backslash guards the code point
after it, and outside them it means nothing.  A quote that is never closed runs
to the end of the line, hashes and all.
-/
import RosInterface.Text.Blank
import RosInterface.Text.Quoted

set_option autoImplicit false

namespace RosInterface.Text

open CodePoint (backslash)

/-- The text before its comment, where `quote` is open at the beginning. -/
def uncommented (quote : Option CodePoint) : Text → Text
  | [] => []
  | c :: rest =>
      match quote with
      | none =>
          if c = '#' then []
          else if c.isQuote then c :: uncommented (some c) rest
          else c :: uncommented none rest
      | some q =>
          if c = backslash then
            match rest with
            | [] => [c]
            | d :: more => c :: d :: uncommented quote more
          else if c = q then c :: uncommented none rest
          else c :: uncommented quote rest

/-- The line without its comment. -/
def withoutComment (line : Text) : Text := uncommented none line

/-- The line declares nothing. -/
def isSilent (line : Text) : Bool := line.withoutComment.trim.isEmpty

end RosInterface.Text
