/-
# RosInterface.Console.Markup -- text for a console with tags

The console reads tags in square brackets, such as `[red]` and `[/red]`.  Text that
is to stand for itself is escaped: a backslash goes before every bracket that
would open a tag, and the backslashes already there are doubled so that they stay
what they are.  A bracket opens a tag when a small letter, a hash, a slash or an
at sign follows and a closing bracket comes before any further opening one.  A
single backslash at the very end is doubled too, so it cannot guard what follows.
-/
import RosInterface.Text.Quoted

set_option autoImplicit false

namespace RosInterface.Markup

open CodePoint (backslash)

def openBracket : CodePoint := '['

def closeBracket : CodePoint := ']'

/-- Whether a tag follows an opening bracket. -/
def opensTag : Text → Bool
  | [] => false
  | c :: rest =>
      (c.isLower || c = '#' || c = '/' || c = '@') &&
        rest.find? (fun d => d = openBracket || d = closeBracket) == some closeBracket

/-- The escaped text after some backslashes that are still to be written. -/
def escapeAfter (pending : Nat) : Text → Text
  | [] => List.replicate pending backslash
  | c :: rest =>
      if c = backslash then escapeAfter (pending + 1) rest
      else if c = openBracket ∧ opensTag rest then
        List.replicate (2 * pending + 1) backslash ++ c :: escapeAfter 0 rest
      else List.replicate pending backslash ++ c :: escapeAfter 0 rest

/-- The number of backslashes at the end of a text. -/
def trailingBackslashes (s : Text) : Nat := (s.reverse.takeWhile (· = backslash)).length

def escape (s : Text) : Text :=
  let escaped := escapeAfter 0 s
  if trailingBackslashes escaped = 1 then escaped ++ [backslash] else escaped

/-- Text between the tags of a style. -/
def styled (style markup : Text) : Text := "[" ++ style ++ "]" ++ markup ++ "[/" ++ style ++ "]"

end RosInterface.Markup
