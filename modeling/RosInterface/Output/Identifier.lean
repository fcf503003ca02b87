/-
# RosInterface.Output.Identifier -- names in generated modules

Two spellings of a name are needed beside the name itself.  `snakeCase` is the
stem of a definition's own module: an underscore goes between two words, and the
whole is lower case.  A word begins at a capital after a small letter or a digit,
and at the last capital of a run of them when a small letter follows, so
`HTTPServer` is two words.  `attributeName` is the name of a field: a reserved
word of the generated language gets an underscore.
-/
import RosInterface.Text.LetterCase

set_option autoImplicit false

namespace RosInterface.Text

/-- Whether a word begins after `c`, seen from what follows. -/
def breaksAfter (c : CodePoint) : Text → Bool
  | [] => false
  | d :: rest =>
      d.isUpper && (c.isLower || c.isDigit || (c.isUpper && rest.head?.any (·.isLower)))

/-- The name with an underscore between its words. -/
def separateWords : Text → Text
  | [] => []
  | c :: rest =>
      if breaksAfter c rest then c :: '_' :: separateWords rest else c :: separateWords rest

def snakeCase (name : Text) : Text := name.separateWords.lower

/-- The words that are no names in generated code. -/
def reservedWords : List Text :=
  List.map Text.ofString
    ["False", "None", "True", "and", "as", "assert", "async", "await", "break", "class",
     "continue", "def", "del", "elif", "else", "except", "finally", "for", "from", "global", "if",
     "import", "in", "is", "lambda", "nonlocal", "not", "or", "pass", "raise", "return", "try",
     "while", "with", "yield"]

def attributeName (name : Text) : Text :=
  if reservedWords.contains name then name ++ "_" else name

end RosInterface.Text
