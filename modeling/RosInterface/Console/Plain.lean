/-
# RosInterface.Console.Plain -- reports as plain lines

A console without styles shows the text of markup: tags are left out, and of the
backslashes before a bracket every pair stands for one.  A table is its title, the
line of its headers and a line for each row, the cells of a column padded to one
width.
-/
import RosInterface.Console.Report

set_option autoImplicit false

namespace RosInterface

namespace Markup

open CodePoint (backslash)

/-- The text that markup shows, after some backslashes that are still to be
written.  Inside a tag nothing is shown. -/
def plainAfter (insideTag : Bool) (pending : Nat) : Text → Text
  | [] => List.replicate pending backslash
  | c :: rest =>
      if insideTag then plainAfter (c ≠ closeBracket) 0 rest
      else if c = backslash then plainAfter false (pending + 1) rest
      else if c = openBracket ∧ opensTag rest then
        List.replicate (pending / 2) backslash ++
          if pending % 2 = 1 then c :: plainAfter false 0 rest else plainAfter true 0 rest
      else List.replicate pending backslash ++ c :: plainAfter false 0 rest

def plain (markup : Text) : Text := plainAfter false 0 markup

end Markup

/-- A text with blanks behind it up to a width. -/
def Text.padded (width : Nat) (s : Text) : Text :=
  s ++ List.replicate (width - s.length) (CodePoint.ofChar ' ')

namespace Table

/-- The widest text of each column. -/
def widths : List (List Text) → List Nat
  | [] => []
  | row :: rest =>
      let others := widths rest
      let wider := row.mapIdx fun index cell => max cell.length (others.getD index 0)
      wider ++ others.drop row.length

def plainLines (table : Table) : List Text :=
  let rows := (table.headers :: table.rows).map fun row => row.map Markup.plain
  let line (row : List Text) : Text :=
    let cells := (row.zip (widths rows)).map fun (cell, width) => Text.padded width cell
    Text.trimEnd (Text.joined "  " cells)
  Markup.plain table.title :: rows.map line

end Table

def Shown.plainLines : Shown → List Text
  | .markup line => [Markup.plain line]
  | .table rows => rows.plainLines

/-- What is said when a request ends without a diagnostic. -/
def Abort.text : Abort → Text
  | .escape _ => "escape in a string literal names no code point"
  | .longInteger => "integer literal has too many digits"
  | .longSize => "bound or size has too many digits"
  | .notAFloat => "value is no float"
  | .noValue => "value is missing"
  | .undecodableIndex => "resource index file is not valid UTF-8"
  | .noWorkers => "number of jobs must be positive"
  | .file fault => fault.text?.getD "path or text cannot be passed to the file system"

def Failure.text : Failure → Text
  | .diagnostic d => d.text
  | .abort cause => cause.text

end RosInterface
