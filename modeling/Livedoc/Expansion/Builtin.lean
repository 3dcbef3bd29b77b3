import Livedoc.Text.Lines

/-!
# Built-in functions

The functions that every document can call, and how they are described to someone
who writes one. The descriptions are for people; what a function does is defined
where calls are expanded.
-/

namespace Livedoc

open Livedoc.Text

/-- A built-in function. -/
inductive Builtin where
  | row | column | grid | center
  | add | multiply | pow | truncate
  | conditional | repetition | variable
  | upper | lower
  | documentName | documentAuthor | documentLanguage | documentType | theme
  | inclusion | definition
deriving DecidableEq, Repr

/-- How a function is described. -/
structure Signature where
  /-- The arguments in order. -/
  parameters : List String := []
  /-- The named arguments, each with what it means. -/
  named : List (String × String) := []
  description : String
  /-- Calls that show how it is used. -/
  examples : List String := []

namespace Builtin

/-- The name under which a document calls a function. -/
def name : Builtin → String
  | row => "row"
  | column => "column"
  | grid => "grid"
  | center => "center"
  | add => "add"
  | multiply => "multiply"
  | pow => "pow"
  | truncate => "truncate"
  | conditional => "if"
  | repetition => "repeat"
  | «variable» => "var"
  | upper => "upper"
  | lower => "lower"
  | documentName => "docname"
  | documentAuthor => "docauthor"
  | documentLanguage => "doclang"
  | documentType => "doctype"
  | theme => "theme"
  | inclusion => "include"
  | definition => "function"

/-- All built-in functions, in the order of their names. -/
def all : List Builtin :=
  [add, center, column, documentAuthor, documentLanguage, documentName, documentType, definition,
   grid, conditional, inclusion, lower, multiply, pow, repetition, row, theme, truncate, upper,
   «variable»]

/-- The function of a name. -/
def ofName? (name : String) : Option Builtin := all.find? (·.name == name)

/-- How a built-in function is described. -/
def signature : Builtin → Signature
  | row =>
    { named := [("alignment", "start, center, end, spacebetween or spacearound"), ("gap", "CSS length")]
      description := "Lays out the body horizontally."
      examples := [".row alignment:\x7bcenter\x7d gap:\x7b1rem\x7d"] }
  | column =>
    { named := [("cross", "cross-axis alignment: start, center, end or stretch"), ("gap", "CSS length")]
      description := "Lays out the body vertically."
      examples := [".column cross:\x7bcenter\x7d"] }
  | grid =>
    { named := [("columns", "number of columns"), ("gap", "CSS length")]
      description := "Lays out the body in a grid."
      examples := [".grid columns:\x7b3\x7d gap:\x7b1rem\x7d"] }
  | center => { description := "Centers the body.", examples := [".center"] }
  | add =>
    { parameters := ["value"], named := [("to", "number to add")]
      description := "Adds two numbers."
      examples := [".add \x7b5\x7d to:\x7b3\x7d"] }
  | multiply =>
    { parameters := ["value"], named := [("by", "multiplier, default 1")]
      description := "Multiplies two numbers."
      examples := [".multiply \x7b6\x7d by:\x7b3\x7d"] }
  | pow =>
    { parameters := ["base"], named := [("to", "exponent, default 1")]
      description := "Raises a number to a power."
      examples := [".pow \x7b2\x7d to:\x7b3\x7d"] }
  | truncate =>
    { parameters := ["decimals"]
      description := "Formats the numeric body to a number of decimal places."
      examples := [".truncate \x7b2\x7d 3.14159"] }
  | conditional =>
    { parameters := ["condition"]
      description := "Includes the body when the condition is truthy."
      examples := [".if \x7b.show\x7d"] }
  | repetition =>
    { parameters := ["count"]
      description := "Repeats the body; ._index holds the 0-based iteration."
      examples := [".repeat \x7b3\x7d"] }
  | «variable» =>
    { parameters := ["name", "value"]
      description := "Defines a variable in the current scope."
      examples := [".var \x7bname\x7d \x7bvalue\x7d"] }
  | upper =>
    { description := "Converts the body text to uppercase.", examples := [".upper \x7b\x7d hello"] }
  | lower =>
    { description := "Converts the body text to lowercase.", examples := [".lower \x7b\x7d HELLO"] }
  | documentName => { parameters := ["title"], description := "Sets the document title." }
  | documentAuthor => { parameters := ["author"], description := "Sets the document author." }
  | documentLanguage => { parameters := ["language"], description := "Sets the document language." }
  | documentType =>
    { parameters := ["type"]
      description := "Sets the document type: slides, paged or plain."
      examples := [".doctype \x7bslides\x7d"] }
  | theme =>
    { parameters := ["name"], named := [("layout", "layout variant: standard, wide or narrow")]
      description := "Sets the document theme."
      examples := [".theme \x7bdarko\x7d layout:\x7bwide\x7d"] }
  | inclusion =>
    { parameters := ["path"], named := [("isolated", "expand in a separate environment")]
      description := "Includes another dotdown file."
      examples := [".include \x7bchapter1.dd\x7d"] }
  | definition =>
    { parameters := ["name"]
      description := "Defines a function; the first body line lists its parameters."
      examples := [".function \x7bgreet\x7d"] }

/-- The name with the parameters in parentheses. -/
def shape (b : Builtin) : String :=
  let s := b.signature
  b.name ++ "(" ++ intercalate ", " (s.parameters ++ s.named.map fun n => n.1 ++ ":") ++ ")"

/-- The lines that describe a function. -/
def help (b : Builtin) : String :=
  "." ++ b.shape ++ "\n    " ++ b.signature.description ++ "\n" ++
    String.join (b.signature.examples.map fun e => "    e.g. " ++ e ++ "\n")

/-- The description of all built-in functions. -/
def helpAll : String := String.join (all.map help)

end Builtin

end Livedoc
