import Livedoc.Text.Lines

/-!
# Style sheets

A style sheet is a list of rules: a selector with declarations. Rules for a certain
medium stand together under a query. A short rule is written on one line; a tall
one has a line for every declaration.
-/

namespace Livedoc.Html.Css

open Livedoc.Text

/-- A rule of a style sheet. -/
structure Rule where
  selector : String
  declarations : List String
  /-- Whether every declaration has a line of its own. -/
  tall : Bool := false
deriving DecidableEq, Repr

/-- A statement of a style sheet. -/
inductive Statement where
  | rule (r : Rule)
  /-- Rules that hold for a medium only. -/
  | media (query : String) (rules : List Rule)
deriving DecidableEq, Repr

/-- A style sheet. -/
abbrev Sheet := List Statement

/-- A rule on one line. -/
def short (selector : String) (declarations : List String) : Statement :=
  .rule { selector, declarations }

/-- A rule with a line for every declaration. -/
def tall (selector : String) (declarations : List String) : Statement :=
  .rule { selector, declarations, tall := true }

/-- A rule as it is written, every line of it indented. -/
def Rule.print (indent : String) (r : Rule) : String :=
  let lines := r.declarations.map fun d =>
    if r.tall then indent ++ "  " ++ d ++ ";\n" else d ++ "; "
  indent ++ r.selector ++ " \x7b" ++ (if r.tall then "\n" else " ") ++ String.join lines ++
    (if r.tall then indent else "") ++ "\x7d\n"

/-- A statement as it is written. -/
def Statement.print : Statement → String
  | .rule r => r.print ""
  | .media query rules =>
    query ++ " \x7b\n" ++ String.join (rules.map (Rule.print "  ")) ++ "\x7d\n"

/-- A style sheet as it is written. -/
def Sheet.print (sheet : Sheet) : String := String.join (sheet.map Statement.print)

end Livedoc.Html.Css
