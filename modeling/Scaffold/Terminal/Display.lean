import Scaffold.Project.Report
import Scaffold.Terminal.Markup
import Scaffold.Terminal.Table

/-!
# What is shown on a terminal

Messages, the header of a run and the report of a run, either plain or decorated.
Decorated messages may hold markup, and so may the cells of tables in either
look.
-/

namespace Scaffold

namespace Terminal

/-- How messages look. -/
inductive Look where
  | plain
  | decorated
  deriving Repr, DecidableEq

/-- What is shown, unless its markup is wrong. -/
abbrev Shown := Except MarkupFault Text

def printed (text : Text) : Text :=
  Text.ofLines (wrap width true (printable text))

/-- A message with a sign before it. -/
def signed (sign : Text) (message : Text) : Shown :=
  (Markup.render message).map fun shown => printed (sign ++ [' '] ++ shown)

def success (look : Look) (message : Text) : Shown :=
  match look with
  | .plain => .ok (printed ("OK " ++ message))
  | .decorated => signed ['✓'] message

/-- A message about a failure, which is shown as it stands. -/
def failure (look : Look) (message : Text) : Shown :=
  match look with
  | .plain => .ok (printed ("ERROR " ++ message))
  | .decorated => signed ['✗'] (Markup.escape message)

def remark (look : Look) (message : Text) : Shown :=
  match look with
  | .plain => .ok (printed message)
  | .decorated => signed ['ℹ'] message

/-- The columns that the sides of a box take. -/
def sides : Nat := 2

/-- A box around a text, as wide as the terminal. -/
def box (text : Text) : Text :=
  let inside := width - sides
  let line (content : Text) : Text := ['│'] ++ pad inside content ++ ['│']
  let content := (wrap (inside - 4) true text).map fun part => line ([' ', ' '] ++ part)
  Text.ofLines
    ([['╭'] ++ Text.times inside '─' ++ ['╮'], line []] ++ content ++
      [line [], ['╰'] ++ Text.times inside '─' ++ ['╯']])

def markedTitle (title : Text) : Text :=
  "[bold blue]" ++ title ++ "[/bold blue]"

/-- A line below a title with markup. -/
def markedSubtitle (subtitle : Text) : Text :=
  "\n[dim]" ++ subtitle ++ "[/dim]"

/-- The header of a run; an empty subtitle is left out. -/
def header (look : Look) (title subtitle : Text) : Shown :=
  match look with
  | .plain =>
    .ok (printed ("=== " ++ title ++ " ===") ++ if subtitle.isEmpty then [] else printed subtitle)
  | .decorated =>
    (Markup.render
      (markedTitle title ++ if subtitle.isEmpty then [] else markedSubtitle subtitle)).map box

/-- The headings of the columns of a report. -/
def headings : List Text :=
  ["File", "Status", "New types", "New methods"]

def row (outcome : Outcome) : Except MarkupFault (List Text) :=
  match Markup.render outcome.path, Markup.render outcome.status.name with
  | .ok path, .ok status =>
    .ok [path, status, Text.ofNat outcome.newTypes, Text.ofNat outcome.newMethods]
  | .error fault, _ | _, .error fault => .error fault

/-- The table of the outcomes in a report. -/
def table (report : Report) : Except MarkupFault Table :=
  (report.changed.mapM row).map fun rows =>
    { title := if report.isDryRun then "Planned changes" else "Generated files"
      header := headings
      rows := rows }

def totals (report : Report) : Text :=
  let verb : Text := if report.isDryRun then "would be written" else "written"
  Text.ofNat report.changed.length ++ " file(s) " ++ verb ++ (": " : Text) ++
    Text.ofNat report.newTypes ++ " new type(s), " ++ Text.ofNat report.newMethods ++
    " new method(s) across " ++ Text.ofNat report.packages ++ " package(s)"

def report (look : Look) (report : Report) : Shown :=
  if report.changed.isEmpty then success look "Everything is up to date"
  else
    match table report with
    | .error fault => .error fault
    | .ok shown =>
      (success look (totals report)).map fun message => Text.ofLines shown.lines ++ message

end Terminal

end Scaffold
