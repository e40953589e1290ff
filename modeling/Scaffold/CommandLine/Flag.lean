import Scaffold.Text.Basic

/-!
# The flags of the command line

A flag has a long name, which may be shortened as long as it is told from all
others, and perhaps a letter.  Some flags stand alone, the others take a value.
-/

namespace Scaffold

namespace CommandLine

/-- The flags. -/
inductive Flag where
  | help
  | version
  | root
  | api
  | implementation
  | formatter
  | config
  | dryRun
  | verbose
  | noDecoration
  deriving Repr, DecidableEq

namespace Flag

def all : List Flag :=
  [help, version, root, api, implementation, formatter, config, dryRun, verbose, noDecoration]

def longName : Flag → Text
  | help => "--help"
  | version => "--version"
  | root => "--root"
  | api => "--api"
  | implementation => "--impl"
  | formatter => "--formatter"
  | config => "--config"
  | dryRun => "--dry-run"
  | verbose => "--verbose"
  | noDecoration => "--no-rich"

def letters : List (Char × Flag) :=
  [('h', help), ('c', config), ('v', verbose)]

def takesValue : Flag → Bool
  | root | api | implementation | formatter | config => true
  | help | version | dryRun | verbose | noDecoration => false

/-- The flag asks for information instead of a run. -/
def asksForInformation : Flag → Bool
  | help | version => true
  | _ => false

def ofLetter? (letter : Char) : Option Flag :=
  (letters.find? fun entry => entry.1 == letter).map Prod.snd

/-- The flags whose long names begin with a text. -/
def beginningWith (beginning : Text) : List Flag :=
  all.filter fun flag => Text.startsWith beginning flag.longName

end Flag

end CommandLine

end Scaffold
