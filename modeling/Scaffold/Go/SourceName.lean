import Scaffold.Text.Basic

/-!
# Names of source files

Source files are told from others, and from tests, by their names.
-/

namespace Scaffold

namespace Go

/-- What the names of source files end in. -/
def sourceSuffix : Text := ".go"

/-- What the names of test files end in. -/
def testSuffix : Text := "_test.go"

/-- The name of a source file that is not a test. -/
def isSourceName (name : Text) : Bool :=
  Text.endsWith sourceSuffix name && !Text.endsWith testSuffix name

end Go

end Scaffold
