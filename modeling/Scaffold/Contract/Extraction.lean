import Scaffold.Contract.Regrouping

/-!
# Contracts of a source file

The contracts that a file declares, with the package name and the imports of the
file.  A file without a package clause declares nothing that could be
implemented and is refused.
-/

namespace Scaffold

open Go (SourceFault SourceFile)

/-- Why no contracts can be taken from a file. -/
inductive ExtractionFault where
  | unreadable (fault : SourceFault)
  | untyped (fault : Signature.Untyped)
  | noPackage
  deriving Repr, DecidableEq

namespace ExtractionFault

/-- The fault behind the path of the file. -/
def message (path : Text) : ExtractionFault → Text
  | unreadable fault => fault.message path
  | untyped fault => SourceFault.shownPath path ++ ": " ++ fault.message
  | noPackage => SourceFault.shownPath path ++ ": no package name found"

end ExtractionFault

namespace Contract

/-- The contracts of a file that has been read. -/
def ofFile (file : SourceFile) : Except ExtractionFault (List Contract) :=
  match Regrouping.ofEvents (file.contractCaptures.map Go.Capture.toEvent) with
  | .error fault => .error (.untyped fault)
  | .ok regrouping =>
    match regrouping.package? with
    | none => .error .noPackage
    | some package =>
      .ok (regrouping.contracts.map fun contract =>
        { contract with packageName := package, imports := file.imports })

def ofSource (source : Bytes) : Except ExtractionFault (List Contract) :=
  match SourceFile.ofBytes source with
  | .error fault => .error (.unreadable fault)
  | .ok file => ofFile file

/-- The contracts placed in a file of a package. -/
def declaredIn (packagePath fileName : Text) (contracts : List Contract) : List Contract :=
  contracts.map fun contract =>
    { contract with packagePath := packagePath, fileName := fileName }

end Contract

end Scaffold
