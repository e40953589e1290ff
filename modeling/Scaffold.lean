import Scaffold.Main
import Scaffold.Proofs.Contract.CommentedLists
import Scaffold.Proofs.Contract.Insertions
import Scaffold.Proofs.Contract.Streams
import Scaffold.Proofs.Implementation.DeclaredNames
import Scaffold.Proofs.Implementation.NormalLists
import Scaffold.Proofs.Implementation.StubBody
import Scaffold.Proofs.Implementation.Survey
import Scaffold.Proofs.Implementation.WrittenLists
import Scaffold.Proofs.Merge.Preservation
import Scaffold.Proofs.Merge.Qualifiers
import Scaffold.Proofs.Module.LocalName
import Scaffold.Proofs.Module.Lookup
import Scaffold.Proofs.Module.Manifest
import Scaffold.Proofs.Project.Crawl
import Scaffold.Proofs.Project.Failure
import Scaffold.Proofs.Project.RegistryText
import Scaffold.Proofs.Project.Truth
import Scaffold.Proofs.Project.Uniqueness
import Scaffold.Proofs.Registry.Directives
import Scaffold.Proofs.Settings.Escapes
import Scaffold.Proofs.Settings.Precedence
