import Scaffold.Contract.Regrouping

/-!
# What an implementation file declares

The package name, the backing types and the methods on them, as far as one file
shows them.  Methods belong to the receiver type before them, without the stars
of a pointer.
-/

namespace Scaffold

open Go (Event Label SourceFault SourceFile)

/-- The package, the backing types and the methods of each receiver type, in the
order in which they come. -/
structure FileFacts where
  package? : Option Text := none
  typeNames : List Text := []
  methods : List (Text × List Text) := []
  receiver? : Option Text := none
  notices : List Notice := []
  deriving Repr, DecidableEq

/-- The list with an item at the end, unless it is there already. -/
def withItem (item : Text) (items : List Text) : List Text :=
  if item ∈ items then items else items ++ [item]

/-- Adds items to those under a key, which comes last if it is new. -/
def withItemsUnder (key : Text) (added : List Text) :
    List (Text × List Text) → List (Text × List Text)
  | [] => [(key, added.foldl (fun items item => withItem item items) [])]
  | entry :: rest =>
    if entry.1 = key then
      (key, added.foldl (fun items item => withItem item items) entry.2) :: rest
    else entry :: withItemsUnder key added rest

def itemsUnder (key : Text) (entries : List (Text × List Text)) : List Text :=
  ((entries.find? fun entry => entry.1 == key).map Prod.snd).getD []

namespace FileFacts

/-- The receiver type without the stars of a pointer. -/
def receiverName (text : Text) : Text :=
  Text.trim (text.dropWhile (· == '*'))

/-- Takes in a capture.  A method without a receiver before it is left out. -/
def step (facts : FileFacts) (event : Event) : FileFacts :=
  match event.label with
  | .package => { facts with package? := some event.text }
  | .typeName => { facts with typeNames := withItem event.text facts.typeNames }
  | .receiver => { facts with receiver? := some (receiverName event.text) }
  | .method =>
    match facts.receiver? with
    | none | some [] => facts
    | some receiver => { facts with methods := withItemsUnder receiver [event.text] facts.methods }
  | _ => { facts with notices := facts.notices ++ [unhandledCapture event] }

/-- What a stream of captures shows. -/
def ofEvents (events : List Event) : FileFacts :=
  events.foldl step {}

/-- What a file that has been read declares. -/
def ofFile (file : SourceFile) : FileFacts :=
  ofEvents (file.implementationCaptures.map Go.Capture.toEvent)

def ofSource (source : Bytes) : Except SourceFault FileFacts :=
  (SourceFile.ofBytes source).map ofFile

end FileFacts

end Scaffold
