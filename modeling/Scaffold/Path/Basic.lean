import Scaffold.Text.Basic

/-!
# Slash-separated paths

Paths are texts whose components are separated by slashes.  Everything here is
lexical: no file system is consulted.
-/

namespace Scaffold

namespace Path

/-- The component that names the directory itself. -/
def here : Text := "."

/-- The component that names the parent directory. -/
def up : Text := ".."

def isAbsolute (path : Text) : Bool :=
  path.head? == some '/'

/-- One path inside another; an absolute path starts afresh. -/
def join (base path : Text) : Text :=
  if isAbsolute path || base.isEmpty then path
  else if base.getLast? == some '/' then base ++ path
  else base ++ '/' :: path

/-- A path followed by several others. -/
def joinAll (base : Text) (paths : List Text) : Text :=
  paths.foldl join base

def baseName (path : Text) : Text :=
  (path.reverse.takeWhile (· ≠ '/')).reverse

/-- The components between slashes that are neither empty nor a dot. -/
def components (path : Text) : List Text :=
  (Text.splitOn '/' path).filter fun component => !component.isEmpty && component != here

/-- Adds a component to a reversed list of components that are already resolved:
a step up takes the last one away, unless it is itself a step up that could not
be resolved.  Above the root a step up stays at the root. -/
def resolveStep (absolute : Bool) (resolved : List Text) (component : Text) : List Text :=
  if component = up then
    match resolved with
    | [] => if absolute then [] else [up]
    | last :: rest => if last = up then up :: resolved else rest
  else component :: resolved

/-- The components with every step up taken back as far as possible. -/
def resolveSteps (absolute : Bool) (parts : List Text) : List Text :=
  (parts.foldl (resolveStep absolute) []).reverse

/-- The slashes that a path keeps at its beginning: two if there are exactly
two, else one. -/
def rootSlashes : Text → Text
  | '/' :: '/' :: '/' :: _ => "/"
  | '/' :: '/' :: _ => "//"
  | '/' :: _ => "/"
  | _ => ""

/-- The shortest path with the same lexical meaning; a dot for an empty one. -/
def normalize (path : Text) : Text :=
  let resolved :=
    rootSlashes path ++ Text.join "/" (resolveSteps (isAbsolute path) (components path))
  if resolved.isEmpty then here else resolved

/-- The normalised path seen from a current directory. -/
def absolute (current path : Text) : Text :=
  normalize (join current path)

/-- Drops what two lists begin with in common. -/
def dropCommon : List Text → List Text → List Text × List Text
  | left :: lefts, right :: rights =>
    if left = right then dropCommon lefts rights else (left :: lefts, right :: rights)
  | lefts, rights => (lefts, rights)

/-- The path that leads from one directory to another, both seen from a current
directory. -/
def relative (current path start : Text) : Text :=
  let (steps, remaining) :=
    dropCommon (components (absolute current start)) (components (absolute current path))
  match steps.map (fun _ => up) ++ remaining with
  | [] => here
  | parts => Text.join "/" parts

/-- The path as it is kept for file access: without empty components and dots,
and with two leading slashes only if there were exactly two. -/
def tidy (path : Text) : Text :=
  let kept := rootSlashes path ++ Text.join "/" (components path)
  if kept.isEmpty then here else kept

/-- A tidied path inside a tidied directory. -/
def within (base path : Text) : Text :=
  tidy (join base path)

/-- A path goes on where another one ends: it begins with the same slashes and
with all components of the other.  Steps up are not resolved. -/
def isBelow (base path : Text) : Bool :=
  rootSlashes base == rootSlashes path && (components base).isPrefixOf (components path)

/-- The tidied path without its last component. -/
def parent (path : Text) : Text :=
  match (components path).reverse with
  | [] => tidy path
  | _ :: rest =>
    let kept := rootSlashes path ++ Text.join "/" rest.reverse
    if kept.isEmpty then here else kept

/-- The absolute path of a location, with every step up resolved. -/
def resolve (current path : Text) : Text :=
  '/' :: Text.join "/" (resolveSteps true (components (join current path)))

end Path

end Scaffold
