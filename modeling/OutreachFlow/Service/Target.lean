import OutreachFlow.Text.Percent
import OutreachFlow.Text.Pieces

/-! The target of a request: a path of segments, and parameters behind a question mark. A host in
front of the path is passed over. Dots as segments are resolved before anything is decoded, and
slashes are looked for afterwards, so an encoded slash divides a path like a plain one. A path
is decoded twice, parameters once. -/
namespace OutreachFlow.Service

structure Target where
  path : List String
  parameters : List (String × String)
deriving DecidableEq, Repr

namespace Target

/-- Resolves dots, given the segments so far, last first: one dot stays, two go back, but never
past the root. -/
def resolveDots (before : List (List Char)) : List (List Char) → List (List Char)
  | [] => before.reverse
  | ['.'] :: rest => resolveDots before rest
  | ['.', '.'] :: rest => resolveDots (if before.length ≤ 1 then before else before.drop 1) rest
  | segment :: rest => resolveDots (segment :: before) rest

/-- A path from the root, without a host in front of it. -/
def rooted (path : List Char) : List Char :=
  let path := match path with
    | '/' :: '/' :: rest => rest.dropWhile (· ≠ '/')
    | path => path
  '/' :: path.dropWhile (· = '/')

/-- Decodes a path. What the first decoding leaves is decoded again, so an encoded percent sign
can begin the code of a further byte. -/
def decodePath (path : List Char) : String :=
  Text.percentDecode (Text.percentDecode path).toList

/-- The decoded path, divided at slashes; the first segment is empty. -/
def segments (path : List Char) : List String :=
  let plain := List.intercalate ['/'] (resolveDots [] (Text.pieces '/' (rooted path)))
  (Text.pieces '/' (decodePath plain).toList).map String.ofList

def decodeParameter (text : List Char) : String :=
  Text.percentDecode (text.map fun c => if c = '+' then ' ' else c)

/-- The parameters in order; one without a value has the empty value. -/
def parametersOf (query : List Char) : List (String × String) :=
  ((Text.pieces '&' query).filter fun piece => !piece.isEmpty).map fun piece =>
    let (name, value) := Text.cut '=' piece
    (decodeParameter name, decodeParameter value)

/-- Reads a target; a fragment plays no part. -/
def ofText (text : String) : Target :=
  let (path, query) := Text.cut '?' (Text.cut '#' text.toList).1
  ⟨segments path, parametersOf query⟩

/-- The last value of a parameter. -/
def parameter? (target : Target) (name : String) : Option String :=
  (target.parameters.reverse.find? fun parameter => parameter.1 = name).map Prod.snd

/-- A path without the empty segments at its end. -/
def trimmed (path : List String) : List String := (path.reverse.dropWhile (· = "")).reverse

end Target

end OutreachFlow.Service
