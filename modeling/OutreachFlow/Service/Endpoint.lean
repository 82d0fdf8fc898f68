import OutreachFlow.Service.Target

/-! What the service offers, and where. The words for operations on graphs may also be ids of
saved flows: which of the two is meant depends on the method. Nothing is offered on a path with
a slash at its end, but the sender is told where to go instead. -/
namespace OutreachFlow.Service

inductive Endpoint where
  | palette
  | compile
  | decompile
  | validate
  | checkConnection
  | checkEntry
  | listFlows
  | createFlow
  | getFlow (id : String)
  | changeFlow (id : String)
  | deleteFlow (id : String)
deriving DecidableEq, Repr

inductive Destination where
  | endpoint (endpoint : Endpoint)
  | wrongMethod
  | elsewhere
  | unknown
deriving DecidableEq, Repr

def flowEndpoint? (method id : String) : Option Endpoint :=
  if id = "" then none
  else match method with
    | "GET" => some (.getFlow id)
    | "PUT" => some (.changeFlow id)
    | "DELETE" => some (.deleteFlow id)
    | _ => none

def fixedEndpoint? : String → List String → Option Endpoint
  | "GET", ["nodes"] => some .palette
  | "POST", ["connections", "check"] => some .checkConnection
  | "POST", ["entry", "check"] => some .checkEntry
  | "GET", ["flows"] => some .listFlows
  | "POST", ["flows"] => some .createFlow
  | "POST", ["flows", "compile"] => some .compile
  | "POST", ["flows", "decompile"] => some .decompile
  | "POST", ["flows", "validate"] => some .validate
  | _, _ => none

/-- A path without a line feed at its end. -/
def withoutLineFeed (path : List String) : List String :=
  match path.getLast?.map fun segment => segment.toList.reverse with
  | some ('\n' :: rest) => path.dropLast ++ [String.ofList rest.reverse]
  | _ => path

/-- The endpoint of a method on a path below the root of the service. A line feed at the end
belongs to the id of a flow, but does no harm to a fixed path. -/
def endpointBelow? (method : String) (path : List String) : Option Endpoint :=
  (fixedEndpoint? method (withoutLineFeed path)).or <|
    match path with
    | ["flows", id] => flowEndpoint? method id
    | _ => none

def endpoint? (method : String) : List String → Option Endpoint
  | "" :: "api" :: path => endpointBelow? method path
  | _ => none

def isKnown (path : List String) : Bool :=
  ["GET", "POST", "PUT", "DELETE"].any fun method => (endpoint? method path).isSome

def destination (method : String) (path : List String) : Destination :=
  match endpoint? method path with
  | some endpoint => .endpoint endpoint
  | none =>
    if isKnown path then .wrongMethod
    else if isKnown (Target.trimmed path) then .elsewhere
    else .unknown

end OutreachFlow.Service
