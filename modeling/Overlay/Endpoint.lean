import Overlay.Path

/-!
# Endpoints

An endpoint says where the device is: behind a device file, behind a network
address, or within the program itself.
-/

set_option autoImplicit false

namespace Overlay

/-- Where the device is. -/
inductive Endpoint where
  /-- A device file. -/
  | serial (path : Path)
  /-- A network address with its port. -/
  | tcp (address : String)
  /-- The built-in emulator. -/
  | emulator
  deriving DecidableEq

/-- Why a text names no endpoint. -/
inductive EndpointError where
  | incompleteAddress (text : String)
  | emptyName
  deriving DecidableEq

/-- The wording of an endpoint error. -/
def EndpointError.message : EndpointError → String
  | .incompleteAddress text => s!"TCP endpoint needs host:port, got '{text}'"
  | .emptyName => "Empty port name"

namespace Endpoint

/-- What a network address starts with. -/
def scheme : String := "tcp://"

/-- What is left of a text after a given start. -/
def rest? (text start : String) : Option String :=
  if start.toList.isPrefixOf text.toList then
    some (String.ofList (text.toList.drop start.length))
  else none

/-- The endpoint that a text names.  An address needs a colon before its port. -/
def parse (text : String) : Except EndpointError Endpoint :=
  if text = "local" then .ok .emulator
  else
    match rest? text scheme with
    | some address =>
        if address.toList.contains ':' then .ok (.tcp address)
        else .error (.incompleteAddress text)
    | none => if text.isEmpty then .error .emptyName else .ok (.serial (.ofText text))

/-- The text of an endpoint for a reader. -/
def text : Endpoint → String
  | .serial path => path.text
  | .tcp address => scheme ++ address
  | .emulator => "local emulator"

end Endpoint

end Overlay
