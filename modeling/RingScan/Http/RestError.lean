import RingScan.Dialogue
import RingScan.Text.Template
import RingScan.Value.Comparison
import RingScan.Wire.Messages

set_option autoImplicit false

/-! # Errors of requests

What a request can end with instead of an answer: the rejections of a node, told apart by the code
in the answer, and the failures to get an answer at all. -/

namespace RingScan.Http

/-- The kinds of errors. -/
inductive RestErrorKind where
  | general
  | connectionFailed
  | timedOut
  | badRequest
  | notAuthorized
  | forbidden
  | noSuchResource (resourceType resourceName : Value)
  | serviceFailure
  | notImplemented
  | serviceUnavailable

/-- What brought an error about. -/
inductive RestErrorCause where
  | transport (f : TransportFailure)
  | fault (f : Fault)

/-- The error of a request. -/
structure RestError where
  kind : RestErrorKind
  message : String
  cause? : Option RestErrorCause := none

namespace RestError

/-- The message of an error that says nothing. -/
def defaultMessage : String := "REST API error occurred"

/-- The values of an error one after the other, where they do not go together. -/
def sideBySide (message : Value) (values : List Value) : String :=
  message.displayText ++ " " ++ " ".intercalate (values.map Value.displayText)

/-- A template filled in with values; only texts and byte strings are templates. -/
def fillIn (template : Value) (values : List Value) : Except Text.Template.Failure Value :=
  match template with
  | .str s => (Text.Template.fill s values).map .str
  | .bytes bs => (Text.Template.fillBytes bs values).map .bytes
  | _ => .error .unfit

/-- The message of an error that is made with a template and the values that go into it. If they
    do not go together, the template stands as it is, and the values behind it. -/
def composeMessage (template : Value) (values : List Value) : Except Text.Template.Failure String :=
  if !template.isTruthy then .ok defaultMessage
  else if values.isEmpty then .ok template.displayText
  else
    match fillIn template values with
    | .ok message => .ok message.displayText
    | .error .unfit => .ok (sideBySide template values)
    | .error e => .error e

/-- An error of a kind, made with a template and the values that go into it. -/
def make (kind : RestErrorKind) (template : Value) (values : List Value)
    (cause? : Option RestErrorCause := none) : Except Text.Template.Failure RestError :=
  (composeMessage template values).map fun message => ⟨kind, message, cause?⟩

/-- The text of an error with the name of its kind, and with its cause by the kind and the text of
    that. -/
def describe (kindName message : String) (cause? : Option (String × String)) : String :=
  match cause? with
  | some (causeKind, causeText) =>
      kindName ++ "('" ++ message ++ "', caused by " ++ causeKind ++ ": " ++ causeText ++ ")"
  | none => kindName ++ "('" ++ message ++ "')"

/-! ## Rejections -/

/-- The request that a rejection names if it names none. -/
def unknownRequest : String := "unknown"

/-- The header that names the request. -/
def requestIdHeader : String := "x-request-id"

/-- The kind of a rejection, by its code, and what its message starts with. -/
def ofCode (e : Wire.ErrorBody) : RestErrorKind × String :=
  let codeIs (n : Int) := (Value.int n).equals e.code
  if codeIs 400 then (.badRequest, "")
  else if codeIs 401 then (.notAuthorized, "Not authorized: ")
  else if codeIs 403 then (.forbidden, "Forbidden: ")
  else if codeIs 404 then (.noSuchResource e.resourceType e.resourceName, "")
  else if codeIs 500 then (.serviceFailure, "Server error: ")
  else if codeIs 501 then (.notImplemented, "Not implemented: ")
  else if codeIs 503 then (.serviceUnavailable, "Service unavailable: ")
  else (.general, "Unable to process: ")

/-- The error of a rejection. The request is named if it has a name. -/
def ofBody (e : Wire.ErrorBody) (requestId : Value) : RestError :=
  let (kind, start) := ofCode e
  let finish :=
    if requestId = .str unknownRequest then "" else " requestId:" ++ requestId.displayText
  ⟨kind, start ++ e.message.displayText ++ finish, none⟩

/-- A rejection that only has a message; the status is its code. -/
def plainBody (message status : Value) : Wire.ErrorBody := ⟨.null, .null, message, status⟩

/-- The rejection in the body of an answer. What is not a message is the message itself; a code
    that is missing is the status. -/
def parseBody (body status : Value) : Wire.ErrorBody :=
  if !body.isTruthy then plainBody (.str "response body is null") status
  else
    match Wire.errorResponse.readSource body with
    | .error _ => plainBody body status
    | .ok r =>
        let e := Wire.ErrorBody.ofRecord r
        if e.code.isNull then { e with code := status } else e

/-! ## Failures -/

/-- The error of a request that got no answer. -/
def ofTransport (url : String) (f : TransportFailure) : RestError :=
  let cause := some (RestErrorCause.transport f)
  match f with
  | .connectTimeout => ⟨.connectionFailed, "connect to " ++ url ++ " timed out", cause⟩
  | .readTimeout => ⟨.timedOut, "request to " ++ url ++ " timed out", cause⟩
  | .timeout => ⟨.timedOut, "request to " ++ url ++ " timed out", cause⟩
  | .connection => ⟨.connectionFailed, "failed to connect to " ++ url, cause⟩
  | .insecure => ⟨.connectionFailed, "failed to connect to " ++ url, cause⟩
  | .brokenBody => ⟨.general, "rest exception", cause⟩
  | .other _ => ⟨.general, "rest exception", cause⟩

/-- The error of an answer that is not the message that was hoped for. -/
def ofFault (f : Fault) : RestError := ⟨.general, "rest exception", some (.fault f)⟩

/-- The error of an answer that should hold a message and holds nothing. -/
def noBody : RestError := ⟨.general, "response body is null.", none⟩

end RestError

end RingScan.Http
