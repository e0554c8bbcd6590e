import JsonPath.Function.Catalogue
import JsonPath.Query.Builder
import JsonPath.Value.Reader

/-! Sessions: a document together with the functions registered so far, to ask several
queries of.
-/

namespace JsonPath

/-- A query as a text or as built segment by segment. -/
inductive Request where
  | text (t : Text)
  | built (query : Query)

/-- Why a request for matches fails. -/
inductive RequestError where
  | document (error : MalformedJson)
  | registration (error : RegistrationError)
  | query (error : QueryError)
  | build (error : BuildError)
  | evaluation (error : EvaluationError)

namespace RequestError

/-- The kind of error, as it is reported. -/
def label : RequestError → Text
  | document _ => MalformedJson.label
  | registration _ => RegistrationError.label
  | query error => error.label
  | build error => error.label
  | evaluation error => error.label

/-- The cause in words. -/
def message : RequestError → Text
  | document error => error.message
  | registration error => error.message
  | query error => error.message
  | build error => error.message
  | evaluation error => error.message

end RequestError

namespace Request

/-- The query that is requested. -/
def query : Request → Except RequestError Query
  | text t => (Query.parse t).mapError .query
  | built query => (Query.complete query).mapError .build

/-- The request as it is shown in messages. -/
def shown : Request → Text
  | text t => t
  | built query => Query.text query

end Request

/-- A document and what has been registered so far. -/
structure Session where
  document : Value
  offers : Catalogue Candidate

namespace Session

/-- A session on a document with no functions registered. -/
def ofDocument (document : Value) : Session :=
  ⟨document, []⟩

/-- A session on the document that a text spells. -/
def ofText (t : Text) : Except MalformedJson Session :=
  ofDocument <$> Document.decode t

/-- Registers a function, in the place of one that was registered under the name before. -/
def register (name : Text) (candidate : Candidate) (session : Session)
    : Except RegistrationError Session := do
  let _ ← candidate.validate name
  return { session with offers := session.offers.enter name candidate }

/-- The document with its functions. Everything that was registered is checked again. -/
def context (session : Session) : Except RegistrationError Context :=
  Context.load session.document session.offers

/-- The nodes that match a request. -/
def findNodes (session : Session) (request : Request) : Except RequestError (List Node) := do
  let context ← session.context.mapError .registration
  let query ← request.query
  (context.find query).mapError .evaluation

/-- The values that match a request. -/
def find (session : Session) (request : Request) : Except RequestError (List Value) := do
  return (← session.findNodes request).map (·.value)

/-- The first value that matches a request. -/
def findOne (session : Session) (request : Request) : Except RequestError Value := do
  match ← session.find request with
  | value :: _ => return value
  | [] =>
    .error (.evaluation (.noMatch ("Query `" ++ request.shown ++ "` does not match anything.")))

/-- The values that match a request, as the text of an array. -/
def findText (session : Session) (request : Request) (indent : Option Int)
    : Except RequestError Text := do
  return Document.encode (.array (← session.find request)) indent

/-- One use of a session. -/
inductive Use where
  | register (name : Text) (candidate : Candidate)
  | find (request : Request)
  | findOne (request : Request)
  | findNodes (request : Request)
  | findText (request : Request) (indent : Option Int)

/-- What a use of a session gives. -/
inductive Answer where
  | registered (name : Text)
  | values (values : List Value)
  | value (value : Value)
  | nodes (nodes : List Node)
  | text (t : Text)

/-- The session after a use of it, and what the use gives. -/
def step (session : Session) : Use → Session × Except RequestError Answer
  | .register name candidate =>
    match session.register name candidate with
    | .ok session => (session, .ok (.registered name))
    | .error error => (session, .error (.registration error))
  | .find request => (session, .values <$> session.find request)
  | .findOne request => (session, .value <$> session.findOne request)
  | .findNodes request => (session, .nodes <$> session.findNodes request)
  | .findText request indent => (session, .text <$> session.findText request indent)

end Session

/-- A document as it is given: by a text or by bytes that spell it, or by its value. -/
inductive Source where
  | text (t : Text)
  | bytes (encoded : List UInt8)
  | value (document : Value)

namespace Source

/-- The document itself. -/
def document : Source → Except MalformedJson Value
  | text t => Document.decode t
  | bytes encoded => Document.decodeBytes encoded
  | value document => .ok document

/-- The nodes that match a request in the document, with no functions registered. -/
def findNodes (source : Source) (request : Request) : Except RequestError (List Node) := do
  let document ← source.document.mapError .document
  (Session.ofDocument document).findNodes request

end Source

/-- Whether a filter expression holds of a value, in a document and with no functions
registered.
-/
def Expression.evaluate (e : Expression) (current root : Value) : Except EvaluationError Bool :=
  e.holds (.of root []) current

end JsonPath
