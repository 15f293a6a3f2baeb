import CloudRunSsh.Proxy.Config
import CloudRunSsh.Proxy.Registry

/-!
# The web framework

What the server uses of `gin`: the request context with its response writer, and
router groups that collect handlers.  The writer fixes the status line and the
headers at the first write and ignores later changes.  A chain stops when a handler
aborts the context, or when it panics and the panic is recovered.  Header names are
in lower case on both sides.
-/

namespace CloudRunSsh.Proxy

open CloudRunSsh.Concurrency

/-- JSON documents.  A `time.Time` is kept as the instant its text stands for. -/
inductive Json where
  | null
  | bool (value : Bool)
  | num (value : Int)
  | str (value : String)
  | time (value : Time)
  | arr (values : List Json)
  | obj (fields : List (String × Json))

/-- `json.Marshal` of a registration, by its field tags. -/
def ServerlessInstance.toJson (config : ServerlessInstance) : Json :=
  .obj [("project", .str config.project), ("region", .str config.region),
    ("service", .str config.service), ("revision", .str config.revision),
    ("instance", .str config.id), ("tunnel", .str config.tunnel),
    ("ping", .time config.lastPing)]

/-- The document determines the registration. -/
theorem ServerlessInstance.toJson_injective :
    Function.Injective ServerlessInstance.toJson := by
  rintro ⟨⟩ ⟨⟩ equal
  simpa [toJson] using equal

/-- One write to the response body. -/
inductive Chunk where
  | text (content : String)
  | json (document : Json)

inductive Method where
  | get
  | post
  | delete
  deriving DecidableEq, Repr

/-- A request that the router matched: `fullPath` is the pattern of the route and
`params` the decoded path parameters. -/
structure Request where
  method : Method
  fullPath : String
  params : List (String × String)
  headers : List (String × String)

namespace Request

/-- The value of a path parameter, empty when the route has no such parameter. -/
def param (request : Request) (name : String) : String :=
  (request.params.lookup name).getD ""

/-- The value of a header, empty when it is absent. -/
def header (request : Request) (name : String) : String :=
  (request.headers.lookup name).getD ""

end Request

/-- `gin.ResponseWriter`.  `sent` holds the status and the headers once they are on
the wire. -/
structure Writer where
  status : Nat := 200
  header : Dict String String := ∅
  sent : Option (Nat × Dict String String) := none
  body : List Chunk := []

namespace Writer

/-- `Writer.Written`. -/
def written (writer : Writer) : Bool := writer.sent.isSome

/-- `Writer.WriteHeader`. -/
def writeHeader (writer : Writer) (code : Nat) : Writer :=
  if code > 0 && writer.status != code && !writer.written then
    { writer with status := code }
  else writer

/-- `Writer.WriteHeaderNow`. -/
def writeHeaderNow (writer : Writer) : Writer :=
  if writer.written then writer
  else { writer with sent := some (writer.status, writer.header) }

/-- `Writer.Write`. -/
def write (writer : Writer) (chunk : Chunk) : Writer :=
  let writer := writer.writeHeaderNow
  { writer with body := writer.body ++ [chunk] }

/-- `Header().Set`, or `Del` for an empty value, as `Context.Header` does. -/
def setHeader (writer : Writer) (key value : String) : Writer :=
  { writer with
    header := if value == "" then writer.header.erase key
      else writer.header.insert key value }

/-- The status line the client receives. -/
def delivered (writer : Writer) : Nat :=
  match writer.sent with
  | some (status, _) => status
  | none => writer.status

end Writer

/-- `gin.Context`.  `keys` holds the values stored with `Set`. -/
structure Context where
  request : Request
  writer : Writer := {}
  keys : List (String × ProxyConfig) := []
  aborted : Bool := false
  errors : List String := []

namespace Context

/-- `Context.Param`. -/
def param (context : Context) (name : String) : String := context.request.param name

/-- `Context.GetHeader`. -/
def getHeader (context : Context) (name : String) : String :=
  context.request.header name

/-- `Context.Set`. -/
def set (context : Context) (key : String) (value : ProxyConfig) : Context :=
  { context with keys := (key, value) :: context.keys }

/-- `Context.Get`. -/
def get (context : Context) (key : String) : Option ProxyConfig :=
  context.keys.lookup key

/-- `Context.Status`. -/
def status (context : Context) (code : Nat) : Context :=
  { context with writer := context.writer.writeHeader code }

/-- `Context.Header`. -/
def header (context : Context) (key value : String) : Context :=
  { context with writer := context.writer.setHeader key value }

/-- `Writer.WriteHeaderNow` on the context's writer. -/
def writeHeaderNow (context : Context) : Context :=
  { context with writer := context.writer.writeHeaderNow }

/-- A write to the response body. -/
def write (context : Context) (chunk : Chunk) : Context :=
  { context with writer := context.writer.write chunk }

/-- `fmt.Fprintln(c.Writer, ...)`: the operands separated by blanks, then a
newline. -/
def fprintln (context : Context) (operands : List String) : Context :=
  context.write (.text (" ".intercalate operands ++ "\n"))

/-- `Context.JSON`: the content type is only set when no handler chose one. -/
def json (context : Context) (code : Nat) (document : Json) : Context :=
  let context := context.status code
  let context := match context.writer.header.lookup "content-type" with
    | some _ => context
    | none => context.header "content-type" "application/json; charset=utf-8"
  context.write (.json document)

/-- `Context.Abort`. -/
def abort (context : Context) : Context := { context with aborted := true }

/-- `Context.AbortWithStatus`. -/
def abortWithStatus (context : Context) (code : Nat) : Context :=
  (context.status code).writeHeaderNow.abort

/-- `Context.AbortWithError`. -/
def abortWithError (context : Context) (code : Nat) (message : String) : Context :=
  let context := context.abortWithStatus code
  { context with errors := context.errors ++ [message] }

@[simp] theorem sent_header (context : Context) (key value : String) :
    (context.header key value).writer.sent = context.writer.sent := rfl

@[simp] theorem status_header (context : Context) (key value : String) :
    (context.header key value).writer.status = context.writer.status := rfl

@[simp] theorem body_header (context : Context) (key value : String) :
    (context.header key value).writer.body = context.writer.body := rfl

@[simp] theorem body_write (context : Context) (chunk : Chunk) :
    (context.write chunk).writer.body = context.writer.body ++ [chunk] := by
  simp only [write, Writer.write, Writer.writeHeaderNow]
  split <;> rfl

@[simp] theorem body_writeHeaderNow (context : Context) :
    context.writeHeaderNow.writer.body = context.writer.body := by
  simp only [writeHeaderNow, Writer.writeHeaderNow]
  split <;> rfl

@[simp] theorem sent_status (context : Context) (code : Nat) :
    (context.status code).writer.sent = context.writer.sent := by
  simp only [status, Writer.writeHeader]
  split <;> rfl

@[simp] theorem body_status (context : Context) (code : Nat) :
    (context.status code).writer.body = context.writer.body := by
  simp only [status, Writer.writeHeader]
  split <;> rfl

/-- A status can be chosen until something was sent. -/
theorem status_status {context : Context} (unsent : context.writer.sent = none)
    {code : Nat} (positive : 0 < code) : (context.status code).writer.status = code := by
  simp only [status, Writer.writeHeader, Writer.written, unsent]
  by_cases same : context.writer.status = code
  · simp [same]
  · simp [same, positive]

theorem delivered_of_unsent {context : Context} (unsent : context.writer.sent = none) :
    context.writer.delivered = context.writer.status := by
  rw [Writer.delivered, unsent]

@[simp] theorem delivered_header (context : Context) (key value : String) :
    (context.header key value).writer.delivered = context.writer.delivered := rfl

/-- The first write sends the status that was chosen. -/
@[simp] theorem delivered_write (context : Context) (chunk : Chunk) :
    (context.write chunk).writer.delivered = context.writer.delivered := by
  cases sent : context.writer.sent with
  | none =>
      simp [write, Writer.write, Writer.writeHeaderNow, Writer.delivered, Writer.written,
        sent]
  | some headers =>
      simp [write, Writer.write, Writer.writeHeaderNow, Writer.delivered, Writer.written,
        sent]

@[simp] theorem delivered_writeHeaderNow (context : Context) :
    context.writeHeaderNow.writer.delivered = context.writer.delivered := by
  cases sent : context.writer.sent with
  | none => simp [writeHeaderNow, Writer.writeHeaderNow, Writer.delivered, Writer.written, sent]
  | some headers =>
      simp [writeHeaderNow, Writer.writeHeaderNow, Writer.delivered, Writer.written, sent]

/-- An aborted request is answered with the status of the error. -/
theorem delivered_abortWithError {context : Context} (unsent : context.writer.sent = none)
    {code : Nat} (positive : 0 < code) (message : String) :
    (context.abortWithError code message).writer.delivered = code := by
  have chosen : (context.status code).writer.delivered = code := by
    rw [delivered_of_unsent ((sent_status context code).trans unsent),
      status_status unsent positive]
  exact (delivered_writeHeaderNow (context.status code)).trans chosen

end Context

/-- `gin.HandlerFunc`. -/
abbrev HandlerFunc := Context → RegistryM Context

/-- `Context.Next`: run the remaining handlers unless one aborts.  A panic ends the
chain, since the recovery middleware is outside of it. -/
def runHandlers : List HandlerFunc → HandlerFunc
  | [], context => return context
  | handler :: rest, context => do
      let context ← handler context
      if context.aborted then return context else runHandlers rest context

/-- A registered route. -/
structure Route where
  method : Method
  fullPath : String
  handlers : List HandlerFunc

/-- `gin.RouterGroup`: a path prefix and the middleware attached so far. -/
structure RouterGroup where
  basePath : String := ""
  handlers : List HandlerFunc := []

namespace RouterGroup

/-- `Group`: the handlers are copied when the group is made. -/
def group (parent : RouterGroup) (relativePath : String) : RouterGroup :=
  { basePath := parent.basePath ++ relativePath, handlers := parent.handlers }

/-- `Use`. -/
def use (group : RouterGroup) (middleware : HandlerFunc) : RouterGroup :=
  { group with handlers := group.handlers ++ [middleware] }

/-- `GET`, `POST` and `DELETE`. -/
def handle (group : RouterGroup) (method : Method) (relativePath : String)
    (handlers : List HandlerFunc) : Route :=
  { method, fullPath := group.basePath ++ relativePath
    handlers := group.handlers ++ handlers }

end RouterGroup

/-- A router: the middleware of the engine and its routes. -/
structure Engine where
  middleware : List HandlerFunc
  routes : List Route

/-- `Engine.ServeHTTP`: run the chain of the matched route.  Without a match only the
engine's middleware runs, on a context whose status is 404. -/
def Engine.serve (engine : Engine) (request : Request) : RegistryM Context :=
  match engine.routes.find? fun route =>
      route.method == request.method && route.fullPath == request.fullPath with
  | some route => runHandlers route.handlers { request }
  | none => runHandlers engine.middleware { request, writer := { status := 404 } }

end CloudRunSsh.Proxy
