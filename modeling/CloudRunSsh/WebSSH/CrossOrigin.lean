import CloudRunSsh.WebSSH.AutoLogin
import CloudRunSsh.WebSSH.Origins

/-!
# Requests from other origins

`IndexHandler.post` checks one origin before it connects: the one in the form, if there is one,
and else the one in the header.
-/

namespace CloudRunSsh.WebSSH

/-- The settings of `IndexHandler`.  In debug mode every origin may connect. -/
structure IndexHandler where
  debug : Bool
  originPolicy : OriginPolicy
  maxconn : Int
  debug_any : debug = true → originPolicy = .any

/-- A request, with the headers `Host` and `Origin` if there are any, and the number of live
connections of its client. -/
structure PostRequest where
  arguments : List (List UInt8 × List UInt8)
  host : Option PyString
  origin : Option PyString
  workers : Nat

/-- Why a connection is not tried. -/
inductive PostError where
  | uncaughtException
  | tooManyLiveConnections
  | crossOrigin
  | badRequest (reason : BadRequest)
  | originError (error : OriginError)
  deriving DecidableEq, Repr

/-- The status of an error: that of the `HTTPError`, or 500. -/
def PostError.status : PostError → Nat
  | tooManyLiveConnections => 429
  | crossOrigin => 403
  | badRequest _ => 400
  | uncaughtException | originError _ => 500

/-- What a request leads to: the header `Access-Control-Allow-Origin` if it is set, and the
arguments of `ssh_connect` if that is submitted. -/
structure PostOutcome (Args : Type) where
  allowOrigin : Option PyString
  result : Except PostError Args
  deriving Repr

namespace IndexHandler

variable (data : UnicodeData) (self : IndexHandler) (request : PostRequest)

/-- `get_argument` of the request, without an argument as the default. -/
def argument (name : String) : Except PostError PyString :=
  match getArgument request.arguments name (some []) with
  | .ok value => .ok (value.map Char.toNat)
  | .error reason => .error (.badRequest reason)

/-- The checks of `post` before that of the origin. -/
def checkLimits : Except PostError Unit := do
  if self.debug then
    let error ← argument request "error"
    if error ≠ [] then throw .uncaughtException
  if request.workers ≠ 0 ∧ (request.workers : Int) ≥ self.maxconn then
    throw .tooManyLiveConnections

/-- `IndexHandler.check_origin`, with what it sets `Access-Control-Allow-Origin` to. -/
def checkOrigin : Except PostError (Option PyString) := do
  let eventOrigin ← argument request "_origin"
  let origin := if eventOrigin ≠ [] then eventOrigin else request.origin.getD []
  if origin = [] then return none
  else
    match WebSSH.checkOrigin data self.originPolicy request.host origin with
    | .error error => throw (.originError error)
    | .ok false => throw .crossOrigin
    | .ok true =>
        return if eventOrigin = [] ∧ self.originPolicy ≠ .same then some origin else none

/-- `IndexHandler.post` up to where `ssh_connect` is submitted. -/
def post {Args : Type} (getArgs : PostRequest → Except PostError Args) : PostOutcome Args :=
  match self.checkLimits request with
  | .error error => ⟨none, .error error⟩
  | .ok () =>
      match self.checkOrigin data request with
      | .error error => ⟨none, .error error⟩
      | .ok allowOrigin => ⟨allowOrigin, getArgs request⟩

end IndexHandler

/-- The policy rejects an origin. -/
def IndexHandler.Rejects (data : UnicodeData) (self : IndexHandler) (host : Option PyString)
    (origin : PyString) : Prop :=
  WebSSH.checkOrigin data self.originPolicy host origin = .ok false

instance (data : UnicodeData) (self : IndexHandler) (host : Option PyString) (origin : PyString) :
    Decidable (self.Rejects data host origin) :=
  inferInstanceAs (Decidable (WebSSH.checkOrigin data self.originPolicy host origin = .ok false))

section Requests

variable {data : UnicodeData} {self : IndexHandler} {request : PostRequest}

theorem checkOrigin_any (host : Option PyString) (origin : PyString) :
    checkOrigin data .any host origin = .ok true := if_pos rfl

theorem checkLimits_of_debug (off : self.debug = false) :
    self.checkLimits request =
      if request.workers ≠ 0 ∧ (request.workers : Int) ≥ self.maxconn then
        .error .tooManyLiveConnections
      else .ok () := by
  rw [IndexHandler.checkLimits, off, if_neg Bool.false_ne_true]
  split_ifs <;> rfl

/-- A policy that rejects something is not that of the debug mode. -/
theorem debug_of_rejects {origin : PyString} (rejects : self.Rejects data request.host origin) :
    self.debug = false := by
  rw [Bool.eq_false_iff]
  intro debug
  rw [IndexHandler.Rejects, self.debug_any debug, checkOrigin_any] at rejects
  cases rejects

/-- The origin that is looked at is rejected. -/
theorem checkOrigin_of_rejects {origin event : PyString} (header : request.origin = some origin)
    (filled : origin ≠ []) (rejects : self.Rejects data request.host origin)
    (argument : IndexHandler.argument request "_origin" = .ok event)
    (rival : event = [] ∨ self.Rejects data request.host event) :
    self.checkOrigin data request = .error .crossOrigin := by
  rw [IndexHandler.checkOrigin, argument]
  change (if (if event ≠ [] then event else request.origin.getD []) = [] then _ else _) = _
  rw [header, Option.getD_some]
  by_cases given : event = []
  · rw [if_neg (not_not_intro given), if_neg filled, rejects]
    rfl
  · rw [if_pos given, if_neg given, rival.resolve_left given]
    rfl

/-- `Access-Control-Allow-Origin` names an origin that is accepted. -/
theorem checkOrigin_allowOrigin {origin : PyString}
    (allowed : self.checkOrigin data request = .ok (some origin)) :
    WebSSH.checkOrigin data self.originPolicy request.host origin = .ok true := by
  rw [IndexHandler.checkOrigin] at allowed
  cases event : IndexHandler.argument request "_origin" with
  | error error =>
      rw [event] at allowed
      cases allowed
  | ok event' =>
      rw [event] at allowed
      change (if (if event' ≠ [] then event' else request.origin.getD []) = [] then _ else _) = _
        at allowed
      generalize (if event' ≠ [] then event' else request.origin.getD []) = sent at allowed
      by_cases empty : sent = []
      · rw [if_pos empty] at allowed
        cases allowed
      · rw [if_neg empty] at allowed
        split at allowed
        · cases allowed
        · cases allowed
        · rename_i accepted
          have same := Except.ok.inj allowed
          split_ifs at same
          rwa [← Option.some.inj same]

end Requests

/-- A request whose `Origin` is rejected, and that names no other origin that is accepted, is
refused before `ssh_connect` is submitted: with 403, or with 429 if its client has too many
connections.  `Access-Control-Allow-Origin` names only origins that are accepted. -/
theorem post_of_rejects {Args : Type} (data : UnicodeData) (self : IndexHandler)
    (request : PostRequest) (getArgs : PostRequest → Except PostError Args) :
    (∀ origin event, request.origin = some origin → origin ≠ [] →
      self.Rejects data request.host origin →
      IndexHandler.argument request "_origin" = .ok event →
      (event = [] ∨ self.Rejects data request.host event) →
      (self.post data request getArgs).result = .error
        (if request.workers ≠ 0 ∧ (request.workers : Int) ≥ self.maxconn then
          .tooManyLiveConnections
        else .crossOrigin)) ∧
    ∀ origin, (self.post data request getArgs).allowOrigin = some origin →
      checkOrigin data self.originPolicy request.host origin = .ok true := by
  constructor
  · intro origin event header filled rejects argument rival
    rw [IndexHandler.post, checkLimits_of_debug (debug_of_rejects rejects)]
    split_ifs
    · rfl
    · dsimp only
      rw [checkOrigin_of_rejects header filled rejects argument rival]
  · intro origin allowed
    rw [IndexHandler.post] at allowed
    split at allowed
    · cases allowed
    · split at allowed
      · cases allowed
      · rename_i found
        exact checkOrigin_allowOrigin (found.trans (congrArg Except.ok allowed))

/-- A handler that lets a host and one origin connect. -/
def exampleHandler : IndexHandler where
  debug := false
  originPolicy := .origins [PyString.ofText "http://a"]
  maxconn := 1
  debug_any := nofun

/-- A request that comes from an origin. -/
def exampleRequest (origin : String) (workers : Nat) (eventOrigin : String) : PostRequest where
  arguments := [(Percent.bytesOf "_origin".toList, Percent.bytesOf eventOrigin.toList)]
  host := some (PyString.ofText "b")
  origin := some (PyString.ofText origin)
  workers := workers

theorem post_of_rejects_example :
    (exampleHandler.post .ascii (exampleRequest "http://c" 0 "") fun _ => Except.ok ()).result =
      .error .crossOrigin :=
  (post_of_rejects .ascii exampleHandler (exampleRequest "http://c" 0 "") fun _ =>
    Except.ok ()).1 (PyString.ofText "http://c") [] rfl (by decide) (by decide) (by decide)
      (.inl rfl)

/-- A rejected `Origin` does not always lead to 403: not with too many connections, not if the
form names an origin that is accepted, and not if the header is empty. -/
theorem post_of_rejects_fails :
    (¬∀ (data : UnicodeData) (self : IndexHandler) (request : PostRequest) (origin : PyString),
      request.origin = some origin → origin ≠ [] → self.Rejects data request.host origin →
      IndexHandler.argument request "_origin" = .ok [] →
      (self.post data request fun _ => Except.ok ()).result = .error .crossOrigin) ∧
    (¬∀ (data : UnicodeData) (self : IndexHandler) (request : PostRequest) (origin : PyString),
      request.origin = some origin → origin ≠ [] → self.Rejects data request.host origin →
      request.workers = 0 →
      (self.post data request fun _ => Except.ok ()).result = .error .crossOrigin) ∧
    ¬∀ (data : UnicodeData) (self : IndexHandler) (request : PostRequest) (origin : PyString),
      request.origin = some origin → self.Rejects data request.host origin →
      IndexHandler.argument request "_origin" = .ok [] → request.workers = 0 →
      (self.post data request fun _ => Except.ok ()).result = .error .crossOrigin := by
  refine ⟨fun always => ?_, fun always => ?_, fun always => ?_⟩
  · exact absurd (always .ascii exampleHandler (exampleRequest "http://c" 1 "")
      (PyString.ofText "http://c") rfl (by decide) (by decide) (by decide)) (by decide)
  · exact absurd (always .ascii exampleHandler (exampleRequest "http://c" 0 "http://a")
      (PyString.ofText "http://c") rfl (by decide) (by decide) rfl) (by decide)
  · exact absurd (always .ascii exampleHandler (exampleRequest "" 0 "") [] rfl (by decide)
      (by decide) rfl) (by decide)

end CloudRunSsh.WebSSH
