import Mathlib.Data.List.Basic

/-!
# Authentication of the SSH client

`_auth` tries a public key, then a password, and asks for a second factor where the server
wants one.  The transport answers each call with the methods that are still required, with
no method once authentication is complete, or with an exception.
-/

namespace CloudRunSsh.WebSSH

/-- `paramiko.SSHException`.  Only a bad authentication type has `allowed_types`. -/
structure SSHException where
  message : String
  allowedTypes : Option (List String)
  deriving DecidableEq, Repr

/-- What the transport answers to one call. -/
inductive Answer where
  | returned (types : List String)
  | raised (exception : SSHException)
  deriving DecidableEq, Repr

/-- The transport.  `_auth` calls each method at most once, so an answer for each method and
its arguments is any behaviour of it. -/
structure Transport (Key : Type) where
  authPublickey : String → Key → Answer
  authPassword : String → String → Answer
  authInteractive : String → Answer

/-- How `_auth` ends. -/
inductive Outcome where
  | returned
  | sshException (exception : SSHException)
  | valueError (message : String)
  | assertionError
  deriving DecidableEq, Repr

/-- The answers of the transport in the order of the calls, and how `_auth` ends. -/
structure AuthResult where
  answers : List Answer
  outcome : Outcome
  deriving DecidableEq, Repr

/-- A result with another answer before. -/
def AuthResult.after (result : AuthResult) (answer : Answer) : AuthResult :=
  { result with answers := answer :: result.answers }

/-- `allowed_types & two_factor_types`. -/
def twoFactor (allowedTypes : List String) : List String :=
  allowedTypes.filter fun method => method ∈ ["keyboard-interactive", "password"]

section Client

variable {Key : Type} (transport : Transport Key) (totp username : String)

/-- `SSHClient.auth_interactive`. -/
def authInteractive : AuthResult :=
  if totp = "" then
    ⟨[], .valueError "Need a verification code for 2fa."⟩
  else
    -- the methods that are still required are not read
    match transport.authInteractive username with
    | .returned types => ⟨[.returned types], .returned⟩
    | .raised exception => ⟨[.raised exception], .sshException exception⟩

/-- `assert saved_exception is not None` and `raise saved_exception`. -/
def raiseSaved : Option SSHException → AuthResult
  | none => ⟨[], .assertionError⟩
  | some exception => ⟨[], .sshException exception⟩

/-- `SSHClient._auth` from the password on. -/
def tryPassword (password : Option String) (savedException : Option SSHException) : AuthResult :=
  match password with
  | none => raiseSaved savedException
  | some secret =>
      match transport.authPassword username secret with
      -- the methods that are still required are not read
      | .returned types => ⟨[.returned types], .returned⟩
      | .raised exception =>
          (if twoFactor (exception.allowedTypes.getD []) ≠ [] then
            authInteractive transport totp username
          else raiseSaved (some exception)).after (.raised exception)

/-- `SSHClient._auth`. -/
def auth (password : Option String) (pkey : Option Key) : AuthResult :=
  match pkey with
  | none => tryPassword transport totp username password none
  | some key =>
      match transport.authPublickey username key with
      | .returned types =>
          (if twoFactor types = [] then ⟨[], .returned⟩
          else authInteractive transport totp username).after (.returned types)
      | .raised exception =>
          (tryPassword transport totp username password (some exception)).after
            (.raised exception)

end Client

/-- `_auth` returns exactly if no method is required after the last call, and the assertion
does not fail. -/
def AuthResult.Completes (result : AuthResult) : Prop :=
  (result.outcome = .returned ↔ result.answers.getLast? = some (.returned [])) ∧
    result.outcome ≠ .assertionError

instance : DecidablePred AuthResult.Completes := fun _ =>
  inferInstanceAs (Decidable ((_ ↔ _) ∧ _))

/-- Authentication is complete if the call returns. -/
def Answer.Whole (answer : Answer) : Prop := ∀ types, answer = .returned types → types = []

section Completeness

variable {Key : Type} (transport : Transport Key) (totp username : String)

/-- The second factor completes authentication, if there is a code for it. -/
def SecondWhole : Prop := totp ≠ "" → (transport.authInteractive username).Whole

/-- The password completes authentication, or the second factor that the server asks for
after it. -/
def PasswordWhole (secret : String) : Prop :=
  (transport.authPassword username secret).Whole ∧
    ∀ exception, transport.authPassword username secret = .raised exception →
      twoFactor (exception.allowedTypes.getD []) ≠ [] → SecondWhole transport totp username

/-- The key completes authentication, or the server asks for a second factor that does. -/
def KeyWhole (key : Key) : Prop :=
  ∀ types, transport.authPublickey username key = .returned types →
    (twoFactor types = [] → types = []) ∧
      (twoFactor types ≠ [] → SecondWhole transport totp username)

/-- Neither the key nor, where it is tried, the password is taken for complete with methods
still required. -/
def Whole (password : Option String) (pkey : Option Key) : Prop :=
  (∀ key, pkey = some key → KeyWhole transport totp username key) ∧
    ∀ secret, password = some secret →
      (∀ key, pkey = some key → ∃ exception,
        transport.authPublickey username key = .raised exception) →
      PasswordWhole transport totp username secret

theorem Answer.whole_raised (exception : SSHException) : (Answer.raised exception).Whole :=
  fun _ same => nomatch same

theorem Answer.whole_returned {types : List String} :
    (Answer.returned types).Whole ↔ types = [] := by
  constructor
  · exact fun whole => whole types rfl
  · rintro empty others same
    cases same
    exact empty

theorem completes_after {result : AuthResult} (called : result.answers ≠ []) (answer : Answer) :
    (result.after answer).Completes ↔ result.Completes := by
  obtain ⟨first, rest, same⟩ := List.exists_cons_of_ne_nil called
  rw [AuthResult.Completes, AuthResult.Completes, AuthResult.after, same, List.getLast?_cons_cons]

/-- A call that returns completes authentication if no method is required after it. -/
theorem completes_returned (types : List String) :
    (⟨[.returned types], .returned⟩ : AuthResult).Completes ↔ (Answer.returned types).Whole := by
  simp [AuthResult.Completes, Answer.whole_returned]

theorem completes_raised (exception : SSHException) :
    (⟨[.raised exception], .sshException exception⟩ : AuthResult).Completes := by
  simp [AuthResult.Completes]

/-- The second factor after an answer that does not complete authentication. -/
theorem completes_authInteractive {answer : Answer} (unfinished : answer ≠ .returned []) :
    ((authInteractive transport totp username).after answer).Completes ↔
      SecondWhole transport totp username := by
  by_cases blank : totp = ""
  · rw [authInteractive, if_pos blank]
    simp [AuthResult.Completes, AuthResult.after, SecondWhole, blank, unfinished]
  · rw [authInteractive, if_neg blank, SecondWhole]
    cases answered : transport.authInteractive username with
    | returned types =>
        rw [completes_after (List.cons_ne_nil _ _), completes_returned]
        exact (imp_iff_right blank).symm
    | raised exception =>
        rw [completes_after (List.cons_ne_nil _ _)]
        exact iff_of_true (completes_raised exception) fun _ => Answer.whole_raised exception

theorem answers_tryPassword (secret : String) (savedException : Option SSHException) :
    (tryPassword transport totp username (some secret) savedException).answers ≠ [] := by
  rw [tryPassword]
  split
  · exact List.cons_ne_nil _ _
  · exact List.cons_ne_nil _ _

theorem completes_tryPassword (secret : String) (savedException : Option SSHException) :
    (tryPassword transport totp username (some secret) savedException).Completes ↔
      PasswordWhole transport totp username secret := by
  rw [tryPassword, PasswordWhole]
  cases answered : transport.authPassword username secret with
  | returned types =>
      rw [completes_returned]
      exact (and_iff_left fun exception same => nomatch same).symm
  | raised exception =>
      rw [and_iff_right (Answer.whole_raised exception)]
      dsimp only
      by_cases asked : twoFactor (exception.allowedTypes.getD []) ≠ []
      · rw [if_pos asked, completes_authInteractive _ _ _ Answer.noConfusion]
        constructor
        · rintro whole _ ⟨⟩ _
          exact whole
        · exact fun whole => whole exception rfl asked
      · rw [if_neg asked]
        refine iff_of_true (completes_raised exception) ?_
        rintro _ ⟨⟩ asks
        exact absurd asks asked

/-- A key that is taken or asks for a second factor. -/
theorem completes_authPublickey (types : List String) :
    ((if twoFactor types = [] then ⟨[], .returned⟩
      else authInteractive transport totp username).after (.returned types)).Completes ↔
      (twoFactor types = [] → types = []) ∧
        (twoFactor types ≠ [] → SecondWhole transport totp username) := by
  by_cases plain : twoFactor types = []
  · rw [if_pos plain]
    exact (completes_returned types).trans (by simp [Answer.whole_returned, plain])
  · have unfinished : Answer.returned types ≠ .returned [] := by
      rintro ⟨⟩
      exact plain rfl
    rw [if_neg plain, completes_authInteractive _ _ _ unfinished]
    simp [plain]

/-- Without a key the password decides. -/
theorem whole_password (secret : String) :
    Whole transport totp username (some secret) none ↔
      PasswordWhole transport totp username secret := by
  constructor
  · exact fun whole => whole.2 secret rfl fun key same => nomatch same
  · intro whole
    refine ⟨fun key same => (nomatch same), ?_⟩
    rintro _ ⟨⟩ _
    exact whole

section Key

variable {transport username} {key : Key} (password : Option String)

/-- After a key that the server takes the password is not tried. -/
theorem whole_of_returned {types : List String}
    (answered : transport.authPublickey username key = .returned types) :
    Whole transport totp username password (some key) ↔
      (twoFactor types = [] → types = []) ∧
        (twoFactor types ≠ [] → SecondWhole transport totp username) := by
  constructor
  · exact fun whole => whole.1 key rfl types answered
  · intro whole
    constructor
    · rintro _ ⟨⟩ others same
      cases answered.symm.trans same
      exact whole
    · intro secret _ tried
      obtain ⟨exception, same⟩ := tried key rfl
      cases answered.symm.trans same

/-- After a key that the server refuses the password decides, if there is one. -/
theorem whole_of_raised {exception : SSHException}
    (answered : transport.authPublickey username key = .raised exception) :
    Whole transport totp username password (some key) ↔
      ∀ secret, password = some secret → PasswordWhole transport totp username secret := by
  constructor
  · intro whole secret given
    apply whole.2 secret given
    rintro _ ⟨⟩
    exact ⟨exception, answered⟩
  · intro whole
    constructor
    · rintro _ ⟨⟩ types same
      cases answered.symm.trans same
    · exact fun secret given _ => whole secret given

end Key

/-- `_auth` returns exactly if its last call returned no method, and its assertion does not
fail, if and only if it takes no call for complete that returned methods. -/
theorem auth_completes_iff (password : Option String) (pkey : Option Key)
    (given : ¬(password = none ∧ pkey = none)) :
    (auth transport totp username password pkey).Completes ↔
      Whole transport totp username password pkey := by
  cases pkey with
  | none =>
      cases password with
      | none => exact absurd ⟨rfl, rfl⟩ given
      | some secret => rw [auth, completes_tryPassword, whole_password]
  | some key =>
      rw [auth]
      cases answered : transport.authPublickey username key with
      | returned types =>
          rw [whole_of_returned totp password answered]
          exact completes_authPublickey transport totp username types
      | raised exception =>
          rw [whole_of_raised totp password answered]
          dsimp only
          cases password with
          | none =>
              refine iff_of_true (completes_raised exception) ?_
              exact fun secret same => nomatch same
          | some secret =>
              rw [completes_after (answers_tryPassword _ _ _ secret _), completes_tryPassword]
              simp only [Option.some.injEq, forall_eq']

end Completeness

/-- A transport that asks for no method but `method` after a password. -/
def partialTransport (method : String) : Transport String where
  authPublickey _ _ := .returned []
  authPassword _ _ := .returned [method]
  authInteractive _ := .returned []

theorem auth_completes_iff_key :
    (auth (partialTransport "publickey") "" "root" none (some "key")).Completes ↔
      Whole (partialTransport "publickey") "" "root" none (some "key") :=
  auth_completes_iff _ _ _ _ _ (by decide)

/-- A password that is only the first of two methods is taken for complete. -/
theorem auth_completes_fails :
    ¬∀ (transport : Transport String) totp username password pkey,
      ¬(password = none ∧ pkey = none) →
        (auth transport totp username password pkey).Completes := by
  intro always
  have whole := always (partialTransport "publickey") "" "root" (some "secret") none (by decide)
  exact absurd whole (by decide)

end CloudRunSsh.WebSSH
