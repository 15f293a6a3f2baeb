import CloudRunSsh.Concurrency.Panics
import CloudRunSsh.Proxy.Authorization
import CloudRunSsh.Proxy.Postcondition
import CloudRunSsh.Proxy.Responses

/-!
# Responses that tell the truth

What the delivered response to each endpoint has to say about what happened to the
registry, and when it does.  The status line is fixed by the first write, so the access
control, which writes its reason before it sets the status, is answered with 200; and a
lookup that finds an instance appends a line of text to the document.
-/

namespace CloudRunSsh.Proxy

open CloudRunSsh.Concurrency

namespace Context

variable (c : Context)

/-- The response has a status of success. -/
def Succeeds : Prop := 200 ≤ c.writer.delivered ∧ c.writer.delivered < 300

/-- The content type on the wire. -/
def contentType : Option String :=
  c.writer.sent.bind fun sent => sent.2.lookup "content-type"

/-- A lookup is answered with the stored registration as the only document, or with
404. -/
structure AnswersLookup (stored : Option ServerlessInstance) : Prop where
  found : c.writer.delivered = 200 ↔ stored ≠ none
  body : ∀ config, stored = some config →
    c.contentType = some "application/json" ∧ c.writer.body = [.json config.toJson]
  missing : stored = none → c.writer.delivered = 404

/-- A listing is answered with success if its path is known, and with 404 if not.  Paths
with an empty name are refused as malformed. -/
structure AnswersListing (malformed known : Prop) : Prop where
  refused : malformed → c.writer.delivered = 400
  succeeds : ¬malformed → known → c.Succeeds
  missing : ¬malformed → ¬known → c.writer.delivered = 404

/-- A request to change the registry is answered with success exactly when it was carried
out, and with 400 when it lacks a client id. -/
structure AnswersChange (clientID : String) (mem after : Memory) (done : Prop) :
    Prop where
  missing : clientID = "" → c.writer.delivered = 400
  succeeds : c.Succeeds → done
  fails : ¬c.Succeeds → after = mem

end Context

/-- The registration is found under its path and in the flat map. -/
def Request.Added (request : Request) (after : Memory) (config : ServerlessInstance) :
    Prop :=
  request.entryIn after = some config ∧
    after.lookup instanceToConfigMap (request.param APIPathParam.instance) = some config

/-- A registration with that tunnel was found under the path, and is in neither map
any more. -/
def Request.Removed (request : Request) (mem after : Memory) (clientID : String) : Prop :=
  (∃ config, request.entryIn mem = some config ∧ config.tunnel = clientID) ∧
    request.entryIn after = none ∧
    after.lookup instanceToConfigMap (request.param APIPathParam.instance) = none

/-- What the response of a handler has to say about the registry before and after. -/
def Endpoint.Truthful (request : Request) (mem : Memory) (c : Context) (after : Memory) :
    Endpoint → Prop
  | .getIngessRules | .getAllowedHosts => c.writer.delivered = 200
  | .getProjectIngress =>
      c.AnswersListing (request.param APIPathParam.project = "")
        (request.regionsIn mem).isSome
  | .getRegionIngress =>
      c.AnswersListing
        (request.param APIPathParam.project = "" ∨ request.param APIPathParam.region = "")
        (request.servicesIn mem).isSome
  | .getServiceIngress =>
      c.AnswersListing
        (request.param APIPathParam.project = "" ∨ request.param APIPathParam.region = "" ∨
          request.param APIPathParam.service = "")
        (request.revisionsIn mem).isSome
  | .getRevisionIngress =>
      c.AnswersListing
        (request.param APIPathParam.project = "" ∨ request.param APIPathParam.region = "" ∨
          request.param APIPathParam.service = "" ∨
          request.param APIPathParam.revision = "")
        (request.instancesIn mem).isSome
  | .getInstance => c.AnswersLookup (request.entryIn mem)
  | .getInstanceByID =>
      c.AnswersLookup
        (mem.lookup instanceToConfigMap (request.param APIPathParam.instance))
  | .addInstance =>
      c.AnswersChange (request.header xServerlessSSHClientID) mem after
        (request.Added after {
          project := request.param APIPathParam.project
          region := request.param APIPathParam.region
          service := request.param APIPathParam.service
          revision := request.param APIPathParam.revision
          id := request.param APIPathParam.instance
          tunnel := request.header xServerlessSSHClientID
          lastPing := mem.clock })
  | .removeInstance =>
      c.AnswersChange (request.header xServerlessSSHClientID) mem after
        (request.Removed mem after (request.header xServerlessSSHClientID)) ∧
      (request.header xServerlessSSHClientID ≠ "" → request.entryIn mem = none →
        c.writer.delivered = 404)

/-- A lookup that names no instance or finds one. -/
def Endpoint.Misreports (request : Request) (mem : Memory) : Endpoint → Prop
  | .getInstance =>
      request.param APIPathParam.instance = "" ∨ request.entryIn mem ≠ none
  | .getInstanceByID =>
      request.param APIPathParam.instance = "" ∨
        mem.lookup instanceToConfigMap (request.param APIPathParam.instance) ≠ none
  | .getIngessRules | .getAllowedHosts | .getProjectIngress | .getRegionIngress
  | .getServiceIngress | .getRevisionIngress | .addInstance | .removeInstance => False

section Listings

variable {mem : Memory} {c : Context}

theorem delivered_status (untouched : c.Untouched) {code : Nat} (positive : 0 < code) :
    (c.status code).writer.delivered = code := by
  rw [Context.delivered_of_unsent ((Context.sent_status c code).trans untouched.sent)]
  exact Context.status_status untouched.sent positive

theorem delivered_foldl_write {Entry : Type} (entries : List Entry)
    (chunk : Entry → Chunk) (c : Context) :
    (entries.foldl (fun c entry => c.write (chunk entry)) c).writer.delivered =
      c.writer.delivered := by
  induction entries generalizing c with
  | nil => rfl
  | cons entry entries ih => rw [List.foldl_cons, ih, Context.delivered_write]

/-- A response of lines of text is answered with 200. -/
theorem delivered_lines {Entry : Type} (untouched : c.Untouched) (entries : List Entry)
    (line : Entry → List String) :
    (entries.foldl (fun c entry => c.fprintln (line entry))
      ((c.status 200).header "content-type"
        "text/plain").writeHeaderNow).writer.delivered = 200 := by
  refine (delivered_foldl_write entries (fun entry =>
    .text (" ".intercalate (line entry) ++ "\n")) _).trans ?_
  rw [Context.delivered_writeHeaderNow, Context.delivered_header]
  exact delivered_status untouched (by decide)

/-- A listing that is sent succeeds. -/
theorem succeeds_sendIngressResponse (untouched : c.Untouched)
    (instances : List ServerlessInstance) :
    (sendIngressResponse c instances).Succeeds := by
  unfold sendIngressResponse Context.Succeeds
  split
  · rw [delivered_status untouched (by decide)]
    decide
  · rw [delivered_foldl_write instances.zipIdx fun entry =>
      Chunk.json (ingressLine entry.2 entry.1)]
    simp only [Context.delivered_writeHeaderNow, Context.delivered_header]
    rw [delivered_status untouched (by decide)]
    decide

/-- A handler that refuses malformed paths and lists the known ones. -/
theorem answersListing_of_eval {Found : Type} (untouched : c.Untouched)
    {program : RegistryM Context} {malformed : Prop} {known : Option Found}
    (refused : malformed → program = .pure (c.status 400))
    (answers : ¬malformed → ∃ instances,
      program.eval execute mem =
        known.elim (some (c.status 404), mem) fun _ =>
          (some (sendIngressResponse c instances), mem)) :
    ∃ c', program.eval execute mem = (some c', mem) ∧
      c'.AnswersListing malformed known.isSome := by
  by_cases wrong : malformed
  · rw [refused wrong]
    refine ⟨_, rfl, fun _ => delivered_status untouched (by decide), ?_, ?_⟩
    · exact fun proper => absurd wrong proper
    · exact fun proper => absurd wrong proper
  · obtain ⟨instances, evaluates⟩ := answers wrong
    rw [evaluates]
    cases known with
    | none =>
        refine ⟨_, rfl, fun malformed => absurd malformed wrong, nofun, fun _ _ => ?_⟩
        exact delivered_status untouched (by decide)
    | some value =>
        refine ⟨_, rfl, fun malformed => absurd malformed wrong, fun _ _ => ?_, ?_⟩
        · exact succeeds_sendIngressResponse untouched instances
        · exact fun _ unknown => absurd rfl unknown

/-- A listing of the registrations of the flat map that `keep` selects. -/
def listSelected (c : Context) (keep : ServerlessInstance → Bool) : RegistryM Context :=
  .op (.forEach .instances instanceToConfigMap) fun entries =>
    .pure (sendIngressResponse c ((entries.map Prod.snd).filter keep))

theorem eval_listSelected (keep : ServerlessInstance → Bool) :
    (listSelected c keep).eval execute mem =
      (some (sendIngressResponse c
        (((mem.read instanceToConfigMap).items.map Prod.snd).filter keep)), mem) := rfl

theorem getProjectIngress_answers (untouched : c.Untouched) :
    ∃ c', (getProjectIngress c).eval execute mem = (some c', mem) ∧
      Endpoint.getProjectIngress.Truthful c.request mem c' mem := by
  apply answersListing_of_eval untouched
  · intro malformed
    exact if_pos malformed
  · intro proper
    have listing : getProjectIngress c =
        fetch projectToRegionsMap (c.param APIPathParam.project) (.pure (c.status 404))
          fun _ => listSelected c fun config =>
            config.project == c.param APIPathParam.project := by
      apply (if_neg proper).trans
      exact fetch_congr rfl fun _ => rfl
    rw [listing, eval_fetch]
    simp only [eval_listSelected]
    exact ⟨_, rfl⟩

theorem getRegionIngress_answers (untouched : c.Untouched) :
    ∃ c', (getRegionIngress c).eval execute mem = (some c', mem) ∧
      Endpoint.getRegionIngress.Truthful c.request mem c' mem := by
  apply answersListing_of_eval untouched
  · intro malformed
    exact if_pos malformed
  · intro proper
    have listing : getRegionIngress c =
        fetch projectToRegionsMap (c.param APIPathParam.project) (.pure (c.status 404))
          fun regions =>
            fetch regions (c.param APIPathParam.region) (.pure (c.status 404))
              fun _ => listSelected c fun config =>
                config.project == c.param APIPathParam.project &&
                  config.region == c.param APIPathParam.region := by
      apply (if_neg proper).trans
      exact fetch_congr rfl fun regions => fetch_congr rfl fun _ => rfl
    rw [listing, Request.servicesIn, Request.regionsIn]
    simp only [eval_fetch, eval_listSelected, Context.param]
    cases mem.lookup projectToRegionsMap (c.request.param APIPathParam.project) with
    | none => exact ⟨[], rfl⟩
    | some regions => exact ⟨_, rfl⟩

theorem getServiceIngress_answers (untouched : c.Untouched) :
    ∃ c', (getServiceIngress c).eval execute mem = (some c', mem) ∧
      Endpoint.getServiceIngress.Truthful c.request mem c' mem := by
  apply answersListing_of_eval untouched
  · intro malformed
    exact if_pos malformed
  · intro proper
    have listing : getServiceIngress c =
        fetch projectToRegionsMap (c.param APIPathParam.project) (.pure (c.status 404))
          fun regions =>
            fetch regions (c.param APIPathParam.region) (.pure (c.status 404))
              fun services =>
                fetch services (c.param APIPathParam.service) (.pure (c.status 404))
                  fun _ => listSelected c fun config =>
                    config.project == c.param APIPathParam.project &&
                      config.region == c.param APIPathParam.region &&
                      config.service == c.param APIPathParam.service := by
      apply (if_neg proper).trans
      refine fetch_congr rfl fun regions => ?_
      exact fetch_congr rfl fun services => fetch_congr rfl fun _ => rfl
    rw [listing, Request.revisionsIn, Request.servicesIn, Request.regionsIn]
    simp only [eval_fetch, eval_listSelected, Context.param]
    cases mem.lookup projectToRegionsMap (c.request.param APIPathParam.project) with
    | none => exact ⟨[], rfl⟩
    | some regions =>
        dsimp only [Option.elim_some, Option.bind_eq_bind, Option.bind_some]
        cases mem.lookup regions (c.request.param APIPathParam.region) with
        | none => exact ⟨[], rfl⟩
        | some services => exact ⟨_, rfl⟩

theorem getRevisionIngress_answers (untouched : c.Untouched) :
    ∃ c', (getRevisionIngress c).eval execute mem = (some c', mem) ∧
      Endpoint.getRevisionIngress.Truthful c.request mem c' mem := by
  apply answersListing_of_eval untouched
  · intro malformed
    exact if_pos malformed
  · intro proper
    have named : c.Named := by
      simp only [not_or] at proper
      exact proper
    rw [getRevisionIngress_of_named named, eval_toBucket]
    cases c.request.instancesIn mem with
    | none => exact ⟨[], rfl⟩
    | some instances => exact ⟨_, rfl⟩

end Listings

section Lookups

variable {mem : Memory} {c : Context}

theorem delivered_json (untouched : c.Untouched) {code : Nat} (positive : 0 < code)
    (document : Json) : (c.json code document).writer.delivered = code := by
  unfold Context.json
  dsimp only
  rw [Context.delivered_write]
  split
  · exact delivered_status untouched positive
  · exact delivered_status untouched positive

/-- A lookup of a stored registration is answered with more than its document, or not
with success. -/
theorem getInstanceByID_misreports (untouched : c.Untouched)
    (named : c.param APIPathParam.instance ≠ "") :
    ∃ c', (getInstanceByID c).eval execute mem = (some c', mem) ∧
      ∀ stored, c'.AnswersLookup stored ↔
        stored = none ∧
          mem.lookup instanceToConfigMap (c.param APIPathParam.instance) = none := by
  rw [getInstanceByID_eq, if_neg named, eval_fetch]
  cases found : mem.lookup instanceToConfigMap (c.param APIPathParam.instance) with
  | none =>
      refine ⟨_, rfl, fun stored => ?_⟩
      have delivered : (c.json 404 (.obj [("instance",
          .str (c.param APIPathParam.instance))])).writer.delivered = 404 :=
        delivered_json untouched (by decide) _
      simp only [and_true]
      constructor
      · intro answers
        by_contra present
        have success := answers.found.mpr present
        rw [delivered] at success
        cases success
      · rintro rfl
        refine ⟨?_, nofun, fun _ => delivered⟩
        rw [delivered]
        simp
  | some config =>
      refine ⟨instanceFound c config, rfl, fun stored => ?_⟩
      simp only [reduceCtorEq, and_false, iff_false]
      intro answers
      have delivered : (instanceFound c config).writer.delivered = 200 :=
        ((instanceFound_returns untouched config config).mpr rfl).1
      have twice : (instanceFound c config).writer.body.length = 2 := by
        simp [instanceFound, Context.fprintln, untouched.body]
      cases stored with
      | none => exact answers.found.mp delivered rfl
      | some other =>
          rw [(answers.body other rfl).2] at twice
          cases twice

/-- A status other than those of a lookup answers none. -/
theorem not_answersLookup {stored : Option ServerlessInstance} {code : Nat}
    (delivered : c.writer.delivered = code) (other : code ≠ 404)
    (success : code = 200 → stored = none) : ¬c.AnswersLookup stored := by
  intro answers
  cases stored with
  | none => exact other (delivered.symm.trans (answers.missing rfl))
  | some config =>
      have found := answers.found.mpr nofun
      cases success (delivered.symm.trans found)

theorem getInstanceByID_truthful_iff (untouched : c.Untouched) :
    ∃ c', (getInstanceByID c).eval execute mem = (some c', mem) ∧
      (Endpoint.getInstanceByID.Truthful c.request mem c' mem ↔
        ¬Endpoint.getInstanceByID.Misreports c.request mem) := by
  by_cases named : c.param APIPathParam.instance = ""
  · rw [getInstanceByID_eq, if_pos named]
    refine ⟨_, rfl, ?_⟩
    have delivered := delivered_status untouched (show 0 < 400 by decide)
    have never : ∀ stored, ¬(c.status 400).AnswersLookup stored :=
      fun stored => not_answersLookup delivered (by decide) nofun
    simp only [Endpoint.Truthful, never, Endpoint.Misreports, false_iff, not_not]
    exact .inl named
  · obtain ⟨c', evaluates, answers⟩ := @getInstanceByID_misreports mem c untouched named
    refine ⟨c', evaluates, ?_⟩
    simp only [Endpoint.Truthful, answers, Endpoint.Misreports, not_or, not_not]
    exact ⟨fun both => ⟨named, both.1⟩, fun both => ⟨both.2, both.2⟩⟩

theorem getInstance_truthful_iff (untouched : c.Untouched) :
    ∃ c', (getInstance c).eval execute mem = (some c', mem) ∧
      (Endpoint.getInstance.Truthful c.request mem c' mem ↔
        ¬Endpoint.getInstance.Misreports c.request mem) := by
  rw [eval_getInstance]
  simp only [Endpoint.Truthful, Endpoint.Misreports, not_or, not_not]
  cases stored : c.request.entryIn mem with
  | none =>
      refine ⟨_, rfl, ?_⟩
      rw [instanceNotFound]
      split
      · rename_i named
        have delivered := delivered_json untouched (show 0 < 404 by decide)
          (.obj [("instance", .str (c.param APIPathParam.instance))])
        constructor
        · exact fun _ => ⟨named, rfl⟩
        · intro _
          refine ⟨?_, fun _ found => (by cases found), fun _ => delivered⟩
          rw [delivered]
          simp
      · rename_i unnamed
        have delivered : c.writer.delivered = 200 := by rw [untouched]; rfl
        have never : ¬c.AnswersLookup none :=
          not_answersLookup delivered (by decide) fun _ => rfl
        simp only [never, false_iff, not_and]
        exact fun named => absurd named unnamed
  | some config =>
      simp only [Option.elim_some, reduceCtorEq, and_false, iff_false]
      by_cases named : c.param APIPathParam.instance = ""
      · rw [getInstanceByID_eq, if_pos named]
        refine ⟨_, rfl, ?_⟩
        exact not_answersLookup (delivered_status untouched (show 0 < 400 by decide))
          (by decide) fun ok => by cases ok
      · obtain ⟨c', evaluates, answers⟩ :=
          @getInstanceByID_misreports mem c untouched named
        refine ⟨c', evaluates, ?_⟩
        simp [answers]

end Lookups

section Changes

variable {mem : Memory} {view : View} {c : Context}

/-- A request that lacks a client id is refused with 400. -/
theorem answersChange_missing {done : Prop} (untouched : c.Untouched)
    (config : ProxyConfig) :
    ((c.header xServerlessSSHServerID config.id).abortWithError 400
      "missing SSH_PROXY_CLIENT_ID").AnswersChange "" mem mem done := by
  have unsent : (c.header xServerlessSSHServerID config.id).writer.sent = none :=
    untouched.sent
  have delivered := Context.delivered_abortWithError unsent (show 0 < 400 by decide)
    "missing SSH_PROXY_CLIENT_ID"
  refine ⟨fun _ => delivered, fun succeeds => ?_, fun _ => rfl⟩
  rw [Context.Succeeds, delivered] at succeeds
  exact absurd succeeds (by decide)

/-- What both changes of the registry answer without a client id. -/
theorem answersChange_of_missing {job : RegistryJob} {handled : RegistryM Context}
    {proceed : Context → String → Stage} {done : Prop} (untouched : c.Untouched)
    (program : job.program = handled.bind fun c => .pure (.response c))
    (started : Stage.start job = Stage.entry c proceed)
    (missing : c.getHeader xServerlessSSHClientID = "") {c' : Context} {after : Memory}
    (evaluates : handled.eval execute mem = (some c', after)) :
    c'.AnswersChange (c.getHeader xServerlessSSHClientID) mem after done := by
  rw [missing]
  have mapped := Program.eval_map execute handled JobResult.response mem
  rw [evaluates, ← program, start_program, started, Stage.entry, if_pos missing] at mapped
  cases configured : getProxyConfig c with
  | none =>
      rw [configured] at mapped
      cases mapped
  | some config =>
      rw [configured] at mapped
      cases mapped
      exact answersChange_missing untouched config

theorem delivered_respond (untouched : c.Untouched) {code : Nat} (positive : 0 < code)
    (clientID : String) : (respond c code clientID).writer.delivered = code :=
  delivered_sendResponseWithHeaders _ _ _ _ _ _ untouched.sent positive

/-- With a client id the evaluation is that of the stage it proceeds to. -/
theorem eval_of_proceed {job : RegistryJob} {handled : RegistryM Context}
    {proceed : Context → String → Stage} {response : Context} {final : View}
    (program : job.program = handled.bind fun c => .pure (.response c))
    (started : Stage.start job = Stage.entry c proceed)
    (clientID : c.getHeader xServerlessSSHClientID ≠ "")
    (ends : EndsIn (proceed c (c.getHeader xServerlessSSHClientID)).program mem
      (· = .response response) final)
    {c' : Context} {after : Memory}
    (evaluates : handled.eval execute mem = (some c', after)) :
    c' = response ∧ Represents after final := by
  have mapped := Program.eval_map execute handled JobResult.response mem
  rw [evaluates, ← program, start_program, started, Stage.entry, if_neg clientID] at mapped
  obtain ⟨⟨result, value, rfl⟩, represents⟩ := ends
  rw [mapped] at value represents
  cases value
  exact ⟨rfl, represents⟩

/-- A registration is answered with success and is made. -/
theorem addInstance_truthful (represents : Represents mem view) (untouched : c.Untouched)
    {c' : Context} {after : Memory}
    (evaluates : (addInstance c).eval execute mem = (some c', after)) :
    Endpoint.addInstance.Truthful c.request mem c' after := by
  have started : Stage.start (.addInstance c) = Stage.entry c .readClock := rfl
  by_cases missing : c.getHeader xServerlessSSHClientID = ""
  · exact answersChange_of_missing untouched rfl started missing evaluates
  · obtain ⟨rfl, registered⟩ := eval_of_proceed rfl started missing
      (endsIn_register represents c _) evaluates
    have delivered := delivered_respond untouched (show 0 < 202 by decide)
      (c.getHeader xServerlessSSHClientID)
    have succeeds : (respond c 202 (c.getHeader xServerlessSSHClientID)).Succeeds := by
      rw [Context.Succeeds, delivered]
      decide
    refine ⟨fun empty => absurd empty missing, fun _ => ?_, fun fails => ?_⟩
    · rw [represents.clock]
      let config := registration c (c.getHeader xServerlessSSHClientID) view.clock
      constructor
      · refine (registered.entryIn c).trans ?_
        rw [View.addressed, if_pos]
        · exact View.bucketEntry_register_own view config
        · have known : ∀ level : Level,
              (view.register config).known level (level.key config) = true :=
            View.known_register_own
          exact ⟨known .project, known .region, known .service⟩
      · rw [registered.flat, View.flat_register]
        exact Function.update_self config.id _ _
    · exact absurd succeeds fails

/-- A deregistration leaves nothing of the instance under the path or in the flat map. -/
theorem removed_of_unregister {after : Memory} (represents : Represents mem view)
    (keyed : view.Keyed) {config : ServerlessInstance}
    (addressed : view.addressed c = some config)
    (deregistered : Represents after (view.unregister (c.param APIPathParam.revision)
      (c.param APIPathParam.instance))) :
    c.request.Removed mem after config.tunnel := by
  have entry := addressed
  rw [View.addressed_eq_some] at entry
  obtain ⟨_, bucket, published, stored⟩ := entry
  have own : config.id = c.param APIPathParam.instance := keyed bucket _ config stored
  have gone := View.unregister_of_some published stored
  refine ⟨⟨config, (represents.entryIn c).trans addressed, rfl⟩, ?_, ?_⟩
  · rw [deregistered.entryIn]
    cases remaining : (view.unregister (c.param APIPathParam.revision)
        (c.param APIPathParam.instance)).addressed c with
    | none => rfl
    | some other =>
        obtain ⟨_, bucket', published', stored'⟩ := View.addressed_eq_some.mp remaining
        rw [gone] at published' stored'
        cases published.symm.trans published'
        simp [Effect.apply] at stored'
  · rw [deregistered.flat, gone, own]
    exact Function.update_self ..

/-- A request to remove what is not there, or is another tunnel's, changes nothing. -/
theorem eval_removeInstance_of_mismatch
    (clientID : c.getHeader xServerlessSSHClientID ≠ "")
    (mismatch : ∀ config, c.request.entryIn mem = some config →
      c.getHeader xServerlessSSHClientID ≠ config.tunnel) :
    (removeInstance c).eval execute mem =
      (some (respond c 404 (c.getHeader xServerlessSSHClientID)), mem) := by
  have named : removeInstance c =
      deregister c (c.getHeader xServerlessSSHClientID) := by
    simp only [removeInstance_eq, getSSHProxyClientID, if_neg clientID]
    rfl
  have descent : deregister c (c.getHeader xServerlessSSHClientID) =
      toBucket c (.pure (respond c 404 (c.getHeader xServerlessSSHClientID)))
        (checkTunnel c (c.getHeader xServerlessSSHClientID)) := rfl
  rw [named, descent, eval_toBucket]
  cases reached : c.request.instancesIn mem with
  | none => rfl
  | some instances =>
      dsimp only [Option.elim_some]
      rw [checkTunnel, eval_fetch]
      cases stored : mem.lookup instances (c.param APIPathParam.instance) with
      | none => rfl
      | some config =>
          have entry : c.request.entryIn mem = some config := by
            rw [Request.entryIn, reached]
            exact stored
          dsimp only [Option.elim_some]
          rw [if_neg (mismatch config entry)]
          rfl

/-- A deregistration is answered with success exactly when it was made. -/
theorem removeInstance_truthful (represents : Represents mem view) (keyed : view.Keyed)
    (untouched : c.Untouched) {c' : Context} {after : Memory}
    (evaluates : (removeInstance c).eval execute mem = (some c', after)) :
    Endpoint.removeInstance.Truthful c.request mem c' after := by
  have started : Stage.start (.removeInstance c) =
      Stage.entry c fun c clientID => .seek c clientID .project := rfl
  by_cases missing : c.getHeader xServerlessSSHClientID = ""
  · exact ⟨answersChange_of_missing untouched rfl started missing evaluates,
      fun clientID => absurd missing clientID⟩
  · by_cases owner : ∃ config, view.addressed c = some config ∧
        c.getHeader xServerlessSSHClientID = config.tunnel
    · obtain ⟨config, addressed, owner⟩ := owner
      obtain ⟨rfl, deregistration⟩ := eval_of_proceed rfl started missing
        (endsIn_deregister represents keyed addressed owner) evaluates
      have delivered : (deregistered c config).writer.delivered = 202 :=
        delivered_sendResponseWithHeaders _ _ _ _ _ _ untouched.sent (by decide)
      have removed := removed_of_unregister represents keyed addressed deregistration
      rw [← owner] at removed
      refine ⟨⟨fun empty => absurd empty missing, fun _ => removed, fun fails => ?_⟩, ?_⟩
      · rw [Context.Succeeds, delivered] at fails
        exact absurd (by decide) fails
      · intro _ absent
        rw [represents.entryIn, addressed] at absent
        cases absent
    · have mismatch : ∀ config, c.request.entryIn mem = some config →
          c.getHeader xServerlessSSHClientID ≠ config.tunnel := by
        intro config entry equal
        exact owner ⟨config, (represents.entryIn c).symm.trans entry, equal⟩
      rw [eval_removeInstance_of_mismatch missing mismatch] at evaluates
      cases evaluates
      have delivered := delivered_respond untouched (show 0 < 404 by decide)
        (c.getHeader xServerlessSSHClientID)
      refine ⟨⟨fun empty => absurd empty missing, fun succeeds => ?_, fun _ => rfl⟩,
        fun _ _ => delivered⟩
      rw [Context.Succeeds, delivered] at succeeds
      exact absurd succeeds (by decide)

end Changes

/-! ## The endpoints -/

/-- The handler of an endpoint tells the truth unless it misreports a lookup. -/
theorem Endpoint.handler_truthful_iff {mem : Memory} {view : View}
    (represents : Represents mem view) (keyed : view.Keyed) (access : AccessControl)
    (endpoint : Endpoint) {c : Context} (untouched : c.Untouched) :
    (∀ c' after, (endpoint.handler access c).eval execute mem = (some c', after) →
        endpoint.Truthful c.request mem c' after) ↔
      ¬endpoint.Misreports c.request mem := by
  -- an endpoint with a known answer tells the truth when the answer does
  have answered : ∀ {program : RegistryM Context} {told : Context → Memory → Prop}
      {never : Prop},
      (∃ c', program.eval execute mem = (some c', mem) ∧ (told c' mem ↔ never)) →
      ((∀ c' after, program.eval execute mem = (some c', after) → told c' after) ↔
        never) := by
    rintro program told never ⟨c', evaluates, truthful⟩
    rw [← truthful]
    constructor
    · exact fun always => always c' mem evaluates
    · intro truth other after evaluates'
      cases evaluates.symm.trans evaluates'
      exact truth
  have always : ∀ {truth : Prop}, truth → (truth ↔ ¬False) := by
    intro truth holds
    simpa using holds
  cases endpoint with
  | getIngessRules => exact answered ⟨_, rfl, always (delivered_lines untouched _ _)⟩
  | getAllowedHosts => exact answered ⟨_, rfl, always (delivered_lines untouched _ _)⟩
  | getProjectIngress =>
      obtain ⟨c', evaluates, truthful⟩ := @getProjectIngress_answers mem c untouched
      exact answered ⟨c', evaluates, always truthful⟩
  | getRegionIngress =>
      obtain ⟨c', evaluates, truthful⟩ := @getRegionIngress_answers mem c untouched
      exact answered ⟨c', evaluates, always truthful⟩
  | getServiceIngress =>
      obtain ⟨c', evaluates, truthful⟩ := @getServiceIngress_answers mem c untouched
      exact answered ⟨c', evaluates, always truthful⟩
  | getRevisionIngress =>
      obtain ⟨c', evaluates, truthful⟩ := @getRevisionIngress_answers mem c untouched
      exact answered ⟨c', evaluates, always truthful⟩
  | getInstance => exact answered (getInstance_truthful_iff untouched)
  | getInstanceByID => exact answered (getInstanceByID_truthful_iff untouched)
  | addInstance =>
      exact always fun _ _ evaluates => addInstance_truthful represents untouched evaluates
  | removeInstance =>
      exact always fun _ _ evaluates =>
        removeInstance_truthful represents keyed untouched evaluates

section Routers

variable {mem : Memory} {view : View} {config : ProxyConfig} {access : AccessControl}

/-- What the response of the external router has to say. -/
structure ExternalTruth (config : ProxyConfig) (access : AccessControl)
    (endpoint : Endpoint) (job : ExternalRequest) (mem : Memory) (c : Context)
    (after : Memory) : Prop where
  unidentified : ¬Identified job.idtoken config access.allowedIdentities job.request →
    c.writer.delivered ∈ [401, 403, 500] ∧ after = mem
  refused : Identified job.idtoken config access.allowedIdentities job.request →
    endpoint.Controlled → ¬job.request.Whitelisted access →
    c.writer.delivered = 401 ∧ after = mem
  handled : Identified job.idtoken config access.allowedIdentities job.request →
    (endpoint.Controlled → job.request.Whitelisted access) →
    endpoint.Truthful job.request mem c after

theorem delivered_abortWithStatus {c : Context} (untouched : c.Untouched) {code : Nat}
    (positive : 0 < code) : (c.abortWithStatus code).writer.delivered = code :=
  (Context.delivered_writeHeaderNow (c.status code)).trans
    (delivered_status untouched positive)

/-- A status that comes after the first line of the body is not delivered. -/
theorem delivered_rejected {c : Context} (untouched : c.Untouched)
    (operands : List String) (code : Nat) :
    ((c.fprintln operands).abortWithStatus code).writer.delivered = 200 := by
  obtain ⟨request, writer, keys, aborted, errors⟩ := c
  cases untouched
  simp [Context.abortWithStatus, Context.abort, Context.writeHeaderNow, Context.status,
    Context.fprintln, Context.write, Writer.write, Writer.writeHeaderNow,
    Writer.writeHeader, Writer.written, Writer.delivered]

theorem serveInternal_truthful_iff (represents : Represents mem view)
    (keyed : view.Keyed) (found : config.accessControl = some access)
    {endpoint : Endpoint} {request : Request} (on : request.On endpoint) :
    (∀ c after, (serveInternal config request).eval execute mem = (some c, after) →
        endpoint.Truthful request mem c after) ↔
      ¬endpoint.Misreports request mem := by
  rw [serveInternal_of_on found on]
  exact endpoint.handler_truthful_iff represents keyed access rfl

/-- Behind the verifier, the response is truthful unless the access control refuses the
path or the handler misreports a lookup. -/
theorem guarded_truthful_iff (represents : Represents mem view) (keyed : view.Keyed)
    (found : config.accessControl = some access) (endpoint : Endpoint)
    (job : ExternalRequest) {c : Context} (untouched : c.Untouched)
    (running : c.aborted = false) (same : c.request = job.request)
    (identified : Identified job.idtoken config access.allowedIdentities job.request) :
    (∀ c' after,
        (runHandlers (endpoint.guarded config access) c).eval execute mem =
          (some c', after) →
        ExternalTruth config access endpoint job mem c' after) ↔
      (endpoint.Controlled → job.request.Whitelisted access) ∧
        ¬endpoint.Misreports job.request mem := by
  have handler := endpoint.handler_truthful_iff represents keyed access untouched
  have cases := endpoint.runHandlers_guarded found running
  rw [same] at handler cases
  rcases cases with ⟨admitted, served⟩ | ⟨⟨controlled, unlisted⟩, operands, served⟩
  · rw [served, ← handler]
    constructor
    · intro truth
      refine ⟨admitted, fun c' after evaluates => ?_⟩
      exact (truth c' after evaluates).handled identified admitted
    · intro truth c' after evaluates
      refine ⟨fun stranger => absurd identified stranger, ?_, fun _ _ => ?_⟩
      · exact fun _ controlled unlisted => absurd (admitted controlled) unlisted
      · exact truth.2 c' after evaluates
  · constructor
    · intro truth
      have answered : ExternalTruth config access endpoint job mem
          ((c.fprintln operands).abortWithStatus 401) mem := by
        apply truth
        rw [served]
        rfl
      -- the line that was written first has fixed the status
      have status := (answered.refused identified controlled unlisted).1
      rw [delivered_rejected untouched] at status
      cases status
    · intro truth
      exact absurd (truth.1 controlled) unlisted

theorem serveExternal_truthful_iff (represents : Represents mem view)
    (keyed : view.Keyed) (found : config.accessControl = some access)
    {endpoint : Endpoint} (offered : endpoint ∈ Endpoint.external)
    {job : ExternalRequest} (on : job.request.On endpoint) :
    (∀ c after, (serveExternal config job).eval execute mem = (some c, after) →
        ExternalTruth config access endpoint job mem c after) ↔
      (Identified job.idtoken config access.allowedIdentities job.request →
        (endpoint.Controlled → job.request.Whitelisted access) ∧
          ¬endpoint.Misreports job.request mem) := by
  obtain ⟨verifier, built⟩ := @exists_idTokenVerifier job.idtoken _ _ found
  simp only [serveExternal, externalAPI_eq access built]
  rw [Engine.serve_of_on offered on]
  rcases runHandlers_verifier found built (endpoint.guarded config access)
      (c := { request := job.request }) rfl with
    ⟨stranger, _, panics⟩ | ⟨identified, _, passes⟩ | ⟨stranger, _, code, listed, rejects⟩
  · rw [panics]
    constructor
    · exact fun _ identified => absurd identified stranger
    · intro _ c after evaluates
      cases evaluates
  · rw [passes]
    let c : Context := Context.set { request := job.request } configContextKey config
    have untouched : c.Untouched := rfl
    have behind := guarded_truthful_iff represents keyed found endpoint job untouched rfl rfl
      identified
    exact behind.trans ⟨fun truth _ => truth, fun truth => truth identified⟩
  · rw [rejects]
    constructor
    · exact fun _ identified => absurd identified stranger
    · intro _ c after evaluates
      cases evaluates
      have positive : 0 < code := by
        simp only [List.mem_cons, List.not_mem_nil, or_false] at listed
        omega
      have untouched : Context.Untouched { request := job.request } := rfl
      have delivered := delivered_abortWithStatus untouched positive
      refine ⟨fun _ => ⟨?_, rfl⟩, ?_, ?_⟩
      · rw [delivered]
        exact listed
      · exact fun identified => absurd identified stranger
      · exact fun identified => absurd identified stranger

end Routers

/-- In every reachable registry, the response to a request that runs to completion is
truthful exactly when it is neither refused by the access control nor a lookup that finds
an instance, or names none. -/
theorem responses_truthful_iff {guard : RegistryPool → Choice RegistryJob Nat → Prop}
    {clock : Time} {pool : RegistryPool}
    (reached : registryMachine.Reaches guard (Pool.idle (Memory.initial clock)) pool)
    {config : ProxyConfig} {access : AccessControl}
    (found : config.accessControl = some access) :
    (∀ endpoint request, request.On endpoint →
      ((∀ c after,
          (serveInternal config request).eval execute pool.mem = (some c, after) →
          endpoint.Truthful request pool.mem c after) ↔
        ¬endpoint.Misreports request pool.mem)) ∧
    (∀ endpoint ∈ Endpoint.external, ∀ job, job.request.On endpoint →
      ((∀ c after,
          (serveExternal config job).eval execute pool.mem = (some c, after) →
          ExternalTruth config access endpoint job pool.mem c after) ↔
        (Identified job.idtoken config access.allowedIdentities job.request →
          (endpoint.Controlled → job.request.Whitelisted access) ∧
            ¬endpoint.Misreports job.request pool.mem))) := by
  obtain ⟨view, represents, sound⟩ := sound_of_reachable reached
  constructor
  · intro endpoint request on
    exact serveInternal_truthful_iff represents sound.keyed found on
  · intro endpoint offered job on
    exact serveExternal_truthful_iff represents sound.keyed found offered on

/-- The configuration of a server that admits registrations of one project. -/
def singleProjectConfig : ProxyConfig where
  proxyConfig := singleProjectFile
  accessControl := some {
    allowedProjects := .newSet ["tenant"]
    allowedRegions := .newSetWithSize
    allowedServices := .newSetWithSize
    allowedRevisions := .newSetWithSize
    allowedIdentities := .newSet ["tunnel@tenant.iam.gserviceaccount.com"]
    allowedHosts := .newSetWithSize }

/-- A lookup of an instance on the internal router. -/
def lookupRequest (inst : String) : Request where
  method := .get
  fullPath := instanceAPI
  params := [(APIPathParam.instance, inst)]
  headers := []

/-- A listing of a revision. -/
def listingRequest : Request where
  method := .get
  fullPath := Endpoint.getRevisionIngress.fullPath
  params := [(APIPathParam.project, "p"), (APIPathParam.region, "r"),
    (APIPathParam.service, "s"), (APIPathParam.revision, "v")]
  headers := []

/-- In a registry with one instance, the deregistration by its client and the listing of its
revision are answered with success, and the deregistration was carried out; the lookup of another
instance is answered with 404. -/
theorem responses_truthful_registered :
    let deregistration := (instanceContext .delete "p" "r" "s" "v" "i" "t").request
    ∃ pool : RegistryPool,
      registryMachine.Reaches (fun _ _ => True) (Pool.idle (Memory.initial 0)) pool ∧
      (∃ c after, (serveInternal singleProjectConfig deregistration).eval execute pool.mem =
        (some c, after) ∧ c.writer.delivered = 202 ∧ deregistration.Removed pool.mem after "t") ∧
      (∃ c after, (serveInternal singleProjectConfig listingRequest).eval execute pool.mem =
        (some c, after) ∧ c.Succeeds) ∧
      ∃ c after, (serveInternal singleProjectConfig (lookupRequest "j")).eval execute pool.mem =
        (some c, after) ∧ c.AnswersLookup none := by
  intro deregistration
  have ran : ∃ pool, registryMachine.run (fun _ _ => true) (Pool.idle (Memory.initial 0))
        (.start (.addInstance (instanceContext .post "p" "r" "s" "v" "i" "t")) ::
          List.replicate 13 (.thread 0) ++ [.routine 0]) = some pool ∧
      (∃ c after, (serveInternal singleProjectConfig
        (instanceContext .delete "p" "r" "s" "v" "i" "t").request).eval execute pool.mem =
          (some c, after) ∧ c.writer.delivered = 202) ∧
      (∃ c after, (serveInternal singleProjectConfig listingRequest).eval execute pool.mem =
        (some c, after)) ∧
      (listingRequest.instancesIn pool.mem).isSome = true ∧
      (∃ c after, (serveInternal singleProjectConfig (lookupRequest "j")).eval execute pool.mem =
        (some c, after)) ∧ pool.mem.lookup instanceToConfigMap "j" = none :=
    ⟨_, rfl, ⟨_, _, rfl, rfl⟩, ⟨_, _, rfl⟩, rfl, ⟨_, _, rfl⟩, rfl⟩
  obtain ⟨pool, ran, ⟨removed, after, removes, accepted⟩, ⟨listed, kept, lists⟩, known,
    ⟨found, same, looks⟩, unknown⟩ := ran
  have reached := (Machine.reaches_of_run ran).mono fun _ _ _ => trivial
  have found' : singleProjectConfig.accessControl = some _ := rfl
  have truthful := (responses_truthful_iff reached found').1
  have removal := (truthful .removeInstance deregistration ⟨rfl, rfl⟩).mpr id _ _ removes
  have listing := (truthful .getRevisionIngress listingRequest ⟨rfl, rfl⟩).mpr id _ _ lists
  have silent : ¬Endpoint.getInstanceByID.Misreports (lookupRequest "j") pool.mem := by
    rintro (unnamed | found)
    · exact absurd unnamed (by decide)
    · exact found unknown
  have lookup := (truthful .getInstanceByID (lookupRequest "j") ⟨rfl, rfl⟩).mpr silent _ _ looks
  refine ⟨pool, reached, ⟨removed, after, removes, accepted, removal.1.succeeds ?_⟩,
    ⟨listed, kept, lists, listing.succeeds (by decide) known⟩, ⟨found, same, looks, ?_⟩⟩
  · rw [Context.Succeeds, accepted]
    decide
  · rw [← unknown]
    exact lookup

/-- An identified registration of another project than the one that is admitted. -/
def strangeRegistration : ExternalRequest where
  request := {
    method := .post
    fullPath := Endpoint.addInstance.fullPath
    params := [(APIPathParam.project, "stranger"), (APIPathParam.region, "r"),
      (APIPathParam.service, "s"), (APIPathParam.revision, "v"),
      (APIPathParam.instance, "i")]
    headers := [(xServerlessSSHProxyProjectID, "host"), (xServerlessSSHProxyID, allUUIDs),
      (xServerlessSSHServerID, allUUIDs), (xServerlessSSHAuthorization, "token"),
      (xServerlessSSHProxyHost, allUUIDs ++ ".ssh-proxy.internal"),
      (xServerlessSSHClientID, "t")] }
  idtoken := {
    newValidator := none
    validate := fun _ audience => .ok {
      issuer := "https://accounts.google.com"
      audience
      claims := [("email", .str "tunnel@tenant.iam.gserviceaccount.com"),
        ("email_verified", .bool true)] } }

/-- The refused registration is answered with 200, and so is a lookup whose body is not one
document. -/
theorem responses_misreport :
    (¬∀ c after, (serveExternal singleProjectConfig strangeRegistration).eval execute
        (Memory.initial 0) = (some c, after) →
      ∀ access, singleProjectConfig.accessControl = some access →
        ExternalTruth singleProjectConfig access .addInstance strangeRegistration
          (Memory.initial 0) c after) ∧
    ∃ pool : RegistryPool,
      registryMachine.Reaches (fun _ _ => True) (Pool.idle (Memory.initial 0)) pool ∧
      ¬∀ c after, (serveInternal singleProjectConfig (lookupRequest "i")).eval execute
          pool.mem = (some c, after) →
        Endpoint.getInstanceByID.Truthful (lookupRequest "i") pool.mem c after := by
  constructor
  · intro truth
    have admitted := (serveExternal_truthful_iff (represents_initial 0)
      (View.sound_initial 0).keyed rfl (by decide) ⟨rfl, rfl⟩).mp
      fun c after evaluates => truth c after evaluates _ rfl
    have identified : Identified strangeRegistration.idtoken singleProjectConfig
        (.newSet ["tunnel@tenant.iam.gserviceaccount.com"])
        strangeRegistration.request := by
      refine ⟨rfl, rfl, rfl, by decide, rfl, _, rfl, by decide, rfl, rfl, ?_, rfl⟩
      exact ⟨_, rfl, by decide⟩
    exact absurd ((admitted identified).1 trivial).project.2 (by decide)
  · let job : RegistryJob := .addInstance (instanceContext .post "p" "r" "s" "v" "i" "t")
    obtain ⟨after, outcome, completes⟩ := Program.completes execute RegistryJob.program
      Memory.elapse (Memory.initial 0) job
    have represents := completes_represents (represents_initial 0)
      (View.sound_initial 0).keyed completes
    have reached : registryMachine.Reaches (fun _ _ => True)
        (Pool.idle (Memory.initial 0)) ⟨after, [], [], [outcome]⟩ :=
      .head (.start job) trivial rfl (completes.mono fun _ _ _ => trivial)
    refine ⟨_, reached, fun truth => ?_⟩
    have silent := (serveInternal_truthful_iff represents
      ((View.wellFormed_initial 0).perform job).keyed rfl ⟨rfl, rfl⟩).mp truth
    apply silent
    refine .inr ?_
    have clientID : (instanceContext .post "p" "r" "s" "v" "i" "t").getHeader
        xServerlessSSHClientID ≠ "" := by decide
    have registered : ((View.initial 0).perform job).flat "i" =
        some (registration (instanceContext .post "p" "r" "s" "v" "i" "t") "t" 0) := by
      simp only [job, View.perform, clientID, if_false, View.flat_register]
      exact Function.update_self (registration _ "t" 0).id _ _
    rw [← represents.flat] at registered
    intro missing
    cases registered.symm.trans missing

end CloudRunSsh.Proxy
