import CloudRunSsh.Proxy.Sequential

/-!
# What clients see

The answers of the handlers that look a path up, as functions of the view: which
registrations a listing contains, which one a lookup returns, and whether a
deregistration is accepted.
-/

namespace CloudRunSsh.Proxy

open CloudRunSsh.Concurrency

namespace Context

/-- Nothing has been written or decided about the response yet. -/
def Untouched (c : Context) : Prop := c.writer = {}

/-- A listing contains a registration. -/
def Lists (c : Context) (config : ServerlessInstance) : Prop :=
  ∃ index, Chunk.json (ingressLine index config) ∈ c.writer.body

/-- A lookup found a registration and returned it. -/
def Returns (c : Context) (config : ServerlessInstance) : Prop :=
  c.writer.delivered = 200 ∧ Chunk.json config.toJson ∈ c.writer.body

/-- The request was carried out. -/
def Accepted (c : Context) : Prop := c.writer.delivered = 202

variable {c : Context}

theorem Untouched.sent (untouched : c.Untouched) : c.writer.sent = none := by
  rw [untouched]

theorem Untouched.body (untouched : c.Untouched) : c.writer.body = [] := by
  rw [untouched]

end Context

theorem ingressLine_injective {index index' : Nat} {config config' : ServerlessInstance}
    (equal : ingressLine index config = ingressLine index' config') :
    index = index' ∧ config = config' := by
  simp only [ingressLine, Json.obj.injEq, List.cons.injEq, Prod.mk.injEq, Json.num.injEq,
    Int.natCast_inj, true_and, and_true] at equal
  exact ⟨equal.1, ServerlessInstance.toJson_injective equal.2⟩

section Headers

variable (c : Context) (status : Nat)
variable (project region service revision inst id : String)

@[simp] theorem body_sendResponseWithHeaders :
    (sendResponseWithHeaders c status project region service revision inst
      id).writer.body = c.writer.body := by
  simp only [sendResponseWithHeaders]
  split <;> simp

@[simp] theorem sent_sendResponseWithHeaders :
    (sendResponseWithHeaders c status project region service revision inst
      id).writer.sent = c.writer.sent := by
  simp only [sendResponseWithHeaders]
  split <;> simp

/-- A response that only consists of a status and headers has that status. -/
theorem delivered_sendResponseWithHeaders {c : Context}
    (unsent : c.writer.sent = none) {status : Nat} (positive : 0 < status) :
    (sendResponseWithHeaders c status project region service revision inst
      id).writer.delivered = status := by
  rw [Context.delivered_of_unsent ((sent_sendResponseWithHeaders ..).trans unsent)]
  simp only [sendResponseWithHeaders]
  split <;> simp only [Context.status_header, Context.status_status unsent positive]

end Headers

section Addresses

variable (request : Request) (mem : Memory)

def Request.regionsIn : Option RegionToServicesMap :=
  mem.lookup projectToRegionsMap (request.param APIPathParam.project)

def Request.servicesIn : Option ServiceToRevisionsMap := do
  let regions ← request.regionsIn mem
  mem.lookup regions (request.param APIPathParam.region)

def Request.revisionsIn : Option RevisionToInstancesMap := do
  let services ← request.servicesIn mem
  mem.lookup services (request.param APIPathParam.service)

/-- The bucket that the path leads to. -/
def Request.instancesIn : Option InstanceToConfigMap := do
  let revisions ← request.revisionsIn mem
  mem.lookup revisions (request.param APIPathParam.revision)

/-- The registration that the path leads to. -/
def Request.entryIn : Option ServerlessInstance := do
  let instances ← request.instancesIn mem
  mem.lookup instances (request.param APIPathParam.instance)

end Addresses

section Descent

variable {Value : Type} {mem : Memory} {view : View}

/-- The four lookups that lead to the bucket of a path. -/
def toBucket (c : Context) (missing : RegistryM Value)
    (found : InstanceToConfigMap → RegistryM Value) : RegistryM Value :=
  fetch projectToRegionsMap (c.param APIPathParam.project) missing fun regions =>
    fetch regions (c.param APIPathParam.region) missing fun services =>
      fetch services (c.param APIPathParam.service) missing fun revisions =>
        fetch revisions (c.param APIPathParam.revision) missing found

/-- The descent to a bucket evaluates as the lookup of its path. -/
theorem eval_toBucket (c : Context) (missing : RegistryM Value)
    (found : InstanceToConfigMap → RegistryM Value) :
    (toBucket c missing found).eval execute mem =
      (c.request.instancesIn mem).elim (missing.eval execute mem) fun instances =>
        (found instances).eval execute mem := by
  simp only [toBucket, eval_fetch, Request.instancesIn, Request.revisionsIn,
    Request.servicesIn, Request.regionsIn, Context.param]
  cases mem.lookup projectToRegionsMap (c.request.param APIPathParam.project) with
  | none => rfl
  | some regions =>
      dsimp only [Option.elim_some, Option.bind_eq_bind, Option.bind_some]
      cases mem.lookup regions (c.request.param APIPathParam.region) with
      | none => rfl
      | some services =>
          dsimp only [Option.elim_some, Option.bind_some]
          cases mem.lookup services (c.request.param APIPathParam.service) with
          | none => rfl
          | some revisions => rfl

/-- All names of a path above the bucket are known. -/
def View.Knows (view : View) (c : Context) : Prop :=
  view.known .project (c.param APIPathParam.project) = true ∧
    view.known .region (c.param APIPathParam.region) = true ∧
    view.known .service (c.param APIPathParam.service) = true

/-- On the view, the path leads to the bucket of its revision if its names are known. -/
theorem Represents.instancesIn_eq_some (represents : Represents mem view) {c : Context}
    {instances : InstanceToConfigMap} :
    c.request.instancesIn mem = some instances ↔
      view.Knows c ∧ ∃ bucket, view.revisions (c.param APIPathParam.revision) = some bucket ∧
        bucketRef bucket = instances := by
  rw [View.Knows, ← represents.bucketAt_eq_some]
  simp only [Request.instancesIn, Request.revisionsIn, Request.servicesIn,
    Request.regionsIn, Memory.bucketAt, Option.bind_eq_bind, Option.bind_assoc,
    Context.param]

/-- On the view, the path leads to the entry that the request addresses. -/
theorem Represents.entryIn (represents : Represents mem view) (c : Context) :
    c.request.entryIn mem = view.addressed c := by
  ext config
  rw [View.addressed_eq_some, Request.entryIn, Option.bind_eq_bind,
    Option.bind_eq_some_iff]
  constructor
  · rintro ⟨instances, reached, stored⟩
    obtain ⟨known, bucket, published, rfl⟩ := represents.instancesIn_eq_some.mp reached
    rw [represents.buckets] at stored
    exact ⟨known, bucket, published, stored⟩
  · rintro ⟨known, bucket, published, stored⟩
    refine ⟨_, represents.instancesIn_eq_some.mpr ⟨known, bucket, published, rfl⟩, ?_⟩
    rw [represents.buckets]
    exact stored

end Descent

section Lookup

variable {mem : Memory} {view : View} {c : Context}

/-- The answer of `getInstance` to a path that leads nowhere. -/
def instanceNotFound (c : Context) : Context :=
  if c.param APIPathParam.instance ≠ "" then
    c.json 404 (.obj [("instance", .str (c.param APIPathParam.instance))])
  else c

/-- `getInstance` checks the bucket of the path and answers from the flat map. -/
theorem getInstance_eq (c : Context) :
    getInstance c =
      toBucket c (.pure (instanceNotFound c)) fun instances =>
        fetch instances (c.param APIPathParam.instance) (.pure (instanceNotFound c))
          fun _ => getInstanceByID c := by
  apply fetch_congr rfl
  intro regions
  apply fetch_congr rfl
  intro services
  apply fetch_congr rfl
  intro revisions
  apply fetch_congr rfl
  intro instances
  apply fetch_congr rfl
  intro config
  rfl

/-- A rejection does not look like a registration. -/
theorem not_returns_json {c : Context} (untouched : c.Untouched) {code : Nat}
    {inst : String} (config : ServerlessInstance) :
    ¬(c.json code (.obj [("instance", .str inst)])).Returns config := by
  intro returns
  have listed := returns.2
  simp only [Context.json, Context.body_write, List.mem_append, List.mem_singleton] at listed
  rcases listed with before | written
  · split at before <;> simp [untouched.body] at before
  · simp [ServerlessInstance.toJson] at written

theorem not_returns_of_body {c : Context} (empty : c.writer.body = [])
    (config : ServerlessInstance) : ¬c.Returns config := by
  intro returns
  have listed := returns.2
  rw [empty] at listed
  exact absurd listed List.not_mem_nil

/-- The answer of `getInstanceByID` when it finds a registration. -/
def instanceFound (c : Context) (cfg : ServerlessInstance) : Context :=
  let c := sendResponseWithHeaders c 200 cfg.project cfg.region cfg.service cfg.revision
    cfg.id cfg.tunnel
  let c := c.header "content-type" "application/json"
  let c := c.write (.json cfg.toJson)
  c.fprintln [cfg.id, cfg.tunnel, c.getHeader xServerlessSSHVisitorID]

theorem instanceFound_returns (untouched : c.Untouched) (cfg config : ServerlessInstance) :
    (instanceFound c cfg).Returns config ↔ config = cfg := by
  have delivered : (instanceFound c cfg).writer.delivered = 200 := by
    simp only [instanceFound, Context.fprintln, Context.delivered_write,
      Context.delivered_header]
    exact delivered_sendResponseWithHeaders _ _ _ _ _ _ untouched.sent (by decide)
  simp only [Context.Returns, delivered, true_and]
  simp only [instanceFound, Context.fprintln, Context.body_write, Context.body_header,
    body_sendResponseWithHeaders, untouched.body, List.nil_append, List.cons_append,
    List.mem_cons, List.not_mem_nil, or_false, Chunk.json.injEq, reduceCtorEq]
  constructor
  · intro equal
    exact ServerlessInstance.toJson_injective equal
  · rintro rfl
    rfl

/-- `getInstanceByID` is one lookup in the flat map. -/
theorem getInstanceByID_eq (c : Context) :
    getInstanceByID c =
      if c.param APIPathParam.instance = "" then .pure (c.status 400)
      else
        fetch instanceToConfigMap (c.param APIPathParam.instance)
          (.pure (c.json 404
            (.obj [("instance", .str (c.param APIPathParam.instance))])))
          fun cfg => .pure (instanceFound c cfg) := by
  rw [getInstanceByID]
  dsimp only
  split
  · rfl
  · exact fetch_congr rfl fun _ => rfl

/-- `getInstanceByID` returns what the flat map holds. -/
theorem getInstanceByID_returns (represents : Represents mem view)
    (untouched : c.Untouched) :
    ∃ c', (getInstanceByID c).eval execute mem = (some c', mem) ∧
      ∀ config, c'.Returns config ↔
        c.param APIPathParam.instance ≠ "" ∧
          view.flat (c.param APIPathParam.instance) = some config := by
  rw [getInstanceByID_eq]
  split
  · rename_i empty
    refine ⟨c.status 400, rfl, fun config => ?_⟩
    have nothing := not_returns_of_body
      ((Context.body_status c 400).trans untouched.body) config
    simp only [nothing, empty, ne_eq, not_true, false_and]
  · rename_i named
    rw [eval_fetch, represents.flat]
    cases view.flat (c.param APIPathParam.instance) with
    | none =>
        refine ⟨_, rfl, fun config => ?_⟩
        simp only [reduceCtorEq, and_false, iff_false]
        exact not_returns_json untouched config
    | some cfg =>
        refine ⟨instanceFound c cfg, rfl, fun config => ?_⟩
        rw [instanceFound_returns untouched]
        simp only [ne_eq, named, not_false_eq_true, true_and, Option.some.injEq, eq_comm]

theorem not_returns_instanceNotFound (untouched : c.Untouched)
    (config : ServerlessInstance) : ¬(instanceNotFound c).Returns config := by
  rw [instanceNotFound]
  split
  · exact not_returns_json untouched config
  · exact not_returns_of_body untouched.body config

/-- `getInstance` looks the path up first. -/
theorem eval_getInstance :
    (getInstance c).eval execute mem =
      (c.request.entryIn mem).elim (some (instanceNotFound c), mem) fun _ =>
        (getInstanceByID c).eval execute mem := by
  rw [getInstance_eq, eval_toBucket, Request.entryIn]
  cases c.request.instancesIn mem with
  | none => rfl
  | some instances => exact eval_fetch ..

/-- `getInstance` returns what the flat map holds for an instance that is in the bucket
of the path. -/
theorem getInstance_returns (represents : Represents mem view) (untouched : c.Untouched) :
    ∃ c', (getInstance c).eval execute mem = (some c', mem) ∧
      ∀ config, c'.Returns config ↔
        c.param APIPathParam.instance ≠ "" ∧ (view.addressed c).isSome ∧
          view.flat (c.param APIPathParam.instance) = some config := by
  rw [eval_getInstance, represents.entryIn]
  cases view.addressed c with
  | none =>
      refine ⟨instanceNotFound c, rfl, fun config => ?_⟩
      simp only [Option.isSome_none, Bool.false_eq_true, false_and, and_false, iff_false]
      exact not_returns_instanceNotFound untouched config
  | some cfg =>
      rcases getInstanceByID_returns represents untouched with ⟨c', evaluates, returns⟩
      refine ⟨c', evaluates, fun config => ?_⟩
      rw [returns]
      simp only [Option.isSome_some, true_and]

end Lookup

section Listing

variable {mem : Memory} {view : View} {c : Context}

theorem body_foldl_write {Entry : Type} (entries : List Entry) (chunk : Entry → Chunk)
    (c : Context) :
    (entries.foldl (fun c entry => c.write (chunk entry)) c).writer.body =
      c.writer.body ++ entries.map chunk := by
  induction entries generalizing c with
  | nil => simp
  | cons entry entries ih =>
      rw [List.foldl_cons, ih, Context.body_write, List.map_cons, List.append_assoc]
      rfl

/-- A listing contains the registrations it was made from and no others. -/
theorem lists_sendIngressResponse (untouched : c.Untouched)
    (instances : List ServerlessInstance) (config : ServerlessInstance) :
    (sendIngressResponse c instances).Lists config ↔ config ∈ instances := by
  unfold sendIngressResponse Context.Lists
  split
  · rename_i empty
    rw [List.length_eq_zero_iff.mp empty, Context.body_status, untouched.body]
    simp
  · rw [body_foldl_write instances.zipIdx fun entry =>
      Chunk.json (ingressLine entry.2 entry.1)]
    simp only [Context.body_writeHeaderNow, Context.body_header, Context.body_status,
      untouched.body, List.nil_append, List.mem_map, Chunk.json.injEq]
    constructor
    · rintro ⟨index, ⟨other, index'⟩, member, equal⟩
      rw [← (ingressLine_injective equal).2]
      exact List.mem_of_getElem? (List.mem_zipIdx_iff_getElem?.mp member)
    · intro member
      rcases List.mem_iff_getElem?.mp member with ⟨index, found⟩
      exact ⟨index, ⟨config, index⟩, List.mem_zipIdx_iff_getElem?.mpr found, rfl⟩

/-- The names of a path that a listing needs. -/
def Context.Named (c : Context) : Prop :=
  c.param APIPathParam.project ≠ "" ∧ c.param APIPathParam.region ≠ "" ∧
    c.param APIPathParam.service ≠ "" ∧ c.param APIPathParam.revision ≠ ""

theorem getRevisionIngress_of_unnamed (unnamed : ¬c.Named) :
    getRevisionIngress c = .pure (c.status 400) := by
  unfold getRevisionIngress
  dsimp only
  rw [if_pos]
  · rfl
  · simp only [Context.Named, not_and_or, not_not] at unnamed
    exact unnamed

theorem getRevisionIngress_of_named (named : c.Named) :
    getRevisionIngress c =
      toBucket c (.pure (c.status 404)) fun instances =>
        .op (.forEach .instances instances) fun entries =>
          .pure (sendIngressResponse c (entries.map Prod.snd)) := by
  rw [getRevisionIngress]
  dsimp only
  rw [if_neg]
  · apply fetch_congr rfl
    intro regions
    apply fetch_congr rfl
    intro services
    apply fetch_congr rfl
    intro revisions
    apply fetch_congr rfl
    intro instances
    rfl
  · simpa only [Context.Named, not_or] using named

/-- `getRevisionIngress` lists the bucket of the path. -/
theorem getRevisionIngress_lists (represents : Represents mem view)
    (untouched : c.Untouched) :
    ∃ c', (getRevisionIngress c).eval execute mem = (some c', mem) ∧
      ∀ config, c'.Lists config ↔
        c.Named ∧ view.Knows c ∧
          ∃ id, view.bucketEntry (c.param APIPathParam.revision) id = some config := by
  have nothing : ∀ code config, ¬(c.status code).Lists config := by
    rintro code config ⟨index, listed⟩
    rw [Context.body_status, untouched.body] at listed
    exact absurd listed List.not_mem_nil
  by_cases named : c.Named
  · rw [getRevisionIngress_of_named named, eval_toBucket]
    cases reached : c.request.instancesIn mem with
    | none =>
        refine ⟨c.status 404, rfl, fun config => ?_⟩
        simp only [nothing, named, true_and, false_iff, not_and, not_exists]
        intro knows id found
        rcases Option.bind_eq_some_iff.mp found with ⟨bucket, published, _⟩
        have leads := represents.instancesIn_eq_some.mpr ⟨knows, bucket, published, rfl⟩
        rw [reached] at leads
        cases leads
    | some instances =>
        rcases represents.instancesIn_eq_some.mp reached with ⟨knows, bucket, published, rfl⟩
        refine ⟨_, rfl, fun config => ?_⟩
        rw [lists_sendIngressResponse untouched]
        simp only [named, knows, true_and, View.bucketEntry, published, Option.bind_some,
          ← represents.buckets]
        constructor
        · intro member
          rcases List.mem_map.mp member with ⟨⟨id, entry⟩, listed, rfl⟩
          exact ⟨id, Dict.mem_items.mp listed⟩
        · rintro ⟨id, found⟩
          exact List.mem_map.mpr ⟨⟨id, config⟩, Dict.mem_items.mpr found, rfl⟩
  · rw [getRevisionIngress_of_unnamed named]
    refine ⟨_, rfl, fun config => ?_⟩
    simp only [nothing, named, false_and]

end Listing

/-- A deregistration with a client id is accepted when it finds an entry with that
tunnel. -/
theorem removeInstance_accepted {mem after : Memory} {view : View} {c : Context}
    {outcome : Outcome RegistryJob RegistryOp (Option JobResult)}
    (represents : Represents mem view) (keyed : view.Keyed) (untouched : c.Untouched)
    (clientID : c.getHeader xServerlessSSHClientID ≠ "")
    (completes : registryMachine.Completes mem (.removeInstance c) after outcome) :
    ∃ c', outcome.result = some (.response c') ∧
      (c'.Accepted ↔ ∃ config, view.addressed c = some config ∧
        c.getHeader xServerlessSSHClientID = config.tunnel) := by
  have started : mem.Started := by
    rw [Memory.Started, represents.fresh]
    exact Nat.succ_pos _
  have evaluated := congrArg Prod.fst (eval_of_completed started completes).2
  rw [start_program, Stage.start, Stage.entry, if_neg clientID] at evaluated
  by_cases owner : ∃ config, view.addressed c = some config ∧
      c.getHeader xServerlessSSHClientID = config.tunnel
  · rcases owner with ⟨config, addressed, owner⟩
    rcases (endsIn_deregister represents keyed addressed owner).1 with ⟨_, result, rfl⟩
    refine ⟨deregistered c config, evaluated.trans result, ?_⟩
    have accepted : (deregistered c config).Accepted :=
      delivered_sendResponseWithHeaders _ _ _ _ _ _ untouched.sent (by decide)
    simp only [accepted, true_iff]
    exact ⟨config, addressed, owner⟩
  · have mismatch : ∀ config, view.addressed c = some config →
        c.getHeader xServerlessSSHClientID ≠ config.tunnel := by
      intro config addressed equal
      exact owner ⟨config, addressed, equal⟩
    rcases (endsIn_deregister_of_mismatch represents mismatch).1 with ⟨_, result, rfl⟩
    refine ⟨respond c 404 _, evaluated.trans result, ?_⟩
    have delivered : (respond c 404 (c.getHeader xServerlessSSHClientID)).writer.delivered =
        404 := delivered_sendResponseWithHeaders _ _ _ _ _ _ untouched.sent (by decide)
    simp only [owner, iff_false, Context.Accepted, delivered]
    decide

end CloudRunSsh.Proxy
