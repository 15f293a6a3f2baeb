import CloudRunSsh.Concurrency.Outline

/-!
# Programs over atomic operations

A program is a tree of atomic operations on a shared memory.  It may start one
operation as a detached routine, return, or panic.  Programs form a monad, so a
source function is written as a `do` block, and they are the local states of a
machine, so the same text also has every interleaved execution.
-/

namespace CloudRunSsh.Concurrency

/-- Atomic operations and the type of the answer of each. -/
structure Interface where
  Op : Type
  Res : Op → Type

/-- A sequential program over the operations of `interface`. -/
inductive Program (interface : Interface) (Value : Type) : Type where
  | pure (value : Value)
  | op (operation : interface.Op)
      (rest : interface.Res operation → Program interface Value)
  | go (operation : interface.Op) (rest : Program interface Value)
  | panic

variable {interface : Interface} {Value Value' Mem Job Event : Type}

namespace Program

/-- Sequential composition. -/
def bind : Program interface Value → (Value → Program interface Value') →
    Program interface Value'
  | .pure value, rest => rest value
  | .op operation next, rest => .op operation fun answer => (next answer).bind rest
  | .go operation next, rest => .go operation (next.bind rest)
  | .panic, _ => .panic

instance : Monad (Program interface) where
  pure := .pure
  bind := bind

/-- Perform one operation and return its answer. -/
def perform (operation : interface.Op) : Program interface (interface.Res operation) :=
  .op operation .pure

/-- Start one operation as a detached routine. -/
def spawn (operation : interface.Op) : Program interface Unit :=
  .go operation (.pure ())

@[simp] theorem bind_eq (program : Program interface Value)
    (rest : Value → Program interface Value') : program >>= rest = program.bind rest :=
  rfl

@[simp] theorem pure_eq (value : Value) :
    (Pure.pure value : Program interface Value) = .pure value := rfl

@[simp] theorem pure_bind (value : Value) (rest : Value → Program interface Value') :
    (Program.pure value).bind rest = rest value := rfl

@[simp] theorem op_bind (operation : interface.Op)
    (next : interface.Res operation → Program interface Value)
    (rest : Value → Program interface Value') :
    (Program.op operation next).bind rest =
      .op operation fun answer => (next answer).bind rest := rfl

@[simp] theorem go_bind (operation : interface.Op) (next : Program interface Value)
    (rest : Value → Program interface Value') :
    (Program.go operation next).bind rest = .go operation (next.bind rest) := rfl

theorem bind_pure (program : Program interface Value) : program.bind .pure = program := by
  induction program with
  | pure value => rfl
  | op operation next ih => simp only [op_bind, ih]
  | go operation next ih => simp only [go_bind, ih]
  | panic => rfl

theorem bind_assoc {Value'' : Type} (program : Program interface Value)
    (middle : Value → Program interface Value')
    (rest : Value' → Program interface Value'') :
    (program.bind middle).bind rest = program.bind fun value => (middle value).bind rest := by
  induction program with
  | pure value => rfl
  | op operation next ih => simp only [op_bind, ih]
  | go operation next ih => simp only [go_bind, ih]
  | panic => rfl

/-- Every operation the program may perform, whatever the answers, is allowed. -/
def Every (allowed : interface.Op → Prop) : Program interface Value → Prop
  | .pure _ => True
  | .op operation rest => allowed operation ∧ ∀ answer, (rest answer).Every allowed
  | .go operation rest => allowed operation ∧ rest.Every allowed
  | .panic => True

variable {allowed weaker : interface.Op → Prop}

@[simp] theorem every_pure (value : Value) :
    (Program.pure value : Program interface Value).Every allowed := trivial

@[simp] theorem every_panic :
    (Program.panic : Program interface Value).Every allowed := trivial

@[simp] theorem every_op (operation : interface.Op)
    (rest : interface.Res operation → Program interface Value) :
    (Program.op operation rest).Every allowed ↔
      allowed operation ∧ ∀ answer, (rest answer).Every allowed := Iff.rfl

@[simp] theorem every_go (operation : interface.Op) (rest : Program interface Value) :
    (Program.go operation rest).Every allowed ↔
      allowed operation ∧ rest.Every allowed := Iff.rfl

theorem Every.bind {program : Program interface Value}
    {rest : Value → Program interface Value'} (every : program.Every allowed)
    (after : ∀ value, (rest value).Every allowed) :
    (program.bind rest).Every allowed := by
  induction program with
  | pure value => exact after value
  | op operation next ih =>
      exact ⟨every.1, fun answer => ih answer (every.2 answer)⟩
  | go operation next ih => exact ⟨every.1, ih every.2⟩
  | panic => trivial

theorem Every.mono {program : Program interface Value} (every : program.Every allowed)
    (implies : ∀ operation, allowed operation → weaker operation) :
    program.Every weaker := by
  induction program with
  | pure value => trivial
  | op operation next ih =>
      exact ⟨implies _ every.1, fun answer => ih answer (every.2 answer)⟩
  | go operation next ih => exact ⟨implies _ every.1, ih every.2⟩
  | panic => trivial

theorem every_of_forall (allows : ∀ operation, allowed operation)
    (program : Program interface Value) : program.Every allowed := by
  induction program with
  | pure value => trivial
  | op operation next ih => exact ⟨allows operation, ih⟩
  | go operation next ih => exact ⟨allows operation, ih⟩
  | panic => trivial

/-- The program starts no routine, and every operation it may perform is allowed. -/
def Inline (allowed : interface.Op → Prop) : Program interface Value → Prop
  | .pure _ => True
  | .op operation rest => allowed operation ∧ ∀ answer, (rest answer).Inline allowed
  | .go _ _ => False
  | .panic => True

theorem Inline.every {program : Program interface Value}
    (inline : program.Inline allowed) : program.Every allowed := by
  induction program with
  | pure value => trivial
  | op operation next ih => exact ⟨inline.1, fun answer => ih answer (inline.2 answer)⟩
  | go operation next => exact inline.elim
  | panic => trivial

theorem Inline.bind {program : Program interface Value}
    {rest : Value → Program interface Value'} (inline : program.Inline allowed)
    (after : ∀ value, (rest value).Inline allowed) :
    (program.bind rest).Inline allowed := by
  induction program with
  | pure value => exact after value
  | op operation next ih =>
      exact ⟨inline.1, fun answer => ih answer (inline.2 answer)⟩
  | go operation next => exact inline.elim
  | panic => trivial

/-- Until an operation gets an answer that triggers something, the program starts no
routine, and every operation it may perform is allowed. -/
def InlineUntil (allowed : interface.Op → Prop)
    (triggers : (operation : interface.Op) → interface.Res operation → Prop) :
    Program interface Value → Prop
  | .pure _ => True
  | .op operation rest =>
      allowed operation ∧
        ∀ answer, ¬triggers operation answer → (rest answer).InlineUntil allowed triggers
  | .go _ _ => False
  | .panic => True

/-- The effect of each operation on the memory, with its answer. -/
abbrev Execution (interface : Interface) (Mem : Type) :=
  (operation : interface.Op) → Mem → interface.Res operation × Mem

variable (execute : Execution interface Mem)

/-- Run a program without interference, each routine at the moment it is started.
A panic yields no value. -/
def eval : Program interface Value → Mem → Option Value × Mem
  | .pure value, mem => (some value, mem)
  | .op operation rest, mem =>
      (rest (execute operation mem).1).eval (execute operation mem).2
  | .go operation rest, mem => rest.eval (execute operation mem).2
  | .panic, mem => (none, mem)

/-- After a program that yields a value, the rest runs on from the memory it left. -/
theorem eval_bind {program : Program interface Value}
    {rest : Value → Program interface Value'} {mem after : Mem} {value : Value}
    (evaluates : program.eval execute mem = (some value, after)) :
    (program.bind rest).eval execute mem = (rest value).eval execute after := by
  induction program generalizing mem with
  | pure value =>
      cases evaluates
      rfl
  | op operation next ih => exact ih _ evaluates
  | go operation next ih => exact ih evaluates
  | panic => cases evaluates

/-- The machine whose threads are programs.  A panic ends the thread without a
value. -/
def machine (program : Job → Program interface Value) (elapse : Event → Mem → Mem) :
    Machine Mem Job (Program interface Value) interface.Op (Option Value) Event where
  start := program
  next _ current mem :=
    match current with
    | .pure value => .finish (some value)
    | .op operation rest =>
        .continue (execute operation mem).2 (rest (execute operation mem).1)
    | .go operation rest => .spawn operation rest
    | .panic => .finish none
  fire operation mem := (execute operation mem).2
  elapse := elapse

/-- The next operation that a choice would perform, with the job it is for.
Starting a routine performs nothing yet. -/
def pending {Result : Type}
    (pool : Pool Mem Job (Program interface Value) interface.Op Result) :
    Choice Job Event → Option (Job × interface.Op)
  | .thread index =>
      (pool.threads[index]?).bind fun thread =>
        match thread.state with
        | .op operation _ => some (thread.job, operation)
        | _ => none
  | .routine index => pool.routines[index]?
  | .start _ | .event _ => none

theorem author_of_pending {Result : Type}
    {pool : Pool Mem Job (Program interface Value) interface.Op Result}
    {choice : Choice Job Event} {job : Job} {operation : interface.Op}
    (about : pending pool choice = some (job, operation)) :
    pool.author choice = some job := by
  cases choice with
  | start | event => cases about
  | thread index =>
      rcases Option.bind_eq_some_iff.mp about with ⟨thread, found, doing⟩
      cases state : thread.state with
      | pure | go | panic => simp [state] at doing
      | op operation rest =>
          rw [state] at doing
          cases doing
          simp only [Pool.author, found, Option.map_some]
  | routine index =>
      have found : pool.routines[index]? = some (job, operation) := about
      simp only [Pool.author, found, Option.map_some]

variable {execute}
variable {program : Job → Program interface Value} {elapse : Event → Mem → Mem}

/-- The memory has `property`, and whatever a job may still do is permitted for
it. -/
def permitting (property : Mem → Prop) (permitted : Job → interface.Op → Prop) :
    Outline Mem Job (Program interface Value) interface.Op where
  memory := property
  thread job state _ := state.Every (permitted job)
  routine job operation _ := permitted job operation

/-- If every job admitted to a run only performs operations that are permitted for
it, and those keep a property of the memory, then the property holds throughout the
run, and whatever is still to be done is permitted. -/
theorem permitting_valid {property : Mem → Prop} {admitted : Job → Prop}
    {permitted : Job → interface.Op → Prop}
    (every : ∀ job, admitted job → (program job).Every (permitted job))
    (kept : ∀ job operation mem, permitted job operation → property mem →
      property (execute operation mem).2)
    (elapsed : ∀ event mem, property mem → property (elapse event mem)) :
    (permitting property permitted).Valid (machine execute program elapse)
      fun _ choice => ∀ job, choice = .start job → admitted job := by
  constructor
  · intro pool job _ admits
    exact every job (admits job rfl)
  · intro pool index thread holds _ found
    have thread_every : thread.state.Every (permitted thread.job) :=
      holds.thread thread (List.mem_of_getElem? found)
    cases state : thread.state with
    | pure value => exact trivial
    | op operation rest =>
        rw [state] at thread_every
        exact ⟨kept _ _ _ thread_every.1 holds.memory, thread_every.2 _,
          fun _ _ _ _ kept => kept, fun _ _ kept => kept⟩
    | go operation rest =>
        rw [state] at thread_every
        exact ⟨thread_every.2, thread_every.1⟩
    | panic => exact trivial
  · intro pool index job routine holds _ found
    exact ⟨kept _ _ _ (holds.routine _ (List.mem_of_getElem? found)) holds.memory,
      holds.thread,
      fun entry member => holds.routine entry (List.mem_of_mem_eraseIdx member)⟩
  · intro pool event holds _
    exact ⟨elapsed event _ holds.memory, holds.thread, holds.routine⟩

/-- What a choice is about to perform is permitted. -/
theorem permitted_of_pending {property : Mem → Prop}
    {permitted : Job → interface.Op → Prop} {Result : Type}
    {pool : Pool Mem Job (Program interface Value) interface.Op Result}
    (holds : (permitting property permitted).Holds pool) {choice : Choice Job Event}
    {job : Job} {operation : interface.Op}
    (about : pending pool choice = some (job, operation)) : permitted job operation := by
  cases choice with
  | start | event => simp [pending] at about
  | thread index =>
      obtain ⟨thread, found, doing⟩ := Option.bind_eq_some_iff.mp about
      have thread_every : thread.state.Every (permitted thread.job) :=
        holds.thread thread (List.mem_of_getElem? found)
      cases state : thread.state with
      | pure | go | panic => simp [state] at doing
      | op operation rest =>
          rw [state] at thread_every doing
          cases doing
          exact thread_every.1
  | routine index => exact holds.routine _ (List.mem_of_getElem? about)

variable {guard : Pool Mem Job (Program interface Value) interface.Op (Option Value) →
  Choice Job Event → Prop}
variable {mem : Mem}
variable {pool : Pool Mem Job (Program interface Value) interface.Op (Option Value)}

/-- A run of admitted jobs keeps the property and what is permitted. -/
theorem permitting_of_reaches {property : Mem → Prop} {admitted : Job → Prop}
    {permitted : Job → interface.Op → Prop}
    (every : ∀ job, admitted job → (program job).Every (permitted job))
    (kept : ∀ job operation mem, permitted job operation → property mem →
      property (execute operation mem).2)
    (elapsed : ∀ event mem, property mem → property (elapse event mem))
    (admits : ∀ pool job, guard pool (.start job) → admitted job) (initial : property mem)
    (reaches : (machine execute program elapse).Reaches guard (Pool.idle mem) pool) :
    (permitting property permitted).Holds pool := by
  have starts : ∀ pool choice, guard pool choice →
      ∀ job, choice = .start job → admitted job := by
    intro pool choice guarded job started
    subst started
    exact admits pool job guarded
  exact (permitting_valid every kept elapsed).reaches (reaches.mono starts)
    (Outline.holds_idle _ initial)

/-- Throughout a run, no job is about to perform an operation that its program does not
permit. -/
theorem permitted_of_reaches {permitted : Job → interface.Op → Prop}
    (every : ∀ job, (program job).Every (permitted job))
    (reaches : (machine execute program elapse).Reaches guard (Pool.idle mem) pool)
    {choice : Choice Job Event} {job : Job} {operation : interface.Op}
    (about : pending pool choice = some (job, operation)) : permitted job operation := by
  have holds : (permitting (fun _ : Mem => True) permitted).Holds pool :=
    permitting_of_reaches (fun job (_ : True) => every job) (fun _ _ _ _ _ => trivial)
      (fun _ _ _ => trivial) (fun _ _ _ => trivial) trivial reaches
  exact permitted_of_pending holds about

/-- A step that changes the memory performs an operation, unless it is an event. -/
theorem pending_of_mem_ne
    {source target : Pool Mem Job (Program interface Value) interface.Op (Option Value)}
    {choice : Choice Job Event}
    (stepped : (machine execute program elapse).step source choice = some target)
    (internal : ∀ event, choice ≠ .event event) (changed : target.mem ≠ source.mem) :
    ∃ job operation, pending source choice = some (job, operation) ∧
      target.mem = (execute operation source.mem).2 := by
  obtain ⟨job, rfl, rfl⟩ | ⟨index, thread, rfl, found, rfl⟩ |
    ⟨index, job, routine, rfl, found, rfl⟩ | ⟨event, rfl, rfl⟩ :=
    Machine.step_cases stepped
  · exact absurd rfl changed
  · cases state : thread.state with
    | pure | go | panic => simp [machine, state, Pool.advance] at changed
    | op operation rest =>
        refine ⟨thread.job, operation, ?_, ?_⟩
        · simp only [pending, found, Option.bind_some, state]
        · simp only [machine, Pool.advance]
  · exact ⟨job, routine, found, rfl⟩
  · exact absurd rfl (internal event)

end Program

end CloudRunSsh.Concurrency
