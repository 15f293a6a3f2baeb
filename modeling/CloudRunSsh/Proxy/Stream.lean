import CloudRunSsh.Data.Writers
import CloudRunSsh.Proxy.Responses

/-!
# The stream of a listing

A listing is sent as JSON, one document on a line, so that a client can read what has arrived
before the listing is complete.
-/

namespace CloudRunSsh.Proxy

open JSON

section Documents

-- `MarshalJSON` of a `time.Time` puts its text between quotation marks
variable (formatTime : Time → String)

mutual

/-- What `json.Marshal` writes. -/
def Json.document : Json → Document
  | .null => .null
  | .bool value => .bool value
  | .num value => .int value
  | .str value => .string (.ofText value)
  | .time value => .string (.ofText (formatTime value))
  | .arr values => .array (documents values)
  | .obj fields => .object (members fields)

def Json.documents : List Json → List Document
  | [] => []
  | value :: values => value.document :: documents values

def Json.members : List (String × Json) → List (PyString × Document)
  | [] => []
  | (name, value) :: fields => (.ofText name, value.document) :: members fields

end

/-- What a write puts on the wire.  `Encoder.Encode` ends a document with a newline. -/
def Chunk.encoded : Chunk → PyString
  | .text content => .ofText content
  | .json document => marshalStyle.line (document.document formatTime)

/-- The body of a response that is encoded by `Encode`. -/
def Context.stream (c : Context) : PyString := c.writer.body.flatMap (Chunk.encoded formatTime)

/-- What a line is read as. -/
def listedAs (index : Nat) (config : ServerlessInstance) : Value :=
  .object [(.ofText "index", .int index),
    (.ofText "instance", .object [(.ofText "project", .string (.ofText config.project)),
      (.ofText "region", .string (.ofText config.region)),
      (.ofText "service", .string (.ofText config.service)),
      (.ofText "revision", .string (.ofText config.revision)),
      (.ofText "instance", .string (.ofText config.id)),
      (.ofText "tunnel", .string (.ofText config.tunnel)),
      (.ofText "ping", .string (.ofText (formatTime config.lastPing)))])]

end Documents

section Stream

variable {formatTime : Time → String} {c : Context}

theorem joined_ofText (text : String) : Joined (.ofText text) := by
  refine joined_of_valid fun symbol member => ?_
  obtain ⟨char, _, rfl⟩ := List.mem_map.mp member
  exact char.valid

theorem Json.members_eq_map (fields : List (String × Json)) :
    Json.members formatTime fields =
      fields.map fun field => (.ofText field.1, field.2.document formatTime) := by
  induction fields with
  | nil => rw [Json.members, List.map_nil]
  | cons field fields ih => rw [Json.members, ih, List.map_cons]

/-- An object whose names are known. -/
theorem fits_obj {digits depth : Nat} {fields : List (String × Json)} (names : List String)
    (same : fields.map Prod.fst = names) (distinct : (names.map PyString.ofText).Nodup)
    (fits : ∀ field ∈ fields, (field.2.document formatTime).Fits digits depth) :
    ((Json.obj fields).document formatTime).Fits digits (depth + 1) := by
  subst same
  rw [Json.document, Json.members_eq_map]
  refine .object ?_ (List.forall_mem_map.mpr fun field _ => joined_ofText field.1)
    (List.forall_mem_map.mpr fits)
  rwa [List.map_map] at distinct ⊢

theorem fits_toJson (digits : Nat) (config : ServerlessInstance) :
    (config.toJson.document formatTime).Fits digits 1 := by
  refine fits_obj ["project", "region", "service", "revision", "instance", "tunnel", "ping"] rfl
    (by decide) ?_
  have text (text : String) : ((Json.str text).document formatTime).Fits digits 0 := by
    rw [Json.document]
    exact .string (joined_ofText text)
  simp only [List.forall_mem_cons, List.not_mem_nil, false_imp_iff, implies_true, and_true]
  refine ⟨text _, text _, text _, text _, text _, text _, ?_⟩
  rw [Json.document]
  exact .string (joined_ofText _)

theorem fits_ingressLine (index : Nat) (config : ServerlessInstance) :
    ∃ digits depth, ((ingressLine index config).document formatTime).Fits digits depth := by
  refine ⟨(PyString.decimalText index).length, 2, fits_obj ["index", "instance"] rfl (by decide)
    (List.forall_mem_cons.mpr ⟨?_, List.forall_mem_singleton.mpr (fits_toJson _ config)⟩)⟩
  rw [Json.document]
  exact .int (Nat.le_refl _)

theorem value_ingressLine (index : Nat) (config : ServerlessInstance) :
    ((ingressLine index config).document formatTime).value = listedAs formatTime index config := by
  simp only [ingressLine, ServerlessInstance.toJson, Json.document, Json.members, Document.value,
    Document.fields, listedAs]

/-- The body of a listing has a line for each instance. -/
theorem stream_sendIngressResponse (untouched : c.Untouched)
    (instances : List ServerlessInstance) :
    (sendIngressResponse c instances).stream formatTime =
      (instances.zipIdx.map fun entry =>
        (ingressLine entry.2 entry.1).document formatTime).flatMap marshalStyle.line := by
  rw [Context.stream, sendIngressResponse]
  split
  · rename_i empty
    rw [List.length_eq_zero_iff.mp empty, Context.body_status, untouched.body]
    rfl
  · rw [body_foldl_write instances.zipIdx fun entry => Chunk.json (ingressLine entry.2 entry.1)]
    simp only [Context.body_writeHeaderNow, Context.body_header, Context.body_status,
      untouched.body, List.nil_append, List.flatMap_map]
    rfl

theorem sent_foldl_write {Entry : Type} (entries : List Entry) (chunk : Entry → Chunk)
    {c : Context} {sent : Nat × Dict String String} (already : c.writer.sent = some sent) :
    (entries.foldl (fun c entry => c.write (chunk entry)) c).writer.sent = some sent := by
  induction entries generalizing c with
  | nil => exact already
  | cons entry entries ih =>
      refine ih ?_
      simp [Context.write, Writer.write, Writer.writeHeaderNow, Writer.written, already]

theorem sent_writeHeaderNow {c : Context} (unsent : c.writer.sent = none) :
    c.writeHeaderNow.writer.sent = some (c.writer.status, c.writer.header) := by
  rw [Context.writeHeaderNow, Writer.writeHeaderNow, Writer.written, unsent]
  rfl

/-- The headers of a listing tell how many instances there are. -/
theorem sent_sendIngressResponse (untouched : c.Untouched) {instances : List ServerlessInstance}
    (some : instances ≠ []) :
    ∃ header, (sendIngressResponse c instances).writer.sent = .some (200, header) ∧
      header.lookup xServerlessSSHContentLength = .some (toString instances.length) := by
  have length : instances.length ≠ 0 := mt List.length_eq_zero_iff.mp some
  have written : (toString instances.length == "") = false :=
    beq_eq_false_iff_ne.mpr Nat.repr_ne_empty
  let chosen : Context := (((c.status 200).header "transfer-encoding" "chunked").header
    "content-type" "application/json").header xServerlessSSHContentLength
      (toString instances.length)
  have unsent : chosen.writer.sent = none := (Context.sent_status c 200).trans untouched.sent
  have status : chosen.writer.status = 200 := Context.status_status untouched.sent (by decide)
  have found : chosen.writer.header.lookup xServerlessSSHContentLength =
      .some (toString instances.length) := by
    dsimp only [chosen, Context.header, Writer.setHeader]
    rw [written]
    exact AList.lookup_insert _
  rw [sendIngressResponse, if_neg length]
  refine ⟨chosen.writer.header, (sent_foldl_write instances.zipIdx
    (fun entry => Chunk.json (ingressLine entry.2 entry.1)) (sent_writeHeaderNow unsent)).trans ?_,
    found⟩
  rw [status]

/-- However much of a listing has arrived, the lines that are complete are read as the first
instances, each with its number.  The listing is complete when there are as many lines as the
header says. -/
theorem ingress_streamed (untouched : c.Untouched) (instances : List ServerlessInstance) :
    (∀ received, received <+: (sendIngressResponse c instances).stream formatTime →
      (completeLines received).map parse =
        (instances.zipIdx.take (received.count newline)).map fun entry =>
          some (listedAs formatTime entry.2 entry.1)) ∧
      ((sendIngressResponse c instances).stream formatTime).count newline = instances.length ∧
      (instances ≠ [] → ∃ header,
        (sendIngressResponse c instances).writer.sent = some (200, header) ∧
          header.lookup xServerlessSSHContentLength = some (toString instances.length)) := by
  have fits : ∀ document ∈ instances.zipIdx.map fun entry =>
      (ingressLine entry.2 entry.1).document formatTime,
        ∃ digits depth, document.Fits digits depth :=
    List.forall_mem_map.mpr fun entry _ => fits_ingressLine entry.2 entry.1
  rw [stream_sendIngressResponse untouched]
  refine ⟨fun received arrived => ?_, ?_, sent_sendIngressResponse untouched⟩
  · rw [parse_completeLines (List.forall_mem_nil _) fits arrived, ← List.map_take, List.map_map]
    refine List.map_congr_left fun entry _ => ?_
    exact congrArg some (value_ingressLine entry.2 entry.1)
  · rw [count_newline (List.forall_mem_nil _) fits, List.length_map, List.length_zipIdx]

end Stream

/-- Of a listing of two instances, what has arrived with one complete line is read as the first
instance, and the whole as both. -/
theorem ingress_streamed_pair :
    let c : Context := { request := ⟨.get, "", [], []⟩ }
    let first : ServerlessInstance := ⟨"p", "r", "s", "v", "i", "t", 0⟩
    let second : ServerlessInstance := ⟨"p", "r", "s", "w", "<j>", "u", 1⟩
    let listing := sendIngressResponse c [first, second]
    let formatTime (time : Time) := toString time
    (∀ received, received <+: listing.stream formatTime → received.count newline = 1 →
      (completeLines received).map parse = [some (listedAs formatTime 0 first)]) ∧
      (completeLines (listing.stream formatTime)).map parse =
        [some (listedAs formatTime 0 first), some (listedAs formatTime 1 second)] ∧
      ∃ header, listing.writer.sent = some (200, header) ∧
        header.lookup xServerlessSSHContentLength = some "2" := by
  intro c first second listing formatTime
  obtain ⟨read, whole, sent⟩ := @ingress_streamed formatTime c rfl [first, second]
  have length : [first, second].length = 2 := rfl
  have announced : toString 2 = "2" := by decide
  rw [length, announced] at sent
  refine ⟨fun received arrived one => ?_, ?_, sent (List.cons_ne_nil _ _)⟩
  · rw [read received arrived, one]
    rfl
  · rw [read _ (List.prefix_refl _), whole]
    rfl

end CloudRunSsh.Proxy
