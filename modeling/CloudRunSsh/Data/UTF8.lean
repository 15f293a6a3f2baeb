import CloudRunSsh.Data.TextDecoder

/-!
# The UTF-8 decoder

The decoder of the WHATWG Encoding Standard.  A byte that cannot continue the character
in progress ends it with a replacement character and is read again.
-/

namespace CloudRunSsh.UTF8

/-- `U+FFFD`. -/
def replacement : Char := Char.ofNat 0xFFFD

/-- `U+FEFF`. -/
def byteOrderMark : Char := Char.ofNat 0xFEFF

/-- A character in progress. -/
structure Pending where
  codePoint : Nat
  bytesNeeded : Nat
  bytesSeen : Nat
  lowerBoundary : Nat
  upperBoundary : Nat
  boundaries : 0x80 ≤ lowerBoundary ∧ upperBoundary ≤ 0xBF

namespace Pending

variable (pending : Pending)

/-- The code point with six more bits. -/
def shift (byte : UInt8) : Nat := pending.codePoint * 0x40 + byte.toNat % 0x40

/-- The character with one more byte. -/
def more (byte : UInt8) : Pending where
  codePoint := pending.shift byte
  bytesNeeded := pending.bytesNeeded
  bytesSeen := pending.bytesSeen + 1
  lowerBoundary := 0x80
  upperBoundary := 0xBF
  boundaries := by decide

end Pending

/-- A character of two bytes, of three, and of four, after its first byte. -/
def twoBytes (first : UInt8) : Pending :=
  ⟨first.toNat % 0x20, 1, 0, 0x80, 0xBF, by decide⟩

@[inherit_doc twoBytes]
def threeBytes (first : UInt8) : Pending :=
  ⟨first.toNat % 0x10, 2, 0, if first.toNat = 0xE0 then 0xA0 else 0x80,
    if first.toNat = 0xED then 0x9F else 0xBF, by split <;> split <;> decide⟩

@[inherit_doc twoBytes]
def fourBytes (first : UInt8) : Pending :=
  ⟨first.toNat % 0x08, 3, 0, if first.toNat = 0xF0 then 0x90 else 0x80,
    if first.toNat = 0xF4 then 0x8F else 0xBF, by split <;> split <;> decide⟩

/-- The first byte of a character. -/
def start (byte : UInt8) : Option Pending × List Char :=
  if byte.toNat ≤ 0x7F then (none, [Char.ofNat byte.toNat])
  else if 0xC2 ≤ byte.toNat ∧ byte.toNat ≤ 0xDF then (some (twoBytes byte), [])
  else if 0xE0 ≤ byte.toNat ∧ byte.toNat ≤ 0xEF then (some (threeBytes byte), [])
  else if 0xF0 ≤ byte.toNat ∧ byte.toNat ≤ 0xF4 then (some (fourBytes byte), [])
  else (none, [replacement])

/-- The byte belongs to the character in progress. -/
def continues : Option Pending → UInt8 → Bool
  | none, _ => false
  | some pending, byte =>
      pending.lowerBoundary ≤ byte.toNat && byte.toNat ≤ pending.upperBoundary

theorem continues_iff {pending : Pending} {byte : UInt8} :
    continues (some pending) byte = true ↔
      pending.lowerBoundary ≤ byte.toNat ∧ byte.toNat ≤ pending.upperBoundary := by
  simp [continues]

def step : Option Pending → UInt8 → Option Pending × List Char
  | none, byte => start byte
  | some pending, byte =>
      if continues (some pending) byte then
        if pending.bytesSeen + 1 ≠ pending.bytesNeeded then (some (pending.more byte), [])
        else (none, [Char.ofNat (pending.shift byte)])
      else ((start byte).1, replacement :: (start byte).2)

/-- At the end of the stream a character in progress is an error. -/
def flush : Option Pending → List Char
  | none => []
  | some _ => [replacement]

theorem step_of_continues {pending : Pending} {byte : UInt8}
    (continued : continues (some pending) byte = true) :
    step (some pending) byte =
      if pending.bytesSeen + 1 ≠ pending.bytesNeeded then (some (pending.more byte), [])
      else (none, [Char.ofNat (pending.shift byte)]) := if_pos continued

theorem step_of_not_continues {pending : Pending} {byte : UInt8}
    (ends : continues (some pending) byte = false) :
    step (some pending) byte = ((start byte).1, replacement :: (start byte).2) :=
  if_neg (by rw [ends]; decide)

def decoder : Decoder UInt8 Char where
  State := Option Pending
  initial := none
  step := step
  flush := flush
  continues := continues
  flush_initial := rfl
  restarts := by
    intro state byte ends
    cases state with
    | none => rfl
    | some pending => exact step_of_not_continues ends

/-- What continues a character is a continuation byte, which begins none. -/
theorem start_of_continues {state : Option Pending} {byte : UInt8}
    (continued : continues state byte = true) : start byte = (none, [replacement]) := by
  cases state with
  | none => cases continued
  | some pending =>
      have boundaries := pending.boundaries
      have within := continues_iff.mp continued
      rw [start, if_neg (by omega), if_neg (by omega), if_neg (by omega), if_neg (by omega)]

theorem decoder_synchronizing : decoder.Synchronizing replacement := by
  constructor
  · exact start_of_continues
  · intro state byte continued
    cases state with
    | none => cases continued
    | some pending =>
        have stepped : decoder.step (some pending) byte = _ := step_of_continues continued
        rw [stepped]
        split
        · exact .inl rfl
        · exact .inr ⟨_, rfl⟩
  · intro state byte continued
    cases state with
    | none => cases continued
    | some pending => rfl
  · intro state
    cases state with
    | none => exact Nat.zero_le 1
    | some pending => exact Nat.le_refl 1

theorem ofNat_eq_byteOrderMark {code : Nat} :
    Char.ofNat code = byteOrderMark ↔ code = 0xFEFF := by
  constructor
  · intro same
    by_cases valid : code.isValidChar
    · have codes := congrArg Char.toNat same
      rw [Char.ofNat, dif_pos valid] at codes
      exact codes
    · rw [Char.ofNat, dif_neg valid] at same
      exact absurd same (by decide)
  · rintro rfl
    rfl

section Heads

variable {pending : Pending} {byte : UInt8} {rest : List UInt8}

theorem decodeFrom_cons (state : Option Pending) (byte : UInt8) (rest : List UInt8) :
    decoder.decodeFrom state (byte :: rest) =
      (step state byte).2 ++ decoder.decodeFrom (step state byte).1 rest := rfl

theorem decodeFrom_of_not_continues (ends : continues (some pending) byte = false) :
    decoder.decodeFrom (some pending) (byte :: rest) =
      replacement :: decoder.decode (byte :: rest) := by
  rw [decodeFrom_cons, step_of_not_continues ends]
  rfl

theorem decodeFrom_of_more (continued : continues (some pending) byte = true)
    (needed : pending.bytesSeen + 1 ≠ pending.bytesNeeded) :
    decoder.decodeFrom (some pending) (byte :: rest) =
      decoder.decodeFrom (some (pending.more byte)) rest := by
  rw [decodeFrom_cons, step_of_continues continued, if_pos needed]
  rfl

theorem decodeFrom_of_last (continued : continues (some pending) byte = true)
    (last : pending.bytesSeen + 1 = pending.bytesNeeded) :
    decoder.decodeFrom (some pending) (byte :: rest) =
      Char.ofNat (pending.shift byte) :: decoder.decode rest := by
  rw [decodeFrom_cons, step_of_continues continued, if_neg (not_not.mpr last)]
  rfl

/-- A character in progress always gives output. -/
theorem decodeFrom_some_ne_nil (pending : Pending) (stream : List UInt8) :
    decoder.decodeFrom (some pending) stream ≠ [] := by
  induction stream generalizing pending with
  | nil => nofun
  | cons byte rest ih =>
      cases continued : continues (some pending) byte with
      | false =>
          rw [decodeFrom_of_not_continues continued]
          nofun
      | true =>
          by_cases last : pending.bytesSeen + 1 = pending.bytesNeeded
          · rw [decodeFrom_of_last continued last]
            nofun
          · rw [decodeFrom_of_more continued last]
            exact ih _

/-- A character in progress that becomes the mark goes on. -/
theorem exists_of_marked {stream : List UInt8}
    (marked : (decoder.decodeFrom (some pending) stream).head? = some byteOrderMark) :
    ∃ byte rest, stream = byte :: rest ∧ continues (some pending) byte = true := by
  cases stream with
  | nil => exact absurd (Option.some.inj marked) (by decide)
  | cons byte rest =>
      cases continued : continues (some pending) byte with
      | false =>
          rw [decodeFrom_of_not_continues continued] at marked
          exact absurd (Option.some.inj marked) (by decide)
      | true => exact ⟨byte, rest, rfl, continued⟩

theorem more_of_marked (needed : pending.bytesSeen + 1 ≠ pending.bytesNeeded)
    {stream : List UInt8}
    (marked : (decoder.decodeFrom (some pending) stream).head? = some byteOrderMark) :
    ∃ byte rest, stream = byte :: rest ∧ continues (some pending) byte = true ∧
      (decoder.decodeFrom (some (pending.more byte)) rest).head? = some byteOrderMark := by
  obtain ⟨byte, rest, rfl, continued⟩ := exists_of_marked marked
  rw [decodeFrom_of_more continued needed] at marked
  exact ⟨byte, rest, rfl, continued, marked⟩

theorem last_of_marked (last : pending.bytesSeen + 1 = pending.bytesNeeded)
    {stream : List UInt8}
    (marked : (decoder.decodeFrom (some pending) stream).head? = some byteOrderMark) :
    ∃ byte rest, stream = byte :: rest ∧ continues (some pending) byte = true ∧
      pending.shift byte = 0xFEFF := by
  obtain ⟨byte, rest, rfl, continued⟩ := exists_of_marked marked
  rw [decodeFrom_of_last continued last] at marked
  exact ⟨byte, rest, rfl, continued, ofNat_eq_byteOrderMark.mp (Option.some.inj marked)⟩

end Heads

theorem decode_ne_nil {stream : List UInt8} (filled : stream ≠ []) :
    decoder.decode stream ≠ [] := by
  cases stream with
  | nil => exact absurd rfl filled
  | cons byte rest =>
      change (start byte).2 ++ decoder.decodeFrom (start byte).1 rest ≠ []
      rw [start]
      split
      · nofun
      · split
        · exact decodeFrom_some_ne_nil _ rest
        · split
          · exact decodeFrom_some_ne_nil _ rest
          · split
            · exact decodeFrom_some_ne_nil _ rest
            · nofun

theorem not_marked_twoBytes (first : UInt8) (rest : List UInt8) :
    (decoder.decodeFrom (some (twoBytes first)) rest).head? ≠ some byteOrderMark := by
  intro marked
  obtain ⟨second, rest, rfl, _, code⟩ := last_of_marked rfl marked
  simp only [twoBytes, Pending.shift] at code
  omega

theorem prefix_of_marked_threeBytes {first : UInt8} {rest : List UInt8}
    (lead : 0xE0 ≤ first.toNat ∧ first.toNat ≤ 0xEF)
    (marked : (decoder.decodeFrom (some (threeBytes first)) rest).head? =
      some byteOrderMark) : [0xEF, 0xBB, 0xBF] <+: first :: rest := by
  have needed : (threeBytes first).bytesSeen + 1 ≠ (threeBytes first).bytesNeeded := by
    simp [threeBytes]
  obtain ⟨second, rest, rfl, continued, marked⟩ := more_of_marked needed marked
  obtain ⟨third, rest, rfl, continued', code⟩ := last_of_marked rfl marked
  have within := continues_iff.mp continued
  have within' := continues_iff.mp continued'
  simp only [threeBytes, Pending.more, Pending.shift] at within within' code
  have lower : 0x80 ≤ second.toNat := by
    have least := within.1
    split at least <;> omega
  have upper : second.toNat ≤ 0xBF := by
    have most := within.2
    split at most <;> omega
  have bytes : first.toNat = 0xEF ∧ second.toNat = 0xBB ∧ third.toNat = 0xBF := by omega
  have same : first = 0xEF ∧ second = 0xBB ∧ third = 0xBF :=
    ⟨UInt8.toNat_inj.mp bytes.1, UInt8.toNat_inj.mp bytes.2.1, UInt8.toNat_inj.mp bytes.2.2⟩
  rw [same.1, same.2.1, same.2.2]
  exact List.prefix_append _ rest

theorem not_marked_fourBytes {first : UInt8} {rest : List UInt8}
    (lead : 0xF0 ≤ first.toNat ∧ first.toNat ≤ 0xF4) :
    (decoder.decodeFrom (some (fourBytes first)) rest).head? ≠ some byteOrderMark := by
  intro marked
  have needed : (fourBytes first).bytesSeen + 1 ≠ (fourBytes first).bytesNeeded := by
    simp [fourBytes]
  obtain ⟨second, rest, rfl, continued, marked⟩ := more_of_marked needed marked
  have needed' : ((fourBytes first).more second).bytesSeen + 1 ≠
      ((fourBytes first).more second).bytesNeeded := by
    simp [fourBytes, Pending.more]
  obtain ⟨third, rest, rfl, _, marked⟩ := more_of_marked needed' marked
  obtain ⟨fourth, rest, rfl, _, code⟩ := last_of_marked rfl marked
  have within := continues_iff.mp continued
  simp only [fourBytes, Pending.more, Pending.shift] at within code
  -- the lower boundary after `F0` keeps the code point above `FFFF`
  have least : first.toNat = 0xF0 → 0x90 ≤ second.toNat := by
    intro same
    have lower := within.1
    rw [if_pos same] at lower
    exact lower
  have most : second.toNat ≤ 0xBF := by
    have upper := within.2
    split at upper <;> omega
  omega

/-- Only the three bytes of the mark are read as the mark. -/
theorem head?_decode_iff (stream : List UInt8) :
    (decoder.decode stream).head? = some byteOrderMark ↔ [0xEF, 0xBB, 0xBF] <+: stream := by
  constructor
  · intro marked
    cases stream with
    | nil => cases marked
    | cons first rest =>
        change ((start first).2 ++ decoder.decodeFrom (start first).1 rest).head? = _ at marked
        rw [start] at marked
        split at marked
        · have small := ofNat_eq_byteOrderMark.mp (Option.some.inj marked)
          omega
        · split at marked
          · exact absurd marked (not_marked_twoBytes first rest)
          · split at marked
            · exact prefix_of_marked_threeBytes ‹_› marked
            · split at marked
              · exact absurd marked (not_marked_fourBytes ‹_›)
              · exact absurd (Option.some.inj marked) (by decide)
  · rintro ⟨rest, rfl⟩
    rfl

/-- The encoding, with its byte order mark. -/
def encoding : Encoding UInt8 Char where
  toDecoder := decoder
  mark := byteOrderMark
  written := some [0xEF, 0xBB, 0xBF]
  reads := by
    intro bytes member stream
    cases member
    exact head?_decode_iff stream
  fills := fun _ _ filled => decode_ne_nil filled

theorem encoding_selfSynchronizing : encoding.SelfSynchronizing :=
  ⟨replacement, by decide, decoder_synchronizing⟩

end CloudRunSsh.UTF8
