import Mathlib.Data.List.Basic

/-!
# Decoding a stream in pieces

A decoder reads a stream symbol by symbol and gives its last output at the end of the
stream.  Decoding a stream piece by piece, each piece as a stream of its own, gives the
same output if no cut falls into a character.  For decoders in which what continues a
character can never begin one, this is also necessary.
-/

namespace CloudRunSsh

/-- A decoder.  A symbol that does not continue the character in progress is read again
from the initial state, after what the end of the stream gives. -/
structure Decoder (Symbol Output : Type) where
  State : Type
  initial : State
  step : State → Symbol → State × List Output
  flush : State → List Output
  continues : State → Symbol → Bool
  flush_initial : flush initial = []
  restarts : ∀ state symbol, continues state symbol = false →
    step state symbol =
      ((step initial symbol).1, flush state ++ (step initial symbol).2)

namespace Decoder

variable {Symbol Output : Type} (decoder : Decoder Symbol Output)

/-- The rest of a stream, up to its end. -/
def decodeFrom : decoder.State → List Symbol → List Output
  | state, [] => decoder.flush state
  | state, symbol :: rest =>
      (decoder.step state symbol).2 ++ decodeFrom (decoder.step state symbol).1 rest

/-- A whole stream. -/
def decode (stream : List Symbol) : List Output := decoder.decodeFrom decoder.initial stream

/-- The state after a part of a stream. -/
def reach (state : decoder.State) (part : List Symbol) : decoder.State :=
  part.foldl (fun state symbol => (decoder.step state symbol).1) state

/-- No piece begins with a symbol that continues a character of the piece before it. -/
def WellCut : List (List Symbol) → Prop
  | first :: second :: rest =>
      (∀ symbol ∈ second.head?,
        decoder.continues (decoder.reach decoder.initial first) symbol = false) ∧
        WellCut (second :: rest)
  | [_] | [] => True

theorem decode_nil : decoder.decode [] = [] := decoder.flush_initial

/-- Where a symbol does not continue a character, the stream begins anew. -/
theorem decodeFrom_append {state : decoder.State} {first rest : List Symbol} {symbol : Symbol}
    (cut : decoder.continues (decoder.reach state first) symbol = false) :
    decoder.decodeFrom state (first ++ symbol :: rest) =
      decoder.decodeFrom state first ++ decoder.decode (symbol :: rest) := by
  induction first generalizing state with
  | nil =>
      change decoder.continues state symbol = false at cut
      change decoder.decodeFrom state (symbol :: rest) =
        decoder.flush state ++ decoder.decodeFrom decoder.initial (symbol :: rest)
      rw [decodeFrom, decodeFrom, decoder.restarts state symbol cut, List.append_assoc]
  | cons head tail ih =>
      rw [List.cons_append, decodeFrom, ih cut, decodeFrom, List.append_assoc]

/-- Well-cut pieces are decoded one by one. -/
theorem decode_flatten {pieces : List (List Symbol)} (wellCut : decoder.WellCut pieces)
    (filled : ∀ piece ∈ pieces, piece ≠ []) :
    decoder.decode pieces.flatten = (pieces.map decoder.decode).flatten := by
  induction pieces with
  | nil => exact decoder.decode_nil
  | cons first others ih =>
      cases others with
      | nil => simp
      | cons second rest =>
          have later := ih wellCut.2 fun piece member =>
            filled piece (List.mem_cons_of_mem _ member)
          cases second with
          | nil => exact absurd rfl (filled [] (by simp))
          | cons symbol tail =>
              rw [List.flatten_cons, List.map_cons]
              change _ = decoder.decode first ++ (List.map _ _).flatten
              rw [← later]
              exact decoder.decodeFrom_append (wellCut.1 symbol rfl)

/-- What continues a character is an error by itself, and a character gives one output,
which is an error at the end of the stream. -/
structure Synchronizing (error : Output) : Prop where
  orphan : ∀ {state symbol}, decoder.continues state symbol = true →
    decoder.step decoder.initial symbol = (decoder.initial, [error])
  completes : ∀ {state symbol}, decoder.continues state symbol = true →
    (decoder.step state symbol).2 = [] ∨
      ∃ output, decoder.step state symbol = (decoder.initial, [output])
  unfinished : ∀ {state symbol}, decoder.continues state symbol = true →
    decoder.flush state = [error]
  flush_le : ∀ state, (decoder.flush state).length ≤ 1

namespace Synchronizing

variable {decoder} {error : Output} (synchronizing : decoder.Synchronizing error)
variable {counts : Output → Bool} (counted : counts error = true)

include synchronizing

theorem countP_flush_le (state : decoder.State) :
    (decoder.flush state).countP counts ≤ 1 :=
  Nat.le_trans List.countP_le_length (synchronizing.flush_le state)

include counted

theorem countP_orphan {state : decoder.State} {symbol : Symbol} {rest : List Symbol}
    (continues : decoder.continues state symbol = true) :
    (decoder.decode (symbol :: rest)).countP counts =
      1 + (decoder.decode rest).countP counts := by
  rw [decode, decodeFrom, synchronizing.orphan continues, List.countP_append,
    List.countP_singleton, if_pos counted]
  rfl

/-- A character in progress gives at most one output more than the rest by itself, and
none if the rest continues it. -/
theorem countP_decodeFrom_le (state : decoder.State) (rest : List Symbol) :
    (decoder.decodeFrom state rest).countP counts ≤
        1 + (decoder.decode rest).countP counts ∧
      ∀ symbol ∈ rest.head?, decoder.continues state symbol = true →
        (decoder.decodeFrom state rest).countP counts ≤
          (decoder.decode rest).countP counts := by
  induction rest generalizing state with
  | nil =>
      constructor
      · exact Nat.le_trans (synchronizing.countP_flush_le state) (Nat.le_add_right _ _)
      · nofun
  | cons symbol rest ih =>
      have continued (continues : decoder.continues state symbol = true) :
          (decoder.decodeFrom state (symbol :: rest)).countP counts ≤
            (decoder.decode (symbol :: rest)).countP counts := by
        rw [synchronizing.countP_orphan counted continues, decodeFrom, List.countP_append]
        rcases synchronizing.completes continues with silent | ⟨output, stepped⟩
        · rw [silent, List.countP_nil, Nat.zero_add]
          exact (ih _).1
        · rw [stepped]
          apply Nat.add_le_add_right
          exact List.countP_le_length
      constructor
      · cases continues : decoder.continues state symbol with
        | true => exact Nat.le_trans (continued continues) (Nat.le_add_left _ _)
        | false =>
            have split : decoder.decodeFrom state ([] ++ symbol :: rest) = _ :=
              decoder.decodeFrom_append continues
            rw [List.nil_append] at split
            rw [split, List.countP_append]
            exact Nat.add_le_add_right (synchronizing.countP_flush_le state) _
      · intro other head continues
        cases head
        exact continued continues

/-- A cut into a character makes more output. -/
theorem countP_cut {state : decoder.State} {first rest : List Symbol} {symbol : Symbol}
    (cut : decoder.continues (decoder.reach state first) symbol = true) :
    (decoder.decodeFrom state (first ++ symbol :: rest)).countP counts <
      (decoder.decodeFrom state first).countP counts +
        (decoder.decode (symbol :: rest)).countP counts := by
  induction first generalizing state with
  | nil =>
      change decoder.continues state symbol = true at cut
      have bound := (synchronizing.countP_decodeFrom_le counted state (symbol :: rest)).2
        symbol rfl cut
      rw [List.nil_append, decodeFrom, synchronizing.unfinished cut, List.countP_singleton,
        if_pos counted]
      exact Nat.lt_of_le_of_lt bound (by omega)
  | cons head tail ih =>
      have later := @ih (decoder.step state head).1 cut
      rw [List.cons_append, decodeFrom, decodeFrom, List.countP_append, List.countP_append]
      omega

/-- Pieces make at least as much output as the stream, and more unless they are well cut. -/
theorem countP_flatten {pieces : List (List Symbol)} (filled : ∀ piece ∈ pieces, piece ≠ []) :
    (decoder.decode pieces.flatten).countP counts ≤
        ((pieces.map decoder.decode).flatten).countP counts ∧
      ((decoder.decode pieces.flatten).countP counts =
        ((pieces.map decoder.decode).flatten).countP counts → decoder.WellCut pieces) := by
  induction pieces with
  | nil =>
      rw [List.flatten_nil, decode_nil]
      exact ⟨Nat.le_refl _, fun _ => trivial⟩
  | cons first others ih =>
      have later := ih fun piece member => filled piece (List.mem_cons_of_mem _ member)
      rw [List.flatten_cons, List.map_cons, List.flatten_cons, List.countP_append]
      cases others with
      | nil => simp [WellCut]
      | cons second rest =>
          obtain ⟨symbol, tail, rfl⟩ :=
            List.exists_cons_of_ne_nil (filled second (List.mem_cons_of_mem _ List.mem_cons_self))
          have joined : ((symbol :: tail) :: rest).flatten = symbol :: (tail ++ rest.flatten) := rfl
          rw [joined] at later ⊢
          cases cut : decoder.continues (decoder.reach decoder.initial first) symbol with
          | true =>
              have more := @countP_cut _ _ _ _ synchronizing _ counted _ first
                (tail ++ rest.flatten) _ cut
              change (decoder.decode (first ++ _)).countP counts <
                (decoder.decode first).countP counts + _ at more
              constructor
              · omega
              · intro equal
                exact absurd equal (by omega)
          | false =>
              have split : decoder.decode (first ++ symbol :: (tail ++ rest.flatten)) =
                  decoder.decode first ++ decoder.decode (symbol :: (tail ++ rest.flatten)) :=
                decoder.decodeFrom_append cut
              rw [split, List.countP_append]
              constructor
              · exact Nat.add_le_add_left later.1 _
              · intro equal
                refine ⟨?_, later.2 (Nat.add_left_cancel equal)⟩
                intro other head
                cases head
                exact cut

end Synchronizing

end Decoder

section Marks

variable {Output : Type} [DecidableEq Output] {mark : Output}

/-- A text without a mark at its start. -/
def dropMark (mark : Output) : List Output → List Output
  | first :: rest => if first = mark then rest else first :: rest
  | [] => []

theorem dropMark_of_head? {text : List Output} (unmarked : text.head? ≠ some mark) :
    dropMark mark text = text := by
  cases text with
  | nil => rfl
  | cons first rest => exact if_neg fun same => unmarked (congrArg some same)

theorem length_dropMark_le (text : List Output) :
    (dropMark mark text).length ≤ text.length := by
  cases text with
  | nil => exact Nat.le_refl _
  | cons first rest =>
      rw [dropMark]
      split
      · exact Nat.le_succ _
      · exact Nat.le_refl _

theorem length_dropMark_lt {text : List Output} (marked : text.head? = some mark) :
    (dropMark mark text).length < text.length := by
  cases text with
  | nil => cases marked
  | cons first rest =>
      rw [dropMark, if_pos (Option.some.inj marked)]
      exact Nat.lt_succ_self _

theorem dropMark_append {text : List Output} (filled : text ≠ []) (rest : List Output) :
    dropMark mark (text ++ rest) = dropMark mark text ++ rest := by
  cases text with
  | nil => exact absurd rfl filled
  | cons first others =>
      rw [List.cons_append, dropMark, dropMark]
      split
      · rfl
      · rfl

theorem countP_dropMark {counts : Output → Bool} (uncounted : counts mark = false)
    (text : List Output) : (dropMark mark text).countP counts = text.countP counts := by
  cases text with
  | nil => rfl
  | cons first rest =>
      rw [dropMark]
      split
      · rename_i same
        rw [List.countP_cons, same, uncounted]
        rfl
      · rfl

theorem length_flatten_dropMark_le (texts : List (List Output)) :
    ((texts.map (dropMark mark)).flatten).length ≤ texts.flatten.length := by
  induction texts with
  | nil => exact Nat.le_refl _
  | cons text rest ih =>
      rw [List.map_cons, List.flatten_cons, List.flatten_cons, List.length_append,
        List.length_append]
      exact Nat.add_le_add (length_dropMark_le text) ih

/-- Nothing is dropped from texts if and only if none of them begins with the mark. -/
theorem flatten_dropMark_iff {texts : List (List Output)} :
    (texts.map (dropMark mark)).flatten = texts.flatten ↔
      ∀ text ∈ texts, text.head? ≠ some mark := by
  induction texts with
  | nil => simp
  | cons text rest ih =>
      rw [List.map_cons, List.flatten_cons, List.flatten_cons, List.forall_mem_cons, ← ih]
      constructor
      · intro same
        have unmarked : text.head? ≠ some mark := by
          intro marked
          have lengths := congrArg List.length same
          have shorter := length_dropMark_lt marked
          have others := @length_flatten_dropMark_le _ _ mark rest
          rw [List.length_append, List.length_append] at lengths
          omega
        rw [dropMark_of_head? unmarked] at same
        exact ⟨unmarked, List.append_cancel_left same⟩
      · rintro ⟨unmarked, others⟩
        rw [dropMark_of_head? unmarked, others]

end Marks

/-- A decoder of texts.  If the mark has a written form, a mark at the start of a text is
no part of it. -/
structure Encoding (Symbol Output : Type) extends Decoder Symbol Output where
  mark : Output
  written : Option (List Symbol)
  reads : ∀ bytes ∈ written, ∀ stream,
    (toDecoder.decode stream).head? = some mark ↔ bytes <+: stream
  fills : written ≠ none → ∀ stream, stream ≠ [] → toDecoder.decode stream ≠ []

namespace Encoding

variable {Symbol Output : Type} [DecidableEq Output] (encoding : Encoding Symbol Output)

/-- The text of a whole stream. -/
def text (stream : List Symbol) : List Output :=
  if encoding.written.isSome then dropMark encoding.mark (encoding.decode stream)
  else encoding.decode stream

omit [DecidableEq Output] in
/-- No cut falls into a character, and no piece but the first begins with a mark. -/
def WellCut (pieces : List (List Symbol)) : Prop :=
  encoding.toDecoder.WellCut pieces ∧
    ∀ bytes ∈ encoding.written, ∀ piece ∈ pieces.tail, ¬bytes <+: piece

omit [DecidableEq Output] in
/-- A cut into a character shows in the text. -/
def SelfSynchronizing : Prop :=
  ∃ error, error ≠ encoding.mark ∧ encoding.toDecoder.Synchronizing error

variable {encoding} {pieces : List (List Symbol)}

/-- With the cuts outside of characters, what matters is the marks. -/
theorem text_flatten_iff (wellCut : encoding.toDecoder.WellCut pieces)
    (filled : ∀ piece ∈ pieces, piece ≠ []) :
    (pieces.map encoding.text).flatten = encoding.text pieces.flatten ↔
      ∀ bytes ∈ encoding.written, ∀ piece ∈ pieces.tail, ¬bytes <+: piece := by
  have whole := encoding.decode_flatten wellCut filled
  cases written : encoding.written with
  | none =>
      have plain : encoding.text = encoding.decode := by
        funext stream
        rw [text, written]
        rfl
      rw [plain, whole]
      simp
  | some bytes =>
      have dropped : encoding.text = fun stream =>
          dropMark encoding.mark (encoding.decode stream) := by
        funext stream
        rw [text, written]
        rfl
      have mapped : ∀ pieces : List (List Symbol), pieces.map encoding.text =
          (pieces.map encoding.decode).map (dropMark encoding.mark) := by
        intro pieces
        rw [dropped, List.map_map]
        rfl
      simp only [Option.mem_some_iff, forall_eq']
      cases pieces with
      | nil => simp [dropped, Decoder.decode_nil, dropMark]
      | cons first rest =>
          have some_output : encoding.decode first ≠ [] :=
            encoding.fills (by rw [written]; nofun) first (filled first List.mem_cons_self)
          rw [congrFun dropped, whole, mapped, List.map_cons, List.map_cons,
            List.flatten_cons, List.flatten_cons, dropMark_append some_output,
            List.append_right_inj, flatten_dropMark_iff, List.tail_cons]
          simp only [List.forall_mem_map, ne_eq, encoding.reads bytes written]

/-- Well-cut pieces make the text of the stream. -/
theorem text_flatten_of_wellCut (wellCut : encoding.WellCut pieces)
    (filled : ∀ piece ∈ pieces, piece ≠ []) :
    (pieces.map encoding.text).flatten = encoding.text pieces.flatten :=
  (text_flatten_iff wellCut.1 filled).mpr wellCut.2

theorem countP_text {counts : Output → Bool} (uncounted : counts encoding.mark = false)
    (stream : List Symbol) :
    (encoding.text stream).countP counts = (encoding.decode stream).countP counts := by
  rw [text]
  split
  · exact countP_dropMark uncounted _
  · rfl

/-- Where a cut into a character shows, only well-cut pieces make the text of the stream. -/
theorem wellCut_of_text_flatten (synchronizing : encoding.SelfSynchronizing)
    (filled : ∀ piece ∈ pieces, piece ≠ [])
    (same : (pieces.map encoding.text).flatten = encoding.text pieces.flatten) :
    encoding.WellCut pieces := by
  obtain ⟨error, different, synchronizing⟩ := synchronizing
  have counted : decide (error ≠ encoding.mark) = true := decide_eq_true different
  have uncounted : decide (encoding.mark ≠ encoding.mark) = false := by simp
  have counts : (encoding.decode pieces.flatten).countP (fun output => output ≠ encoding.mark) =
      ((pieces.map encoding.decode).flatten).countP (fun output => output ≠ encoding.mark) := by
    have totals := congrArg (List.countP fun output => output ≠ encoding.mark) same
    rw [countP_text uncounted, List.countP_flatten, List.map_map] at totals
    rw [List.countP_flatten, List.map_map, ← totals]
    apply congrArg
    apply List.map_congr_left
    intro piece member
    exact countP_text uncounted piece
  have wellCut := (synchronizing.countP_flatten counted filled).2 counts
  exact ⟨wellCut, (text_flatten_iff wellCut filled).mp same⟩

end Encoding

end CloudRunSsh
