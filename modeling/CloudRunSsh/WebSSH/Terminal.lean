import Mathlib.Data.List.TakeWhile
import CloudRunSsh.Data.UTF8

/-!
# The output of a session in the terminal

A worker sends what it receives from the SSH channel at once as one binary message.  The
page decodes every message as a text of its own, in the selected encoding, and hands the
texts to the terminal and to the transcript.
-/

namespace CloudRunSsh.WebSSH

/-- `BUF_SIZE`. -/
def bufSize : Nat := 32 * 1024

/-- What `chan.recv(BUF_SIZE)` returns: nothing after the end of the channel. -/
structure Received where
  data : List UInt8
  bounded : data.length ≤ bufSize

/-- The messages of a worker to its WebSocket. -/
structure Sent where
  messages : List (List UInt8)
  closed : Bool

/-- `Worker.on_read`. -/
def onRead (sent : Sent) (received : Received) : Sent :=
  if sent.closed then sent
  else if received.data = [] then { sent with closed := true }
  else { sent with messages := sent.messages ++ [received.data] }

/-- What the page has passed to the terminal and to the transcript. -/
structure Page where
  terminal : List Char
  transcript : List Char

/-- `sock.onmessage`, `read_as_text_with_decoder` and the two `$writeCallbacks`: the
decoder gets the message without `stream`. -/
def onMessage (encoding : Encoding UInt8 Char) (page : Page) (message : List UInt8) : Page where
  terminal := page.terminal ++ encoding.text message
  transcript := page.transcript ++ encoding.text message

/-- The pieces that the channel delivers until its end. -/
def delivered (reads : List Received) : List (List UInt8) :=
  (reads.map Received.data).takeWhile (· ≠ [])

/-- The page after everything that the worker received was sent and decoded. -/
def shown (encoding : Encoding UInt8 Char) (reads : List Received) : Page :=
  (reads.foldl onRead ⟨[], false⟩).messages.foldl (onMessage encoding) ⟨[], []⟩

/-- Terminal and transcript have the text of what the channel delivered. -/
structure ShowsText (encoding : Encoding UInt8 Char) (reads : List Received) : Prop where
  terminal : (shown encoding reads).terminal = encoding.text (delivered reads).flatten
  transcript : (shown encoding reads).transcript = encoding.text (delivered reads).flatten

theorem onRead_closed (messages : List (List UInt8)) (reads : List Received) :
    reads.foldl onRead ⟨messages, true⟩ = ⟨messages, true⟩ := by
  induction reads with
  | nil => rfl
  | cons received rest ih => exact ih

/-- The worker sends the pieces as they are. -/
theorem messages_onRead (messages : List (List UInt8)) (reads : List Received) :
    (reads.foldl onRead ⟨messages, false⟩).messages = messages ++ delivered reads := by
  induction reads generalizing messages with
  | nil => simp [delivered]
  | cons received rest ih =>
      rw [List.foldl_cons, onRead, delivered, List.map_cons]
      by_cases ended : received.data = []
      · simp [ended, onRead_closed]
      · have later := ih (messages ++ [received.data])
        simp only [ended, if_false, Bool.false_eq_true]
        rw [later]
        simp [delivered, ended]

/-- The page passes on the texts of the messages one after another. -/
theorem foldl_onMessage (encoding : Encoding UInt8 Char) (page : Page)
    (messages : List (List UInt8)) :
    messages.foldl (onMessage encoding) page =
      ⟨page.terminal ++ (messages.map encoding.text).flatten,
        page.transcript ++ (messages.map encoding.text).flatten⟩ := by
  induction messages generalizing page with
  | nil => simp
  | cons message rest ih =>
      rw [List.foldl_cons, ih]
      simp [onMessage]

theorem shown_eq (encoding : Encoding UInt8 Char) (reads : List Received) :
    shown encoding reads =
      ⟨((delivered reads).map encoding.text).flatten,
        ((delivered reads).map encoding.text).flatten⟩ := by
  rw [shown, messages_onRead, foldl_onMessage]
  simp

theorem delivered_ne_nil (reads : List Received) : ∀ piece ∈ delivered reads, piece ≠ [] := by
  intro piece member
  rw [delivered] at member
  simpa using List.mem_takeWhile_imp member

section Cuts

variable {encoding : Encoding UInt8 Char} {reads : List Received}

theorem showsText_of_wellCut (wellCut : encoding.WellCut (delivered reads)) :
    ShowsText encoding reads := by
  have same := Encoding.text_flatten_of_wellCut wellCut (delivered_ne_nil reads)
  constructor
  · rw [shown_eq, same]
  · rw [shown_eq, same]

theorem wellCut_of_showsText (synchronizing : encoding.SelfSynchronizing)
    (shows : ShowsText encoding reads) : encoding.WellCut (delivered reads) := by
  have same := shows.terminal
  rw [shown_eq] at same
  exact Encoding.wellCut_of_text_flatten synchronizing (delivered_ne_nil reads) same

end Cuts

/-- The page shows the text of what the channel delivered if no piece ends inside of a
character that the next piece continues, and no piece but the first begins with a byte
order mark.  In encodings in which a cut character shows, only then. -/
theorem showsText_iff_wellCut (encoding : Encoding UInt8 Char) (reads : List Received) :
    (encoding.WellCut (delivered reads) → ShowsText encoding reads) ∧
      (encoding.SelfSynchronizing → ShowsText encoding reads →
        encoding.WellCut (delivered reads)) :=
  ⟨showsText_of_wellCut, wellCut_of_showsText⟩

/-- UTF-8 is such an encoding. -/
theorem showsText_utf8_iff (reads : List Received) :
    ShowsText UTF8.encoding reads ↔ UTF8.encoding.WellCut (delivered reads) :=
  ⟨wellCut_of_showsText UTF8.encoding_selfSynchronizing, showsText_of_wellCut⟩

/-- The two bytes of `é` in two messages. -/
theorem showsText_split_fails :
    ¬ShowsText UTF8.encoding [⟨[0xC3], by decide⟩, ⟨[0xA9], by decide⟩] := by
  intro shows
  exact absurd shows.terminal (by decide)

end CloudRunSsh.WebSSH
