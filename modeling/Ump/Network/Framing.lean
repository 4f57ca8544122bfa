import Ump.Foundation.ByteStream
import Ump.Protocol.Envelope

/-!
# Frames on a connection

## Sending and receiving

A frame is four bytes of length, the most significant first, and the body. What a
connection receives may stop anywhere, also inside the length.
-/

namespace Ump.Network

open Foundation

/-- `NetworkProtocolError`, or an error of the socket while it waits. -/
inductive FrameError where
  | protocol (text : String)
  | os
deriving DecidableEq, Repr

abbrev Socket := Source UInt8

def headerBytes : Nat := 4

def sizeText : String := "frame size is outside the UMP core profile"

def closedText : String := "connection closed inside a UMP frame"

/-- `send_frame`: all that is written to the connection after it. -/
def sendFrame (written encoded : List UInt8) : Except FrameError (List UInt8) :=
  if encoded = [] ∨ maxMessageBytes < encoded.length then
    .error (.protocol sizeText)
  else
    .ok (written ++ (bigEndian headerBytes encoded.length ++ encoded))

/-- The loop of `_receive_exact`. -/
def receiveLoop (connection : Socket) (size : Nat) (allowCleanEof : Bool)
    (chunks : List UInt8) : Except FrameError (Option (List UInt8)) × Socket :=
  if _h : chunks.length < size then
    match connection.recv (size - chunks.length) with
    | (none, connection) => (.error .os, connection)
    | (some chunk, connection) =>
        if _hchunk : chunk = [] then
          if chunks = [] ∧ allowCleanEof = true then
            (.ok none, connection)
          else
            (.error (.protocol closedText), connection)
        else
          receiveLoop connection size allowCleanEof (chunks ++ chunk)
  else
    (.ok (some chunks), connection)
termination_by size - chunks.length
decreasing_by
  have hlength : 0 < chunk.length := List.length_pos_iff.mpr _hchunk
  rw [List.length_append]
  omega

def receiveExact (connection : Socket) (size : Nat) (allowCleanEof : Bool) :
    Except FrameError (Option (List UInt8)) × Socket :=
  receiveLoop connection size allowCleanEof []

/-- What `receive_frame` does with the header. Its assertion is the last branch. -/
def receiveBody (header : List UInt8) (connection : Socket) :
    Except FrameError (Option (List UInt8)) × Socket :=
  if 1 ≤ ofBigEndian header ∧ ofBigEndian header ≤ maxMessageBytes then
    receiveExact connection (ofBigEndian header) false
  else
    (.error (.protocol sizeText), connection)

def receiveFrame (connection : Socket) : Except FrameError (Option (List UInt8)) × Socket :=
  match receiveExact connection headerBytes true with
  | (.error error, connection) => (.error error, connection)
  | (.ok none, connection) => (.ok none, connection)
  | (.ok (some header), connection) => receiveBody header connection

/-!
## Reading does not depend on the pieces

The loop is compared with a reader of plain byte lists.
-/

/-- The first `size` bytes of a stream, or what is wrong with it. -/
def readExact (bytes : List UInt8) (ending : Ending) (size : Nat) (allowCleanEof : Bool) :
    Except FrameError (Option (List UInt8)) :=
  if size ≤ bytes.length then
    .ok (some (bytes.take size))
  else
    match ending with
    | .silence => .error .os
    | .shutdown =>
        if bytes = [] ∧ allowCleanEof = true then .ok none else .error (.protocol closedText)

/-- A read of `size` bytes from `connection`, of which `chunks` were there already, ends as on
plain bytes. -/
structure Reads (connection : Socket) (chunks : List UInt8) (size : Nat) (allowCleanEof : Bool)
    (result : Except FrameError (Option (List UInt8)) × Socket) : Prop where
  answer : result.1 = readExact (chunks ++ connection.unread) connection.ending size allowCleanEof
  unread : result.2.unread = connection.unread.drop (size - chunks.length)
  ending : result.2.ending = connection.ending

theorem reads_enough {connection : Socket} {chunks : List UInt8} {size : Nat}
    {allowCleanEof : Bool} (h : chunks.length = size) :
    Reads connection chunks size allowCleanEof (.ok (some chunks), connection) where
  answer := by
    unfold readExact
    rw [if_pos (by rw [List.length_append]; omega), ← h, List.take_left']
    rfl
  unread := by
    rw [h, Nat.sub_self]
    rfl
  ending := rfl

theorem Reads.of_takes {connection connection' : Socket} {chunks chunk : List UInt8} {size : Nat}
    {allowCleanEof : Bool} {result : Except FrameError (Option (List UInt8)) × Socket}
    (htakes : connection.Takes (size - chunks.length) chunk connection')
    (h : Reads connection' (chunks ++ chunk) size allowCleanEof result) :
    Reads connection chunks size allowCleanEof result where
  answer := by
    rw [h.answer, htakes.unread, htakes.ending, List.append_assoc]
  unread := by
    have hlength := htakes.length
    rw [h.unread, htakes.unread, List.length_append, List.drop_append,
      List.drop_eq_nil_of_le hlength, List.nil_append]
    congr 1
    omega
  ending := h.ending.trans htakes.ending

theorem reads_end {connection : Socket} {chunks : List UInt8} {size : Nat}
    {allowCleanEof : Bool} (hunread : connection.unread = []) (hmore : chunks.length < size) :
    Reads connection chunks size allowCleanEof
      (receiveLoop connection size allowCleanEof chunks) := by
  have hshort : ¬ size ≤ (chunks ++ connection.unread).length := by
    rw [hunread, List.append_nil]
    omega
  rw [receiveLoop, dif_pos hmore]
  cases hending : connection.ending with
  | silence =>
      rw [Source.recv_silence _ hunread hending]
      refine ⟨?_, by rw [hunread, List.drop_nil], rfl⟩
      unfold readExact
      rw [if_neg hshort, hending]
  | shutdown =>
      rw [Source.recv_shutdown _ hunread hending]
      simp only [dif_pos]
      have hanswer : readExact (chunks ++ connection.unread) connection.ending size allowCleanEof =
          if chunks = [] ∧ allowCleanEof = true then .ok none
            else .error (.protocol closedText) := by
        unfold readExact
        rw [if_neg hshort, hending, hunread, List.append_nil]
      by_cases hclean : chunks = [] ∧ allowCleanEof = true
      · rw [if_pos hclean] at hanswer ⊢
        exact ⟨hanswer.symm, by rw [hunread, List.drop_nil], rfl⟩
      · rw [if_neg hclean] at hanswer ⊢
        exact ⟨hanswer.symm, by rw [hunread, List.drop_nil], rfl⟩

theorem receiveLoop_reads (connection : Socket) (size : Nat) (allowCleanEof : Bool)
    (chunks : List UInt8) (hsize : chunks.length ≤ size) :
    Reads connection chunks size allowCleanEof
      (receiveLoop connection size allowCleanEof chunks) := by
  -- Induction on the number of bytes that are still missing.
  induction hmissing : size - chunks.length using Nat.strong_induction_on
    generalizing connection chunks with
  | _ missing ih =>
    by_cases hmore : chunks.length < size
    · by_cases hunread : connection.unread = []
      · exact reads_end hunread hmore
      · obtain ⟨chunk, connection', htakes⟩ :=
          Source.recv_takes (n := size - chunks.length) (by omega) hunread
        have hchunk : 0 < chunk.length := List.length_pos_iff.mpr htakes.nonempty
        have hlength := htakes.length
        rw [receiveLoop, dif_pos hmore, htakes.answer]
        simp only [dif_neg htakes.nonempty]
        apply Reads.of_takes htakes
        apply ih (size - (chunks ++ chunk).length)
        · rw [List.length_append]
          omega
        · rw [List.length_append]
          omega
        · rfl
    · rw [receiveLoop, dif_neg hmore]
      exact reads_enough (by omega)

theorem receiveExact_reads (connection : Socket) (size : Nat) (allowCleanEof : Bool) :
    Reads connection [] size allowCleanEof (receiveExact connection size allowCleanEof) :=
  receiveLoop_reads connection size allowCleanEof [] (Nat.zero_le size)

/-!
## Frames of a byte stream
-/

/-- What `receive_frame` gives on plain bytes, and the bytes it leaves. -/
def readFrame (bytes : List UInt8) (ending : Ending) :
    Except FrameError (Option (List UInt8)) × List UInt8 :=
  match readExact bytes ending headerBytes true with
  | .error error => (.error error, bytes.drop headerBytes)
  | .ok none => (.ok none, bytes.drop headerBytes)
  | .ok (some header) =>
      if 1 ≤ ofBigEndian header ∧ ofBigEndian header ≤ maxMessageBytes then
        (readExact (bytes.drop headerBytes) ending (ofBigEndian header) false,
          (bytes.drop headerBytes).drop (ofBigEndian header))
      else
        (.error (.protocol sizeText), bytes.drop headerBytes)

/-- The pieces in which a stream arrives change neither the frame nor what is left of the
stream. -/
theorem receiveFrame_eq (connection : Socket) :
    ((receiveFrame connection).1, (receiveFrame connection).2.unread) =
      readFrame connection.unread connection.ending := by
  have hheader := receiveExact_reads connection headerBytes true
  unfold receiveFrame readFrame
  cases hread : receiveExact connection headerBytes true with
  | mk answer connection' =>
      rw [hread] at hheader
      have hleft : connection'.unread = connection.unread.drop headerBytes := hheader.unread
      have hanswer : readExact connection.unread connection.ending headerBytes true = answer :=
        hheader.answer.symm
      rw [hanswer, ← hleft]
      cases answer with
      | error error => rfl
      | ok header? =>
          cases header? with
          | none => rfl
          | some header =>
              have hbody := receiveExact_reads connection' (ofBigEndian header) false
              simp only [receiveBody]
              by_cases hlegal : 1 ≤ ofBigEndian header ∧ ofBigEndian header ≤ maxMessageBytes
              · rw [if_pos hlegal, if_pos hlegal, hbody.answer, hbody.unread, hheader.ending]
                rfl
              · rw [if_neg hlegal, if_neg hlegal]

theorem receiveFrame_answer (connection : Socket) :
    (receiveFrame connection).1 = (readFrame connection.unread connection.ending).1 :=
  congrArg Prod.fst (receiveFrame_eq connection)

theorem receiveFrame_unread (connection : Socket) :
    (receiveFrame connection).2.unread =
      (readFrame connection.unread connection.ending).2 :=
  congrArg Prod.snd (receiveFrame_eq connection)

/-!
## The round trip
-/

def frame (body : List UInt8) : List UInt8 :=
  bigEndian headerBytes body.length ++ body

def Carries (body : List UInt8) : Prop :=
  1 ≤ body.length ∧ body.length ≤ maxMessageBytes

theorem sendFrame_of_carries {body : List UInt8} (written : List UInt8) (h : Carries body) :
    sendFrame written body = .ok (written ++ frame body) := by
  unfold sendFrame
  rw [if_neg]
  · rfl
  · rintro (hempty | hlong)
    · have hpos := h.1
      rw [hempty] at hpos
      exact absurd hpos (by decide)
    · have hfits := h.2
      omega

theorem sendFrame_refuses {body : List UInt8} (written : List UInt8) (h : ¬ Carries body) :
    sendFrame written body = .error (.protocol sizeText) := by
  unfold sendFrame
  rw [if_pos]
  by_cases hempty : body = []
  · exact .inl hempty
  · right
    have hpos : 0 < body.length := List.length_pos_iff.mpr hempty
    unfold Carries at h
    omega

theorem readExact_append (bytes following : List UInt8) (ending : Ending)
    (allowCleanEof : Bool) :
    readExact (bytes ++ following) ending bytes.length allowCleanEof = .ok (some bytes) := by
  unfold readExact
  rw [if_pos (by rw [List.length_append]; omega), List.take_left]

theorem readFrame_frame {body : List UInt8} (following : List UInt8) (ending : Ending)
    (h : Carries body) :
    readFrame (frame body ++ following) ending = (.ok (some body), following) := by
  have hheader : (bigEndian headerBytes body.length).length = headerBytes :=
    length_bigEndian headerBytes body.length
  have hsize : ofBigEndian (bigEndian headerBytes body.length) = body.length := by
    apply ofBigEndian_bigEndian
    exact Nat.lt_of_le_of_lt h.2 (by decide)
  have hfirst : readExact (frame body ++ following) ending headerBytes true =
      .ok (some (bigEndian headerBytes body.length)) := by
    have happend := readExact_append (bigEndian headerBytes body.length) (body ++ following)
      ending true
    rw [hheader, ← List.append_assoc] at happend
    exact happend
  have hdrop : (frame body ++ following).drop headerBytes = body ++ following := by
    unfold frame
    rw [List.append_assoc, List.drop_left' hheader]
  unfold readFrame
  rw [hfirst]
  simp only [hsize, hdrop]
  rw [if_pos (show 1 ≤ body.length ∧ body.length ≤ maxMessageBytes from h),
    readExact_append, List.drop_left]

def announced (bytes : List UInt8) : Nat :=
  ofBigEndian (bytes.take headerBytes)

/-- A frame that ends too early or announces a size no frame may have. -/
inductive Malformed (bytes : List UInt8) : Ending -> Prop where
  | header (hstarted : bytes ≠ []) (hshort : bytes.length < headerBytes) :
      Malformed bytes .shutdown
  | size (ending : Ending) (hheader : headerBytes ≤ bytes.length)
      (hsize : announced bytes = 0 ∨ maxMessageBytes < announced bytes) : Malformed bytes ending
  | body (hheader : headerBytes ≤ bytes.length)
      (hshort : bytes.length < headerBytes + announced bytes) : Malformed bytes .shutdown

/-- An error of the frame, not of the socket. -/
def IsProtocolError (answer : Except FrameError (Option (List UInt8))) : Prop :=
  exists text, answer = .error (.protocol text)

theorem readExact_header {bytes : List UInt8} (ending : Ending) (allowCleanEof : Bool)
    (h : headerBytes ≤ bytes.length) :
    readExact bytes ending headerBytes allowCleanEof = .ok (some (bytes.take headerBytes)) := by
  unfold readExact
  rw [if_pos h]

theorem readFrame_header {bytes : List UInt8} (ending : Ending)
    (h : headerBytes ≤ bytes.length) :
    readFrame bytes ending =
      if 1 ≤ announced bytes ∧ announced bytes ≤ maxMessageBytes then
        (readExact (bytes.drop headerBytes) ending (announced bytes) false,
          (bytes.drop headerBytes).drop (announced bytes))
      else
        (.error (.protocol sizeText), bytes.drop headerBytes) := by
  unfold readFrame
  rw [readExact_header ending true h]
  rfl

theorem readFrame_malformed {bytes : List UInt8} {ending : Ending}
    (h : Malformed bytes ending) : IsProtocolError (readFrame bytes ending).1 := by
  cases h with
  | header hstarted hshort =>
      have hread : readExact bytes .shutdown headerBytes true = .error (.protocol closedText) := by
        unfold readExact
        rw [if_neg (by omega)]
        exact if_neg (fun hclean => hstarted hclean.1)
      unfold readFrame
      rw [hread]
      exact ⟨closedText, rfl⟩
  | size ending hheader hsize =>
      rw [readFrame_header ending hheader, if_neg (by omega)]
      exact ⟨sizeText, rfl⟩
  | body hheader hshort =>
      rw [readFrame_header .shutdown hheader]
      by_cases hlegal : 1 ≤ announced bytes ∧ announced bytes ≤ maxMessageBytes
      · rw [if_pos hlegal]
        refine ⟨closedText, ?_⟩
        unfold readExact
        rw [if_neg (by rw [List.length_drop]; omega)]
        exact if_neg (fun hclean => Bool.false_ne_true hclean.2)
      · rw [if_neg hlegal]
        exact ⟨sizeText, rfl⟩

theorem readFrame_end : readFrame [] .shutdown = (.ok none, []) := by
  decide

/-- A frame is received as it was sent, in whatever pieces it comes and whatever follows it;
the end of the stream before a frame gives none, and every other end or size is refused. -/
theorem framing_round_trip :
    (forall written body, Carries body -> exists stream,
      sendFrame written body = .ok (written ++ stream) ∧
        forall (connection : Socket) following, connection.unread = stream ++ following ->
          (receiveFrame connection).1 = .ok (some body) ∧
            (receiveFrame connection).2.unread = following) ∧
    (forall written body, ¬ Carries body ->
      sendFrame written body = .error (.protocol sizeText)) ∧
    (forall connection : Socket, connection.unread = [] -> connection.ending = .shutdown ->
      (receiveFrame connection).1 = .ok none) ∧
    forall connection : Socket, Malformed connection.unread connection.ending ->
      IsProtocolError (receiveFrame connection).1 := by
  refine ⟨?_, fun written body h => sendFrame_refuses written h, ?_, ?_⟩
  · intro written body hbody
    refine ⟨frame body, sendFrame_of_carries written hbody, ?_⟩
    intro connection following hunread
    rw [receiveFrame_answer, receiveFrame_unread, hunread, readFrame_frame following _ hbody]
    exact ⟨rfl, rfl⟩
  · intro connection hunread hending
    rw [receiveFrame_answer, hunread, hending, readFrame_end]
  · intro connection hbad
    rw [receiveFrame_answer]
    exact readFrame_malformed hbad

def splitGreeting : Socket where
  pieces := [[0, 0, 0], [2, 104], [105, 9]]
  ending := .shutdown
  nonempty := by decide

theorem splitGreeting_received :
    (receiveFrame splitGreeting).1 = .ok (some [104, 105]) ∧
      (receiveFrame splitGreeting).2.unread = [9] := by
  have hbody : Carries [104, 105] := ⟨by decide, by decide⟩
  obtain ⟨stream, hsent, hreceived⟩ := framing_round_trip.1 [] [104, 105] hbody
  have hstream : stream = [0, 0, 0, 2, 104, 105] := by
    have hframe := sendFrame_of_carries [] hbody
    rw [hsent] at hframe
    exact Except.ok.inj hframe
  apply hreceived splitGreeting
  rw [hstream]
  rfl

end Ump.Network
