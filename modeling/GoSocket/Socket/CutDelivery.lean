import GoSocket.Packet.CutStreams
import GoSocket.Packet.RoundTrip
import GoSocket.Socket.TcpReader

/-!
# A connection that ends in the middle of a frame

`__RunReadWrite` reads one message after the other until `DecodeMessage` throws.
Wherever the server's bytes end, and however TCP delivers those before the end,
it gets the messages of the whole frames, and of a part of a frame nothing.
-/

namespace GoSocket.Socket

open GoSocket.Foundation GoSocket.Packet

/-- The reads of `__RunReadWrite`: the messages, and the exception that ends its
loop, if it comes to that within so many turns. -/
def readMessages {ρ : Type} [IReader ρ] (z : Gzip) :
    (turns : Nat) → ρ → List MessageBase × Option Fault
  | 0, _ => ([], none)
  | turns + 1, r =>
      match exec (decodeMessage z) r with
      | (.ok message, r) =>
          let (messages, fault) := readMessages z turns r
          (message :: messages, fault)
      | (.error fault, _) => ([], some fault)

theorem readMessages_ok {ρ : Type} [IReader ρ] {z : Gzip} {turns : Nat} {r r' : ρ}
    {message : MessageBase} (h : exec (decodeMessage z) r = (.ok message, r')) :
    readMessages z (turns + 1) r =
      (message :: (readMessages z turns r').1, (readMessages z turns r').2) := by
  rw [readMessages, h]

theorem readMessages_error {ρ : Type} [IReader ρ] {z : Gzip} {turns : Nat} {r r' : ρ}
    {fault : Fault} (h : exec (decodeMessage z) r = (.error fault, r')) :
    readMessages z (turns + 1) r = ([], some fault) := by
  rw [readMessages, h]

def arrived : (bytes : Nat) → List (MessageBase × List Byte) → List MessageBase
  | _, [] => []
  | bytes, (message, frame) :: frames =>
      if frame.length ≤ bytes then message :: arrived (bytes - frame.length) frames
      else []

def streamOf (frames : List (MessageBase × List Byte)) : List Byte :=
  (frames.map Prod.snd).flatten

@[simp] theorem streamOf_cons (message : MessageBase) (frame : List Byte)
    (frames : List (MessageBase × List Byte)) :
    streamOf ((message, frame) :: frames) = frame ++ streamOf frames := rfl

theorem arrived_prefix (bytes : Nat) (frames : List (MessageBase × List Byte)) :
    arrived bytes frames <+: frames.map Prod.fst := by
  induction frames generalizing bytes with
  | nil => exact List.prefix_rfl
  | cons f frames ih =>
      rw [arrived]
      split
      · exact List.cons_prefix_cons.mpr ⟨rfl, ih _⟩
      · exact List.nil_prefix

@[simp] theorem arrived_all (frames : List (MessageBase × List Byte)) :
    arrived (streamOf frames).length frames = frames.map Prod.fst := by
  induction frames with
  | nil => rfl
  | cons f frames ih =>
      rw [streamOf_cons, arrived, List.length_append, if_pos (Nat.le_add_right _ _),
        Nat.add_sub_cancel_left, ih]
      rfl

theorem length_le_streamOf {z : Gzip} {frames : List (MessageBase × List Byte)}
    (hframes : ∀ f ∈ frames, IsFrame z f.1 f.2) :
    frames.length ≤ (streamOf frames).length := by
  induction frames with
  | nil => exact Nat.zero_le _
  | cons f frames ih =>
      obtain ⟨message, frame⟩ := f
      have hrest := ih fun f hf => hframes f (List.mem_cons_of_mem _ hf)
      have hpos : 0 < frame.length := by
        cases hframes _ List.mem_cons_self with
        | mk hb hp hlen hbody hmessage => simp
      rw [streamOf_cons, List.length_append, List.length_cons]
      omega

/-- The socket behind the reader holds the beginning of the stream. -/
def HoldsBeginning (ending : StreamEnd) (tail : List Byte) (r : ByteStream)
    (r' : TcpReader) : Prop :=
  ∃ socket, r'.socket = some socket ∧ socket.ending = ending ∧
    socket.rest.length < 2 ^ 31 ∧ r.rest = socket.rest ++ tail

namespace TcpReader

variable {ending : StreamEnd} {tail : List Byte} {z : Gzip}

theorem readFull_cuts (len : UInt64) :
    Cuts (HoldsBeginning ending tail) (· = .tcp ending.exception)
      (Packet.readFull len : Decode ByteStream (List Byte))
      (Packet.readFull len : Decode TcpReader (List Byte)) := by
  rintro ⟨_, log⟩ r ⟨socket, hsocket, hending, hlen, rfl⟩
  obtain ⟨calls, hread⟩ := r.readFull_eq len hsocket hlen
  by_cases hle : len.toNat ≤ socket.rest.length
  · rw [if_pos hle] at hread
    have htake : (socket.rest.take len.toNat).length = len.toNat := by simp [hle]
    have hstream :
        exec (Packet.readFull len) (⟨socket.rest ++ tail, log⟩ : ByteStream) =
          (.ok (socket.rest.take len.toNat),
            ⟨socket.rest.drop len.toNat ++ tail, log ++ [len]⟩) := by
      conv_lhs => rw [← List.take_append_drop len.toNat socket.rest, List.append_assoc]
      exact exec_readFull_of_le _ htake
    refine .inr ⟨_, _, _, hstream, hread, _, rfl, hending, ?_, rfl⟩
    simp only [List.length_drop]
    omega
  · rw [if_neg hle, hending] at hread
    exact .inl ⟨_, _, hread, rfl⟩

theorem readFull_simulates (len : UInt64) :
    Simulates (HoldsBeginning ending [])
      (Packet.readFull len : Decode ByteStream (List Byte))
      (Packet.readFull len : Decode TcpReader (List Byte)) := by
  rintro ⟨_, log⟩ r ⟨socket, hsocket, hending, hlen, rfl⟩
  rcases readFull_cuts len ⟨socket.rest ++ [], log⟩ r
      ⟨socket, hsocket, hending, hlen, rfl⟩ with
    ⟨fault, r', hread, -⟩ | ⟨outcome, s', r', hstream, hread, hholds⟩
  · refine .inr ?_
    obtain ⟨calls, heq⟩ := r.readFull_eq len hsocket hlen
    by_cases hle : len.toNat ≤ socket.rest.length
    · rw [heq, if_pos hle] at hread
      cases hread
    · refine ⟨_, _, _, _, exec_readFull_of_lt ?_, hread⟩
      simpa using hle
  · cases outcome with
    | ok buf => exact .inl ⟨buf, s', r', hstream, hread, hholds⟩
    | error fault => exact .inr ⟨fault, s', fault, r', hstream, hread⟩

theorem decodeMessage_whole {message : MessageBase} {frame rest : List Byte}
    (hframe : IsFrame z message frame) {r : TcpReader} {socket : Delivery}
    (hsocket : r.socket = some socket) (hrest : socket.rest = frame ++ rest)
    (hlen : socket.rest.length < 2 ^ 31) :
    ∃ r' socket', exec (decodeMessage z) r = (.ok message, r') ∧
      r'.socket = some socket' ∧ socket'.rest = rest ∧
      socket'.ending = socket.ending ∧ socket'.rest.length < 2 ^ 31 := by
  obtain ⟨requests, hwhole⟩ := decodeMessage_of_isFrame hframe rest []
  rcases decodeMessage_simulates readFull_simulates z ⟨frame ++ rest, []⟩ r
      ⟨socket, hsocket, rfl, hlen, by simp [hrest]⟩ with
    ⟨message', s, r', hstream, hread, socket', hsocket', hending, hlen', hleft⟩ |
      ⟨fault, s, fault', r', hstream, -⟩
  · rw [hwhole] at hstream
    cases hstream
    refine ⟨r', socket', hread, hsocket', ?_, hending, hlen'⟩
    simpa using hleft.symm
  · rw [hwhole] at hstream
    cases hstream

theorem decodeMessage_ok {message : MessageBase} {r r' : TcpReader} {socket : Delivery}
    (hsocket : r.socket = some socket) (hlen : socket.rest.length < 2 ^ 31)
    (hread : exec (decodeMessage z) r = (.ok message, r')) :
    ∃ frame socket', IsFrame z message frame ∧ r'.socket = some socket' ∧
      socket.rest = frame ++ socket'.rest := by
  rcases decodeMessage_simulates readFull_simulates z ⟨socket.rest ++ [], []⟩ r
      ⟨socket, hsocket, rfl, hlen, rfl⟩ with
    ⟨message', s, r'', hstream, hread', socket', hsocket', -, -, hleft⟩ |
      ⟨fault, s, fault', r'', -, hread'⟩
  · rw [hread] at hread'
    cases hread'
    obtain ⟨rest, requests⟩ := s
    obtain ⟨frame, hframe, heq⟩ := isFrame_of_decodeMessage hstream
    refine ⟨frame, socket', hframe, hsocket', ?_⟩
    rw [List.append_nil] at heq hleft
    exact heq.trans (congrArg (frame ++ ·) hleft)
  · rw [hread] at hread'
    cases hread'

theorem decodeMessage_part {message : MessageBase} {part tail : List Byte}
    (hframe : IsFrame z message (part ++ tail)) (htail : tail ≠ [])
    {r : TcpReader} {socket : Delivery} (hsocket : r.socket = some socket)
    (hrest : socket.rest = part) (hlen : socket.rest.length < 2 ^ 31) :
    ∃ r', exec (decodeMessage z) r = (.error (.tcp socket.ending.exception), r') := by
  obtain ⟨requests, hwhole⟩ := decodeMessage_of_isFrame hframe [] []
  rw [List.append_nil] at hwhole
  rcases decodeMessage_cuts readFull_cuts z ⟨part ++ tail, []⟩ r
      ⟨socket, hsocket, rfl, hlen, by rw [hrest]⟩ with
    ⟨fault, r', hread, rfl⟩ | ⟨outcome, s, r', hstream, hread, socket', -, -, -, hleft⟩
  · exact ⟨r', hread⟩
  · rw [hwhole] at hstream
    cases hstream
    simp [htail] at hleft

theorem decodeMessage_nothing {r : TcpReader} {socket : Delivery}
    (hsocket : r.socket = some socket) (hrest : socket.rest = []) :
    ∃ r', exec (decodeMessage z) r = (.error (.tcp socket.ending.exception), r') := by
  obtain ⟨calls, hread⟩ := r.readFull_eq 1 hsocket (by simp [hrest])
  rw [if_neg (by simp [hrest])] at hread
  have hheader : exec FixHeader.decode r = (.error (.tcp socket.ending.exception), _) :=
    exec_bind_of_error hread
  exact ⟨_, exec_bind_of_error hheader⟩

theorem readMessages_eq {frames : List (MessageBase × List Byte)}
    (hframes : ∀ f ∈ frames, IsFrame z f.1 f.2) {r : TcpReader} {socket : Delivery}
    (hsocket : r.socket = some socket) (hcut : socket.rest <+: streamOf frames)
    (hlen : socket.rest.length < 2 ^ 31) {turns : Nat}
    (hturns : frames.length < turns) :
    readMessages z turns r = (arrived socket.rest.length frames,
      some (.tcp socket.ending.exception)) := by
  induction frames generalizing r socket turns with
  | nil =>
      obtain ⟨turns, rfl⟩ := Nat.exists_eq_add_one_of_ne_zero (by omega : turns ≠ 0)
      obtain ⟨r', hread⟩ :=
        decodeMessage_nothing (z := z) hsocket (List.prefix_nil.mp hcut)
      exact readMessages_error hread
  | cons f frames ih =>
      obtain ⟨message, frame⟩ := f
      obtain ⟨turns, rfl⟩ := Nat.exists_eq_add_one_of_ne_zero (by omega : turns ≠ 0)
      have hframe : IsFrame z message frame := hframes _ List.mem_cons_self
      have hwhole : frame <+: frame ++ streamOf frames := List.prefix_append _ _
      rw [streamOf_cons] at hcut
      rw [arrived]
      split
      · next hle =>
          obtain ⟨rest, hrest⟩ := List.prefix_of_prefix_length_le hwhole hcut hle
          rw [← hrest, List.prefix_append_right_inj] at hcut
          obtain ⟨r', socket', hread, hsocket', rfl, hending, hlen'⟩ :=
            decodeMessage_whole hframe hsocket hrest.symm hlen
          rw [readMessages_ok hread,
            ih (fun f hf => hframes f (List.mem_cons_of_mem _ hf)) hsocket' hcut hlen'
              (Nat.lt_of_succ_lt_succ hturns), hending, ← hrest, List.length_append,
            Nat.add_sub_cancel_left]
      · next hlt =>
          obtain ⟨tail, rfl⟩ :=
            List.prefix_of_prefix_length_le hcut hwhole (Nat.le_of_not_le hlt)
          have hne : tail ≠ [] := by
            rintro rfl
            exact hlt (by simp)
          obtain ⟨r', hread⟩ := decodeMessage_part hframe hne hsocket rfl hlen
          exact readMessages_error hread

/-- Wherever the stream of the frames is cut, and however what comes before the
cut is delivered, the messages of the whole frames are read, then the end. -/
theorem reads_whole_frames {frames : List (MessageBase × List Byte)}
    (hframes : ∀ f ∈ frames, IsFrame z f.1 f.2) {cut : List Byte}
    (hcut : cut <+: streamOf frames) (hlen : cut.length < 2 ^ 31)
    (ending : StreamEnd) (counts : Nat → Nat) {turns : Nat}
    (hturns : frames.length < turns) :
    readMessages z turns (start cut ending counts) =
      (arrived cut.length frames, some (.tcp ending.exception)) := by
  have hsocket : (start cut ending counts).socket = some ⟨cut, ending, counts, 0⟩ := rfl
  exact readMessages_eq hframes hsocket hcut hlen hturns

/-- A `PingResp`, and a `Disconnect` that is cut. -/
def pingThenKickout : List (MessageBase × List Byte) :=
  [(.pingResp { header := { msgType := .kMsgPingResp } }, [0x40, 0]),
    (.disconnect { header := { msgType := .kMsgDisconnect, remainLen := 1 }
                   type := DiscTypeKickout }, [0x50, 1, 1])]

theorem reads_whole_frames_pingThenKickout :
    readMessages sampleGzip 3 (start [0x40, 0, 0x50, 1] .closed fun _ => 1) =
      ([.pingResp { header := { msgType := .kMsgPingResp } }],
        some (.tcp { excType := .TcpExcSocketClose })) := by
  have hcut : [0x40, 0, 0x50, 1] <+: streamOf pingThenKickout := ⟨[1], rfl⟩
  refine reads_whole_frames ?_ hcut (by decide) .closed (fun _ => 1) (by decide)
  intro f hf
  rcases List.mem_cons.mp hf with rfl | hf
  · exact isFrame_of_typeOf (b := 0x40) (p := [0]) .kMsgPingResp () rfl (by decide)
      (.last 0 (by decide)) (by decide) rfl rfl
  · cases List.mem_singleton.mp hf
    exact isFrame_of_typeOf (b := 0x50) (p := [1]) .kMsgDisconnect (DiscTypeKickout, ())
      rfl (by decide) (.last 1 (by decide)) (by decide)
      ⟨[1], [], rfl, ⟨rfl, rfl⟩, rfl⟩ rfl

end TcpReader

end GoSocket.Socket
