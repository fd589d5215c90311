import GoSocket.Foundation.Transition
import GoSocket.Packet.Readers
import GoSocket.Packet.Grammar
import GoSocket.Socket.TcpSocket

/-!
# SSLSocket

`SSL_read` takes whole TLS records from the descriptor.  What a caller does not
ask for stays in the SSL object, where `epoll_wait` does not see it.
-/

namespace GoSocket.Socket

open GoSocket.Foundation GoSocket.Packet

/-- `EAGAIN`, which a read gives that has waited for `SO_RCVTIMEO`. -/
def kEagain : Int32 := 11

/-- The receiving side: what the SSL object has decrypted, the records that the
kernel holds, and whether it holds a part of the next record. -/
structure SSLSocket where
  object : List Byte := []
  kernel : List (List Byte) := []
  part : Bool := false
  deriving DecidableEq, Repr

namespace SSLSocket

def readable (self : SSLSocket) : Bool := !self.kernel.isEmpty || self.part

def received (self : SSLSocket) : List Byte := self.object ++ self.kernel.flatten

/-- `SSL_read` of `len` bytes; `none` while it waits for a record. -/
def sslRead (object : List Byte) :
    List (List Byte) → Nat → Option (List Byte × List Byte × List (List Byte))
  | [], len =>
      if object = [] then none else some (object.take len, object.drop len, [])
  | record :: kernel, len =>
      if object = [] then sslRead record kernel len
      else some (object.take len, object.drop len, record :: kernel)

def read (self : SSLSocket) (len : Nat) : Option (List Byte × SSLSocket) :=
  (sslRead self.object self.kernel len).map fun (bytes, object, kernel) =>
    (bytes, { self with object, kernel })

/-- The loop of `ReadFull`.  A read gives a byte at least, so that `len` rounds
are enough. -/
def readLoop : (rounds len : Nat) → SSLSocket → Option (List Byte × SSLSocket)
  | 0, _, self => some ([], self)
  | rounds + 1, len, self =>
      if len = 0 then some ([], self)
      else
        match self.read len with
        | none => none
        | some (bytes, self) =>
            (readLoop rounds (len - bytes.length) self).map fun (rest, self) =>
              (bytes ++ rest, self)

instance : IReader SSLSocket where
  readFull len self :=
    match readLoop len.toNat len.toNat self with
    | some (bytes, self) => (.ok bytes, self)
    | none =>
        (.error (.tcp { excType := .TcpExcSocketError, errorNo := kEagain }), self)

/-! ## Reading record by record -/

/-- `len` bytes are read; a record is only taken for a byte of it. -/
def consumeFrom (object : List Byte) :
    List (List Byte) → Nat → List Byte × List (List Byte)
  | [], len => (object.drop len, [])
  | record :: kernel, len =>
      if len ≤ object.length then (object.drop len, record :: kernel)
      else consumeFrom record kernel (len - object.length)

def consume (self : SSLSocket) (len : Nat) : SSLSocket :=
  let (object, kernel) := consumeFrom self.object self.kernel len
  { self with object, kernel }

theorem consumeFrom_of_le {object : List Byte} {len : Nat}
    (kernel : List (List Byte)) (h : len ≤ object.length) :
    consumeFrom object kernel len = (object.drop len, kernel) := by
  cases kernel <;> simp [consumeFrom, h]

theorem consumeFrom_of_lt {object record : List Byte} {len : Nat}
    (kernel : List (List Byte)) (h : object.length < len) :
    consumeFrom object (record :: kernel) len =
      consumeFrom record kernel (len - object.length) := by
  simp [consumeFrom, Nat.not_le.mpr h]

theorem consumeFrom_add (object : List Byte) (kernel : List (List Byte))
    (len more : Nat) :
    consumeFrom object kernel (len + more) =
      consumeFrom (consumeFrom object kernel len).1
        (consumeFrom object kernel len).2 more := by
  induction kernel generalizing object len with
  | nil => simp [consumeFrom, List.drop_drop]
  | cons record kernel ih =>
      by_cases hlen : len ≤ object.length
      · rw [consumeFrom_of_le _ hlen]
        by_cases hmore : len + more ≤ object.length
        · rw [consumeFrom_of_le _ hmore, consumeFrom_of_le _ (by simp; omega),
            List.drop_drop]
        · rw [consumeFrom_of_lt _ (by omega), consumeFrom_of_lt _ (by simp; omega)]
          congr 1
          rw [List.length_drop]
          omega
      · rw [consumeFrom_of_lt _ (by omega), consumeFrom_of_lt _ (by omega), ← ih]
        congr 1
        omega

theorem received_consumeFrom (object : List Byte) (kernel : List (List Byte))
    (len : Nat) : (consumeFrom object kernel len).1 ++
      (consumeFrom object kernel len).2.flatten =
        (object ++ kernel.flatten).drop len := by
  induction kernel generalizing object len with
  | nil => simp [consumeFrom]
  | cons record kernel ih =>
      by_cases hlen : len ≤ object.length
      · rw [consumeFrom_of_le _ hlen, List.drop_append_of_le_length hlen]
      · have hdrop : (object ++ (record ++ kernel.flatten)).drop len =
            (record ++ kernel.flatten).drop (len - object.length) := by
          rw [List.drop_append, List.drop_of_length_le (by omega),
            List.nil_append]
        rw [consumeFrom_of_lt _ (by omega), ih, List.flatten_cons, hdrop]

@[simp] theorem consume_zero (self : SSLSocket) : self.consume 0 = self := by
  unfold consume
  rw [consumeFrom_of_le _ (Nat.zero_le _)]
  rfl

theorem consume_add (self : SSLSocket) (len more : Nat) :
    self.consume (len + more) = (self.consume len).consume more := by
  unfold consume
  rw [consumeFrom_add]

@[simp] theorem received_consume (self : SSLSocket) (len : Nat) :
    (self.consume len).received = self.received.drop len :=
  received_consumeFrom self.object self.kernel len

private theorem take_object (object : List Byte) {len : Nat} (hlen : 0 < len)
    (hobject : object ≠ []) : ∃ count, 0 < count ∧ count ≤ len ∧
      count ≤ object.length ∧ object.take len = object.take count ∧
      object.drop len = object.drop count := by
  have hpos := List.length_pos_iff.mpr hobject
  by_cases h : len ≤ object.length
  · exact ⟨len, hlen, Nat.le_refl _, h, rfl, rfl⟩
  · refine ⟨object.length, hpos, by omega, Nat.le_refl _, ?_, ?_⟩
    · rw [List.take_length, List.take_of_length_le (by omega)]
    · rw [List.drop_length, List.drop_of_length_le (by omega)]

private theorem sslRead_eq (object : List Byte) (kernel : List (List Byte))
    {len : Nat} (hlen : 0 < len) (hne : object ++ kernel.flatten ≠ []) :
    ∃ count, 0 < count ∧ count ≤ len ∧
      count ≤ (object ++ kernel.flatten).length ∧
      sslRead object kernel len = some
        ((object ++ kernel.flatten).take count, consumeFrom object kernel count) := by
  induction kernel generalizing object with
  | nil =>
      have hobject : object ≠ [] := by simpa using hne
      obtain ⟨count, hpos, hle, hcount, htake, hdrop⟩ :=
        take_object object hlen hobject
      refine ⟨count, hpos, hle, by simpa using hcount, ?_⟩
      simp [sslRead, consumeFrom, hobject, htake, hdrop]
  | cons record kernel ih =>
      by_cases hobject : object = []
      · subst hobject
        obtain ⟨count, hpos, hle, hcount, heq⟩ := ih record (by simpa using hne)
        refine ⟨count, hpos, hle, by simpa using hcount, ?_⟩
        rw [consumeFrom_of_lt _ (by simpa using hpos), sslRead, if_pos rfl, heq]
        simp
      · obtain ⟨count, hpos, hle, hcount, htake, hdrop⟩ :=
          take_object object hlen hobject
        refine ⟨count, hpos, hle, ?_, ?_⟩
        · rw [List.length_append]
          omega
        · rw [consumeFrom_of_le _ hcount, List.take_append_of_le_length hcount,
            sslRead, if_neg hobject, htake, hdrop]

private theorem sslRead_eq_none (object : List Byte) (kernel : List (List Byte))
    (len : Nat) (h : object ++ kernel.flatten = []) :
    sslRead object kernel len = none := by
  induction kernel generalizing object with
  | nil =>
      have hobject : object = [] := by simpa using h
      rw [sslRead, if_pos hobject]
  | cons record kernel ih =>
      obtain ⟨hobject, hrest⟩ := List.append_eq_nil_iff.mp h
      rw [sslRead, if_pos hobject]
      exact ih record hrest

theorem read_eq (self : SSLSocket) {len : Nat} (hlen : 0 < len)
    (hne : self.received ≠ []) : ∃ count, 0 < count ∧ count ≤ len ∧
      count ≤ self.received.length ∧
      self.read len = some (self.received.take count, self.consume count) := by
  obtain ⟨count, hpos, hle, hcount, heq⟩ :=
    sslRead_eq self.object self.kernel hlen hne
  refine ⟨count, hpos, hle, hcount, ?_⟩
  rw [read, heq]
  rfl

theorem readLoop_eq (self : SSLSocket) {rounds len : Nat} (hrounds : len ≤ rounds)
    (hlen : len ≤ self.received.length) :
    readLoop rounds len self =
      some (self.received.take len, self.consume len) := by
  induction rounds generalizing len self with
  | zero =>
      cases Nat.le_zero.mp hrounds
      rw [consume_zero]
      rfl
  | succ rounds ih =>
      by_cases hzero : len = 0
      · rw [hzero, consume_zero]
        rfl
      · have hne : self.received ≠ [] := by
          intro hnil
          rw [hnil, List.length_nil] at hlen
          omega
        obtain ⟨count, hpos, hle, hcount, hread⟩ :=
          read_eq self (Nat.pos_of_ne_zero hzero) hne
        have hlength : (self.received.take count).length = count := by
          rw [List.length_take]
          omega
        have hreceived : len - count ≤ (self.consume count).received.length := by
          rw [received_consume, List.length_drop]
          omega
        have hrest := ih (self.consume count) (by omega) hreceived
        have hsum : count + (len - count) = len := by omega
        rw [readLoop, if_neg hzero, hread]
        simp only [hlength, hrest, Option.map_some]
        rw [received_consume, ← consume_add, hsum, ← List.take_add, hsum]

theorem readLoop_eq_none (self : SSLSocket) {rounds len : Nat}
    (hrounds : len ≤ rounds) (hlen : self.received.length < len) :
    readLoop rounds len self = none := by
  induction rounds generalizing len self with
  | zero => omega
  | succ rounds ih =>
      rw [readLoop, if_neg (by omega)]
      by_cases hne : self.received = []
      · have hnone := sslRead_eq_none self.object self.kernel len hne
        rw [read, hnone]
        rfl
      · obtain ⟨count, hpos, hle, hcount, hread⟩ :=
          read_eq self (show 0 < len by omega) hne
        have hlength : (self.received.take count).length = count := by
          rw [List.length_take]
          omega
        have hreceived : (self.consume count).received.length < len - count := by
          rw [received_consume, List.length_drop]
          omega
        have hrest := ih (self.consume count) (by omega) hreceived
        rw [hread]
        simp only [hlength, hrest, Option.map_none]

/-! ## Decoding from records is decoding from the bytes in them -/

/-- `socket` has read from `start` what `stream` has read of the bytes. -/
def ReadFrom (start socket : SSLSocket) (stream : ByteStream) : Prop :=
  ∃ count, count ≤ start.received.length ∧ socket = start.consume count ∧
    stream.rest = start.received.drop count

theorem exec_readFull_received (self : SSLSocket) {len : UInt64}
    (h : len.toNat ≤ self.received.length) :
    exec (readFull len) self =
      (.ok (self.received.take len.toNat), self.consume len.toNat) := by
  change (match readLoop len.toNat len.toNat self with
    | some (bytes, self) => (Except.ok bytes, self)
    | none => _) = _
  rw [readLoop_eq self (Nat.le_refl _) h]

theorem exec_readFull_waits (self : SSLSocket) {len : UInt64}
    (h : self.received.length < len.toNat) :
    exec (readFull len) self =
      (.error (.tcp { excType := .TcpExcSocketError, errorNo := kEagain }),
        self) := by
  change (match readLoop len.toNat len.toNat self with
    | some (bytes, self) => (Except.ok bytes, self)
    | none => _) = _
  rw [readLoop_eq_none self (Nat.le_refl _) h]

theorem readFull_simulates (start : SSLSocket) (len : UInt64) :
    Simulates (ReadFrom start) (readFull len) (readFull len) := by
  rintro socket ⟨rest, log⟩ ⟨count, hcount, rfl, hrest⟩
  have hreceived : rest = (start.consume count).received :=
    hrest.trans (received_consume start count).symm
  by_cases hlen : len.toNat ≤ rest.length
  · have hstream : exec (readFull len)
        (⟨rest.take len.toNat ++ rest.drop len.toNat, log⟩ : ByteStream) =
          (.ok (rest.take len.toNat), ⟨rest.drop len.toNat, log ++ [len]⟩) :=
      exec_readFull_of_le _ (List.length_take_of_le hlen)
    rw [List.take_append_drop] at hstream
    have hsocket := exec_readFull_received (start.consume count) (hreceived ▸ hlen)
    rw [← hreceived] at hsocket
    refine .inl ⟨_, _, _, hsocket, hstream, count + len.toNat, ?_, ?_, ?_⟩
    · have hlength := congrArg List.length hrest
      simp only [List.length_drop] at hlength
      omega
    · exact (consume_add start count len.toNat).symm
    · simp only at hrest
      rw [hrest, List.drop_drop]
  · have hlt : rest.length < len.toNat := Nat.lt_of_not_le hlen
    exact .inr ⟨_, _, _, _, exec_readFull_waits _ (hreceived ▸ hlt),
      exec_readFull_of_lt hlt⟩

/-- A message is decoded exactly where the received bytes start with one, and
its bytes are read. -/
theorem exec_decodeMessage (z : Gzip) (self : SSLSocket) :
    (∃ message rest requests count,
      exec (decodeMessage z) (⟨self.received, []⟩ : ByteStream) =
        (.ok message, ⟨rest, requests⟩) ∧
      exec (decodeMessage z) self = (.ok message, self.consume count) ∧
      count ≤ self.received.length ∧ rest = self.received.drop count) ∨
    ∃ e s' e' t', exec (decodeMessage z) self = (.error e, s') ∧
      exec (decodeMessage z) (⟨self.received, []⟩ : ByteStream) =
        (.error e', t') := by
  have hsim := decodeMessage_simulates (readFull_simulates self) z self
    ⟨self.received, []⟩ ⟨0, Nat.zero_le _, (consume_zero self).symm, rfl⟩
  rcases hsim with ⟨message, s', ⟨rest, requests⟩, hx, hy, count, hcount, rfl, hrest⟩ | h
  · exact .inl ⟨message, rest, requests, count, hy, hx, hcount, hrest⟩
  · exact .inr h

theorem exec_decodeMessage_of_isFrame {z : Gzip} (self : SSLSocket)
    {message : MessageBase} {frame rest : List Byte}
    (hframe : IsFrame z message frame) (h : self.received = frame ++ rest) :
    exec (decodeMessage z) self = (.ok message, self.consume frame.length) := by
  obtain ⟨requests, hread⟩ := decodeMessage_of_isFrame hframe rest []
  rcases exec_decodeMessage z self with
    ⟨message', rest', requests', count, hstream, hsocket, hcount, hrest⟩ |
    ⟨_, _, e, t', -, herror⟩
  · rw [h, hread] at hstream
    cases hstream
    have hlength := congrArg List.length h
    have hdrop := congrArg List.length hrest
    rw [List.length_append] at hlength
    rw [List.length_drop] at hdrop
    have hcountEq : count = frame.length := by omega
    rw [hsocket, hcountEq]
  · rw [h, hread] at herror
    cases herror

end SSLSocket

/-! ## The reads of a session -/

inductive ReadPc where
  | decode
  | select
  | ended
  deriving DecidableEq, Repr

/-- A session on a TLS socket: the records that the network has still to
deliver, and whether something else than the socket ends the wait.  It also reads on
behind a `ConnAck` that refuses and behind a `Disconnect`, where the client takes
`leave`; its runs are those of the client and more. -/
structure ReadSession where
  socket : SSLSocket := {}
  network : List (List Byte)
  pc : ReadPc := .decode
  others : Bool := false
  deriving DecidableEq, Repr

inductive ReadAction where
  -- a segment that ends inside of a record, and one that ends it
  | part
  | record
  | others (ready : Bool)
  | select
  | decode
  -- an error, a timeout or a call ends the session
  | leave
  deriving DecidableEq, Repr

namespace ReadSession

/-- The first message is the `ConnAck`, which is read without a `Select`. -/
def start (records : List (List Byte)) : ReadSession where
  network := records

def step (z : Gzip) (self : ReadSession) : ReadAction → Option ReadSession
  | .part =>
      match self.network with
      | [] => none
      | _ :: _ => some { self with socket := { self.socket with part := true } }
  | .record =>
      match self.network with
      | [] => none
      | record :: network =>
          some { self with
            socket := { self.socket with
              kernel := self.socket.kernel ++ [record], part := false }
            network }
  | .others ready => some { self with others := ready }
  | .select =>
      match self.pc with
      | .select =>
          if self.socket.readable then some { self with pc := .decode }
          else if self.others then some self
          else none
      | _ => none
  | .decode =>
      match self.pc with
      | .decode =>
          match exec (decodeMessage z) self.socket with
          | (.ok _, socket) => some { self with socket, pc := .select }
          | (.error e, _) =>
              -- `SSL_read` still waits for the rest of the message
              if e = .tcp { excType := .TcpExcSocketError, errorNo := kEagain } then
                none
              else some { self with pc := .ended }
      | _ => none
  | .leave => some { self with pc := .ended }

/-- `Select` blocks, with a whole frame received. -/
def Stuck (z : Gzip) (s : ReadSession) : Prop :=
  s.pc = .select ∧ s.socket.readable = false ∧ s.others = false ∧
    ∃ message frame, IsFrame z message frame ∧ frame <+: s.socket.received

/-- The record in which a frame ends does not hold the whole next frame. -/
def Spread (socket : SSLSocket) : List (List Byte) → Prop
  | frame :: next :: frames =>
      (socket.consume frame.length).object.length < next.length ∧
        Spread (socket.consume frame.length) (next :: frames)
  | _ => True

def total (s : ReadSession) : SSLSocket where
  object := s.socket.object
  kernel := s.socket.kernel ++ s.network

/-- At the end of a frame less than the next one has been decrypted. -/
structure AtFrame (z : Gzip) (s : ReadSession) (unread : List (List Byte)) :
    Prop where
  frames : ∀ frame ∈ unread, ∃ message, IsFrame z message frame
  received : s.total.received = unread.flatten
  spread : Spread s.total unread
  select : s.pc = .select → ∀ frame ∈ unread.head?,
    s.socket.object.length < frame.length

variable {z : Gzip} {s t : ReadSession} {unread : List (List Byte)}

theorem consumeFrom_append (object : List Byte) (kernel more : List (List Byte))
    {len : Nat} (h : len ≤ (object ++ kernel.flatten).length) :
    SSLSocket.consumeFrom object (kernel ++ more) len =
      ((SSLSocket.consumeFrom object kernel len).1,
        (SSLSocket.consumeFrom object kernel len).2 ++ more) := by
  induction kernel generalizing object len with
  | nil =>
      have hle : len ≤ object.length := by simpa using h
      rw [SSLSocket.consumeFrom_of_le _ hle, SSLSocket.consumeFrom_of_le _ hle]
  | cons record kernel ih =>
      by_cases hle : len ≤ object.length
      · rw [SSLSocket.consumeFrom_of_le _ hle, SSLSocket.consumeFrom_of_le _ hle]
      · rw [List.cons_append, SSLSocket.consumeFrom_of_lt _ (by omega),
          SSLSocket.consumeFrom_of_lt _ (by omega)]
        apply ih
        simp only [List.flatten_cons, List.length_append] at h ⊢
        omega

theorem total_consume {len : Nat} (h : len ≤ s.socket.received.length) :
    s.total.consume len =
      ({ s with socket := s.socket.consume len } : ReadSession).total := by
  unfold total SSLSocket.consume
  rw [consumeFrom_append _ _ _ h]

theorem received_total : s.total.received =
    s.socket.received ++ s.network.flatten := by
  simp [total, SSLSocket.received]

theorem received_of_not_readable (h : s.socket.readable = false) :
    s.socket.received = s.socket.object := by
  have hkernel : s.socket.kernel = [] := by
    simp only [SSLSocket.readable, Bool.or_eq_false_iff] at h
    simpa using h.1
  simp [SSLSocket.received, hkernel]

theorem AtFrame.decoded (h : AtFrame z s unread) {message : MessageBase}
    {socket : SSLSocket}
    (hdecode : exec (decodeMessage z) s.socket = (.ok message, socket)) :
    ∃ frame rest, unread = frame :: rest ∧ socket = s.socket.consume frame.length ∧
      frame.length ≤ s.socket.received.length := by
  rcases SSLSocket.exec_decodeMessage z s.socket with
    ⟨message', left, requests, count, hstream, hsocket, hcount, hleft⟩ |
    ⟨e, _, _, _, herror, -⟩
  · rw [hsocket] at hdecode
    cases hdecode
    obtain ⟨frame', hframe', hreceived⟩ := isFrame_of_decodeMessage hstream
    have hall := h.received
    rw [received_total, hreceived, List.append_assoc] at hall
    cases unread with
    | nil =>
        cases hframe'
        simp at hall
    | cons frame rest =>
        obtain ⟨_, hframe⟩ := h.frames frame List.mem_cons_self
        rw [List.flatten_cons] at hall
        have heq := hframe'.unique hframe hall
        have hlength := congrArg List.length hreceived
        have hdrop := congrArg List.length hleft
        rw [List.length_append] at hlength
        rw [List.length_drop] at hdrop
        have hcountEq : count = frame.length := by
          rw [← heq]
          omega
        exact ⟨frame, rest, rfl, by rw [hcountEq], hcountEq ▸ hcount⟩
  · rw [herror] at hdecode
    cases hdecode

theorem AtFrame.next {frame : List Byte} (h : AtFrame z s (frame :: unread))
    (hle : frame.length ≤ s.socket.received.length) :
    AtFrame z { s with
      socket := s.socket.consume frame.length, pc := .select } unread := by
  have htotal := total_consume hle
  have hspread := h.spread
  constructor
  case frames => exact fun f hf => h.frames f (List.mem_cons_of_mem _ hf)
  case received =>
    change ({ s with socket := s.socket.consume frame.length } :
      ReadSession).total.received = _
    rw [← htotal, SSLSocket.received_consume, h.received, List.flatten_cons,
      List.drop_left]
  case spread =>
    change Spread ({ s with socket := s.socket.consume frame.length } :
      ReadSession).total _
    rw [← htotal]
    cases unread with
    | nil => trivial
    | cons next frames => exact hspread.2
  case select =>
    intro _ next hnext
    cases unread with
    | nil => cases hnext
    | cons next' frames =>
        cases hnext
        have hlt := hspread.1
        rw [htotal] at hlt
        exact hlt

theorem AtFrame.step {action : ReadAction} (h : AtFrame z s unread)
    (hstep : s.step z action = some t) : ∃ unread', AtFrame z t unread' := by
  cases action with
  | part =>
      simp only [ReadSession.step] at hstep
      split at hstep <;> cases hstep
      exact ⟨unread, h.frames, h.received, h.spread, h.select⟩
  | record =>
      simp only [ReadSession.step] at hstep
      split at hstep <;> cases hstep
      next record network hnetwork =>
      have hkernel : s.socket.kernel ++ [record] ++ network =
          s.socket.kernel ++ s.network := by
        simp [hnetwork]
      refine ⟨unread, h.frames, ?_, ?_, h.select⟩
      · simpa only [total, hkernel] using h.received
      · simpa only [total, hkernel] using h.spread
  | others ready =>
      cases hstep
      exact ⟨unread, h.frames, h.received, h.spread, h.select⟩
  | leave =>
      cases hstep
      exact ⟨unread, h.frames, h.received, h.spread, nofun⟩
  | select =>
      simp only [ReadSession.step] at hstep
      split at hstep
      case h_2 => cases hstep
      split at hstep
      · cases hstep
        exact ⟨unread, h.frames, h.received, h.spread, nofun⟩
      · split at hstep <;> cases hstep
        exact ⟨unread, h⟩
  | decode =>
      simp only [ReadSession.step] at hstep
      split at hstep
      case h_2 => cases hstep
      split at hstep
      · next message socket hdecode =>
          cases hstep
          obtain ⟨frame, rest, rfl, rfl, hle⟩ := h.decoded hdecode
          exact ⟨rest, h.next hle⟩
      · split at hstep <;> cases hstep
        exact ⟨unread, h.frames, h.received, h.spread, nofun⟩

theorem AtFrame.of_reachable (h : AtFrame z s unread)
    (hreach : Reachable (ReadSession.step z) AnyStep s t) :
    ∃ unread', AtFrame z t unread' := by
  induction hreach with
  | refl => exact ⟨unread, h⟩
  | tail action _ _ hstep ih =>
      obtain ⟨unread', h'⟩ := ih
      exact h'.step hstep

theorem AtFrame.not_stuck (h : AtFrame z s unread) : ¬ Stuck z s := by
  rintro ⟨hpc, hreadable, -, message, frame, hframe, rest, hfront⟩
  rw [received_of_not_readable hreadable] at hfront
  have hall := h.received
  rw [received_total, received_of_not_readable hreadable, ← hfront,
    List.append_assoc] at hall
  cases unread with
  | nil =>
      cases hframe
      simp at hall
  | cons next frames =>
      obtain ⟨_, hnext⟩ := h.frames next List.mem_cons_self
      have heq := hframe.unique hnext (hall.trans List.flatten_cons)
      have hlt := h.select hpc next rfl
      rw [← hfront, List.length_append, heq] at hlt
      omega

/-! ## Records that hold more -/

theorem consumeFrom_split (object : List Byte) (network : List (List Byte))
    {len : Nat} (h : len ≤ (object ++ network.flatten).length) :
    ∃ arrived, network =
        arrived ++ (SSLSocket.consumeFrom object network len).2 ∧
      len ≤ (object ++ arrived.flatten).length ∧
      SSLSocket.consumeFrom object arrived len =
        ((SSLSocket.consumeFrom object network len).1, []) := by
  induction network generalizing object len with
  | nil => exact ⟨[], rfl, by simpa using h, rfl⟩
  | cons record network ih =>
      by_cases hle : len ≤ object.length
      · rw [SSLSocket.consumeFrom_of_le _ hle]
        exact ⟨[], rfl, by simpa using hle, rfl⟩
      · rw [SSLSocket.consumeFrom_of_lt _ (by omega)]
        simp only [List.flatten_cons, List.length_append] at h
        have hshort : len - object.length ≤ (record ++ network.flatten).length := by
          rw [List.length_append]
          omega
        obtain ⟨arrived, hnetwork, hlen, hread⟩ := ih record hshort
        refine ⟨record :: arrived, ?_, ?_, ?_⟩
        · rw [List.cons_append, ← hnetwork]
        · rw [List.length_append] at hlen
          simp only [List.flatten_cons, List.length_append]
          omega
        · rw [SSLSocket.consumeFrom_of_lt _ (by omega), hread]

/-- A session in which only records arrive, each of them whole. -/
def quiet (object : List Byte) (kernel network : List (List Byte)) (pc : ReadPc) :
    ReadSession where
  socket := { object, kernel }
  network
  pc

theorem reachable_arrived (object : List Byte)
    (kernel arrived network : List (List Byte)) (pc : ReadPc) :
    Reachable (step z) AnyStep (quiet object kernel (arrived ++ network) pc)
      (quiet object (kernel ++ arrived) network pc) := by
  induction arrived generalizing kernel with
  | nil =>
      rw [List.append_nil]
      exact .refl
  | cons record arrived ih =>
      have hfirst : (quiet object kernel (record :: arrived ++ network) pc).step z
          .record =
            some (quiet object (kernel ++ [record]) (arrived ++ network) pc) := rfl
      have hrest := ih (kernel ++ [record])
      rw [List.append_assoc, List.singleton_append] at hrest
      exact (Reachable.single .record trivial hfirst).trans hrest

theorem reachable_read {object frame : List Byte} {network : List (List Byte)}
    {pc : ReadPc} {message : MessageBase} (hframe : IsFrame z message frame)
    {rest : List Byte} (hbytes : object ++ network.flatten = frame ++ rest)
    (hpc : pc = .decode ∨ pc = .select ∧ object.length < frame.length) :
    Reachable (step z) AnyStep (quiet object [] network pc)
      (quiet (SSLSocket.consumeFrom object network frame.length).1 []
        (SSLSocket.consumeFrom object network frame.length).2 .select) := by
  have hle : frame.length ≤ (object ++ network.flatten).length := by
    rw [hbytes, List.length_append]
    omega
  obtain ⟨arrived, hnetwork, hlen, hread⟩ := consumeFrom_split object network hle
  generalize SSLSocket.consumeFrom object network frame.length = left at *
  have harrive := reachable_arrived (z := z) object [] arrived left.2 pc
  rw [List.nil_append, ← hnetwork] at harrive
  -- the `Select` in between, where the session is at it
  have hdecode : Reachable (step z) AnyStep (quiet object arrived left.2 pc)
      (quiet object arrived left.2 .decode) := by
    rcases hpc with rfl | ⟨rfl, hlt⟩
    · exact .refl
    · have hne : arrived ≠ [] := by
        rintro rfl
        simp at hlen
        omega
      refine .single .select trivial ?_
      simp [step, quiet, SSLSocket.readable, hne]
  refine (harrive.trans hdecode).trans (.single .decode trivial ?_)
  have hfront : frame <+: object ++ arrived.flatten := by
    refine List.prefix_of_prefix_length_le ⟨rest, hbytes.symm⟩ ?_ hlen
    rw [hnetwork, List.flatten_append, ← List.append_assoc]
    exact List.prefix_append _ _
  obtain ⟨more, hmore⟩ := hfront
  have hexec := SSLSocket.exec_decodeMessage_of_isFrame
    { object, kernel := arrived } hframe hmore.symm
  simp only [step, quiet, hexec, SSLSocket.consume, hread]

/-- Where two frames end in one record, the quiet session gets stuck between
them. -/
theorem spread_of_not_stuck {object : List Byte} {network : List (List Byte)}
    {pc : ReadPc} (hframes : ∀ frame ∈ unread, ∃ message, IsFrame z message frame)
    (hbytes : object ++ network.flatten = unread.flatten)
    (hpc : pc = .decode ∨ pc = .select ∧
      ∀ frame ∈ unread.head?, object.length < frame.length)
    (h : ∀ s, Reachable (step z) AnyStep (quiet object [] network pc) s →
      ¬ Stuck z s) :
    Spread { object, kernel := network } unread := by
  induction unread generalizing object network pc with
  | nil => trivial
  | cons frame rest ih =>
      cases rest with
      | nil => trivial
      | cons next frames =>
          obtain ⟨message, hframe⟩ := hframes frame List.mem_cons_self
          have hread := reachable_read hframe hbytes
            (hpc.imp_right fun ⟨hselect, hlt⟩ => ⟨hselect, hlt frame rfl⟩)
          have hleft := SSLSocket.received_consumeFrom object network frame.length
          rw [hbytes, List.flatten_cons, List.drop_left] at hleft
          change (SSLSocket.consumeFrom object network frame.length).1.length <
              next.length ∧
            Spread { object := (SSLSocket.consumeFrom object network frame.length).1
                     kernel := (SSLSocket.consumeFrom object network frame.length).2 }
              (next :: frames)
          generalize SSLSocket.consumeFrom object network frame.length = left at *
          have hlt : left.1.length < next.length := by
            by_contra hge
            obtain ⟨message', hnext⟩ := hframes next (by simp)
            have hfront : next <+: left.1 :=
              List.prefix_of_prefix_length_le ⟨frames.flatten, hleft.symm⟩
                (List.prefix_append _ _) (Nat.not_lt.mp hge)
            refine h _ hread ⟨rfl, rfl, rfl, message', next, hnext, ?_⟩
            simpa [quiet, SSLSocket.received] using hfront
          refine ⟨hlt, ih ?_ hleft (.inr ⟨rfl, ?_⟩) fun s hs => h s (hread.trans hs)⟩
          · exact fun f hf => hframes f (List.mem_cons_of_mem _ hf)
          · rintro _ ⟨⟩
            exact hlt

private theorem sampleFrames_isFrame (z : Gzip) :
    ∀ frame ∈ [[0x20, 2, 0, 0], [0x40, 0]],
      ∃ message, IsFrame z message frame := by
  have hconnAck : exec (decodeMessage z) (⟨[0x20, 2, 0, 0], []⟩ : ByteStream) =
      (.ok (.connAck { header :=
        { msgType := .kMsgConnAck, remainLen := 2, flags := 0 } }),
        ⟨[], [1, 1, 1, 1]⟩) := rfl
  have hpingResp : exec (decodeMessage z) (⟨[0x40, 0], []⟩ : ByteStream) =
      (.ok (.pingResp {}), ⟨[], [1, 1]⟩) := rfl
  intro frame hframe
  simp only [List.mem_cons, List.not_mem_nil, or_false] at hframe
  rcases hframe with rfl | rfl
  · obtain ⟨frame, hframe, heq⟩ := isFrame_of_decodeMessage hconnAck
    rw [List.append_nil] at heq
    exact ⟨_, heq ▸ hframe⟩
  · obtain ⟨frame, hframe, heq⟩ := isFrame_of_decodeMessage hpingResp
    rw [List.append_nil] at heq
    exact ⟨_, heq ▸ hframe⟩

end ReadSession

end GoSocket.Socket
