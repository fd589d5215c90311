import GoSocket.Packet.Readers
import GoSocket.Packet.RoundTrip

/-!
# TcpReader

`TcpReader::ReadFull` over a socket whose stream is given.  How many bytes each
`recv` gives of it is the network's choice.
-/

namespace GoSocket.Socket

open GoSocket.Foundation GoSocket.Packet

/-- What `recv` answers behind the last byte of a stream. -/
inductive StreamEnd where
  | closed
  | failed (errorNo : Int32)
  deriving DecidableEq, Repr

def StreamEnd.exception : StreamEnd → TcpException
  | closed => { excType := .TcpExcSocketClose }
  | failed errorNo => { excType := .TcpExcSocketError, errorNo }

/-- The stream behind a socket: the bytes that are not taken yet, its end, and
how many bytes each of the `recv` calls is to give. -/
structure Delivery where
  rest : List Byte
  ending : StreamEnd
  counts : Nat → Nat
  calls : Nat := 0

namespace Delivery

/-- The bytes that the next `recv` gives of a request for `len`. -/
def count (self : Delivery) (len : Nat) : Nat :=
  min (max 1 (self.counts self.calls)) (min len self.rest.length)

/-- `recv`: its result, `errno`, and the bytes it has put into the buffer. -/
def recv (self : Delivery) (len : UInt64) : Int64 × Int32 × List Byte × Delivery :=
  if self.rest = [] then
    match self.ending with
    | .closed => (0, 0, [], self)
    | .failed errorNo => (-1, errorNo, [], self)
  else
    let count := self.count len.toNat
    (Int64.ofNat count, 0, self.rest.take count,
      { self with rest := self.rest.drop count, calls := self.calls + 1 })

def read (self : Delivery) (len : UInt64) :
    Except TcpException (Int32 × List Byte) × Delivery :=
  let (ret, errorNo, buf, self) := self.recv len
  let recvLen := ret.toInt32
  if recvLen = 0 then (.error { excType := .TcpExcSocketClose }, self)
  else if recvLen < 0 then
    (.error { excType := .TcpExcSocketError, errorNo }, self)
  else (.ok (recvLen, buf), self)

theorem read_nil (self : Delivery) (len : UInt64) (h : self.rest = []) :
    self.read len = (.error self.ending.exception, self) := by
  unfold read recv
  rw [if_pos h]
  cases self.ending with
  | closed => rfl
  | failed errorNo => rfl

theorem count_pos (self : Delivery) {len : Nat} (hlen : 0 < len)
    (h : self.rest ≠ []) : 0 < self.count len := by
  have hrest := List.length_pos_iff.mpr h
  unfold count
  omega

theorem count_le (self : Delivery) (len : Nat) :
    self.count len ≤ len ∧ self.count len ≤ self.rest.length := by
  unfold count
  omega

theorem toInt32_ofNat {n : Nat} (h : n < 2 ^ 31) :
    (Int64.ofNat n).toInt32 = Int32.ofNat n := by
  apply Int32.toInt_inj.mp
  rw [Int64.toInt_toInt32, Int64.toInt_ofNat_of_lt (by omega),
    Int32.toInt_ofNat_of_lt h]
  exact Int.bmod_eq_of_le (by omega) (by omega)

theorem read_of_ne_nil (self : Delivery) {len : UInt64} (hlen : 0 < len)
    (h : self.rest ≠ []) (hrest : self.rest.length < 2 ^ 31) :
    self.read len =
      (.ok (Int32.ofNat (self.count len.toNat),
          self.rest.take (self.count len.toNat)),
        { self with
          rest := self.rest.drop (self.count len.toNat)
          calls := self.calls + 1 }) := by
  have hpos := self.count_pos (UInt64.lt_iff_toNat_lt.mp hlen) h
  have hle := self.count_le len.toNat
  have hint := Int32.toInt_ofNat_of_lt (show self.count len.toNat < 2 ^ 31 by omega)
  have hzero : ¬Int32.ofNat (self.count len.toNat) = 0 := by
    intro hzero
    rw [hzero] at hint
    simp at hint
    omega
  have hneg : ¬Int32.ofNat (self.count len.toNat) < 0 := by
    rw [Int32.lt_iff_toInt_lt, hint]
    simp
  unfold read recv
  rw [if_neg h]
  simp only
  rw [toInt32_ofNat (by omega), if_neg hzero, if_neg hneg]

theorem rest_read_lt (self : Delivery) {len : UInt64} {got : Int32 × List Byte}
    {next : Delivery} (hread : self.read len = (.ok got, next)) :
    next.rest.length < self.rest.length := by
  by_cases h : self.rest = []
  · rw [read_nil self len h] at hread
    cases hread
  · have hcount : 0 < self.count len.toNat := by
      by_contra hzero
      have hnone : self.count len.toNat = 0 := by omega
      unfold read recv at hread
      rw [if_neg h] at hread
      simp only [hnone] at hread
      cases hread
    unfold read recv at hread
    rw [if_neg h] at hread
    simp only at hread
    have hle := self.count_le len.toNat
    split at hread
    · cases hread
    split at hread
    · cases hread
    cases hread
    rw [List.length_drop]
    omega

end Delivery

/-- A reader; it keeps what the `ReadFull` calls that have returned were asked
for, and what they have put into the buffer. -/
structure TcpReader where
  socket : Option Delivery := none
  reads : List (UInt64 × List Byte) := []

namespace TcpReader

/-- The loop of `ReadFull`, with the bytes before `srcBuf`. -/
def readLoop (len : UInt64) (recvLen : Int32) (buf : List Byte)
    (socket : Delivery) : Except TcpException (List Byte) × Delivery :=
  if recvLen.toInt64.toUInt64 < len then
    match _hread : socket.read (len - recvLen.toInt64.toUInt64) with
    | (.error e, next) => (.error e, next)
    | (.ok (tmpRecvLen, got), next) =>
        readLoop len (recvLen + tmpRecvLen)
          (buf ++ got.take tmpRecvLen.toInt.toNat) next
  else (.ok buf, socket)
termination_by socket.rest.length
decreasing_by exact Delivery.rest_read_lt socket _hread

def readFull (self : TcpReader) (len : UInt64) :
    Except Fault (List Byte) × TcpReader :=
  match self.socket with
  | none => (.error (.tcp { excType := .TcpExcInvalidSocket }), self)
  | some socket =>
      match readLoop len 0 [] socket with
      | (.ok buf, socket) =>
          (.ok buf, { socket := some socket, reads := self.reads ++ [(len, buf)] })
      | (.error e, socket) => (.error (.tcp e), { self with socket := some socket })

instance : IReader TcpReader where
  readFull len self := self.readFull len

def start (bytes : List Byte) (ending : StreamEnd) (counts : Nat → Nat) :
    TcpReader where
  socket := some { rest := bytes, ending, counts }

/-- The bytes that are not taken from the stream. -/
def rest (self : TcpReader) : List Byte :=
  match self.socket with
  | some socket => socket.rest
  | none => []

/-- The bytes that the `ReadFull` calls have put into their buffers. -/
def filled (self : TcpReader) : List Byte := (self.reads.map Prod.snd).flatten

/-! ## The loop of `ReadFull` -/

variable {len : UInt64} {buf : List Byte} {socket : Delivery}

theorem toNat_counter {n : Nat} (h : n < 2 ^ 31) :
    (Int32.ofNat n).toInt64.toUInt64.toNat = n := by
  have hwide : (Int32.ofNat n).toInt64 = Int64.ofNat n := by
    apply Int64.toInt_inj.mp
    rw [Int32.toInt_toInt64, Int32.toInt_ofNat_of_lt h,
      Int64.toInt_ofNat_of_lt (by omega)]
  rw [hwide, Int64.toUInt64_ofNat']
  exact UInt64.toNat_ofNat_of_lt' (show n < 2 ^ 64 by omega)

theorem counter_lt_iff (hbuf : buf.length < 2 ^ 31) :
    (Int32.ofNat buf.length).toInt64.toUInt64 < len ↔ buf.length < len.toNat := by
  rw [UInt64.lt_iff_toNat_lt, toNat_counter hbuf]

theorem toNat_sub_counter (hbuf : buf.length < 2 ^ 31)
    (hlt : buf.length < len.toNat) :
    (len - (Int32.ofNat buf.length).toInt64.toUInt64).toNat =
      len.toNat - buf.length := by
  have hle := (counter_lt_iff hbuf).mpr hlt
  rw [UInt64.toNat_sub_of_le _ _ (UInt64.le_of_lt hle), toNat_counter hbuf]

theorem readLoop_done (hbuf : buf.length < 2 ^ 31) (hlen : len.toNat ≤ buf.length) :
    readLoop len (Int32.ofNat buf.length) buf socket = (.ok buf, socket) := by
  unfold readLoop
  rw [if_neg]
  rw [counter_lt_iff hbuf]
  omega

theorem readLoop_end (hbuf : buf.length < 2 ^ 31) (hlen : buf.length < len.toNat)
    (hrest : socket.rest = []) :
    readLoop len (Int32.ofNat buf.length) buf socket =
      (.error socket.ending.exception, socket) := by
  unfold readLoop
  rw [if_pos ((counter_lt_iff hbuf).mpr hlen)]
  split
  · next e next hread =>
      rw [socket.read_nil _ hrest] at hread
      cases hread
      rfl
  · next got next hread =>
      rw [socket.read_nil _ hrest] at hread
      cases hread

theorem readLoop_next (hfit : buf.length + socket.rest.length < 2 ^ 31)
    (hlen : buf.length < len.toNat) (hrest : socket.rest ≠ []) :
    ∃ count, 0 < count ∧ count ≤ len.toNat - buf.length ∧
      count ≤ socket.rest.length ∧
      readLoop len (Int32.ofNat buf.length) buf socket =
        readLoop len (Int32.ofNat (buf ++ socket.rest.take count).length)
          (buf ++ socket.rest.take count)
          { socket with
            rest := socket.rest.drop count, calls := socket.calls + 1 } := by
  have hbuf : buf.length < 2 ^ 31 := by omega
  have hleft := toNat_sub_counter hbuf hlen
  have hpos : 0 < len - (Int32.ofNat buf.length).toInt64.toUInt64 := by
    rw [UInt64.lt_iff_toNat_lt, hleft]
    exact Nat.sub_pos_of_lt hlen
  have hread := socket.read_of_ne_nil hpos hrest (by omega)
  have hcount := socket.count_pos (UInt64.lt_iff_toNat_lt.mp hpos) hrest
  have hle := socket.count_le (len - (Int32.ofNat buf.length).toInt64.toUInt64).toNat
  generalize hn : socket.count
    (len - (Int32.ofNat buf.length).toInt64.toUInt64).toNat = count at hread hcount hle
  rw [hleft] at hle
  refine ⟨count, hcount, hle.1, hle.2, ?_⟩
  have hlength : (socket.rest.take count).length = count :=
    List.length_take_of_le hle.2
  have hint : (Int32.ofNat count).toInt.toNat = count := by
    rw [Int32.toInt_ofNat_of_lt (by omega)]
    rfl
  conv => lhs; unfold readLoop
  rw [if_pos ((counter_lt_iff hbuf).mpr hlen)]
  split
  · next e next herror =>
      rw [hread] at herror
      cases herror
  · next tmpRecvLen got next hgot =>
      rw [hread] at hgot
      cases hgot
      rw [hint, List.take_take, Nat.min_self, List.length_append, hlength,
        Int32.ofNat_add]

theorem readLoop_eq (buf : List Byte) (socket : Delivery)
    (hbuf : buf.length ≤ len.toNat)
    (hfit : buf.length + socket.rest.length < 2 ^ 31) :
    ∃ calls, readLoop len (Int32.ofNat buf.length) buf socket =
      if len.toNat ≤ buf.length + socket.rest.length then
        (.ok (buf ++ socket.rest.take (len.toNat - buf.length)),
          { socket with
            rest := socket.rest.drop (len.toNat - buf.length), calls })
      else
        (.error socket.ending.exception, { socket with rest := [], calls }) := by
  by_cases hdone : len.toNat ≤ buf.length
  · refine ⟨socket.calls, ?_⟩
    rw [readLoop_done (by omega) hdone, if_pos (by omega),
      Nat.sub_eq_zero_of_le hdone]
    simp
  have hlt : buf.length < len.toNat := Nat.lt_of_not_le hdone
  by_cases hrest : socket.rest = []
  · have hzero : socket.rest.length = 0 := by
      rw [hrest]
      rfl
    refine ⟨socket.calls, ?_⟩
    rw [readLoop_end (by omega) hlt hrest, if_neg (by omega), ← hrest]
  obtain ⟨count, hpos, hle, hcount, hnext⟩ := readLoop_next hfit hlt hrest
  have hlength : (buf ++ socket.rest.take count).length = buf.length + count := by
    rw [List.length_append, List.length_take_of_le hcount]
  have hdrop : (socket.rest.drop count).length = socket.rest.length - count :=
    List.length_drop
  obtain ⟨calls, heq⟩ := readLoop_eq (buf ++ socket.rest.take count)
    { socket with rest := socket.rest.drop count, calls := socket.calls + 1 }
    (by omega) (by simp only [hlength, hdrop]; omega)
  have hsum : count + (len.toNat - (buf.length + count)) =
      len.toNat - buf.length := by
    omega
  have htake : (buf ++ socket.rest.take count) ++
      (socket.rest.drop count).take (len.toNat - (buf.length + count)) =
        buf ++ socket.rest.take (len.toNat - buf.length) := by
    rw [List.append_assoc, ← hsum, List.take_add]
  have hleft : buf.length + count + (socket.rest.length - count) =
      buf.length + socket.rest.length := by
    omega
  refine ⟨calls, ?_⟩
  rw [hnext, heq]
  simp only [hlength, hdrop, htake, hleft, List.drop_drop, hsum]
termination_by socket.rest.length
decreasing_by
  simp only [List.length_drop]
  have := List.length_pos_iff.mpr hrest
  omega

theorem readFull_eq (self : TcpReader) (len : UInt64) {socket : Delivery}
    (hsocket : self.socket = some socket) (hrest : socket.rest.length < 2 ^ 31) :
    ∃ calls, exec (Packet.readFull len) self =
      if len.toNat ≤ socket.rest.length then
        (.ok (socket.rest.take len.toNat),
          { socket := some { socket with
              rest := socket.rest.drop len.toNat, calls }
            reads := self.reads ++ [(len, socket.rest.take len.toNat)] })
      else
        (.error (.tcp socket.ending.exception),
          { self with socket := some { socket with rest := [], calls } }) := by
  obtain ⟨calls, hloop⟩ := readLoop_eq [] socket (Nat.zero_le len.toNat)
    (by simpa using hrest)
  simp only [List.length_nil, Nat.zero_add, Nat.sub_zero, List.nil_append] at hloop
  have hzero : Int32.ofNat 0 = 0 := rfl
  refine ⟨calls, ?_⟩
  change self.readFull len = _
  unfold readFull
  simp only [hsocket]
  rw [← hzero, hloop]
  by_cases hle : len.toNat ≤ socket.rest.length
  · simp only [if_pos hle]
  · simp only [if_neg hle]

/-! ## Decoding over two deliveries of one stream -/

/-- Two readers have taken the same from a stream, `ReadFull` by `ReadFull`. -/
structure SameStream (bytes : List Byte) (s t : TcpReader) : Prop where
  sockets : ∃ x y, s.socket = some x ∧ t.socket = some y ∧
    x.rest = y.rest ∧ x.ending = y.ending
  reads : s.reads = t.reads
  requested : ∀ read ∈ s.reads, read.2.length = read.1.toNat
  inOrder : s.filled ++ s.rest = bytes

/-- A `ReadFull` takes exactly as many bytes as it was asked for, from the front, or
takes all there is and throws how the stream ends. -/
structure TakesExactly (s : TcpReader) (len : UInt64)
    (x : Except Fault (List Byte) × TcpReader) : Prop where
  full : len.toNat ≤ s.rest.length →
    x.1 = .ok (s.rest.take len.toNat) ∧ x.2.rest = s.rest.drop len.toNat ∧
      x.2.reads = s.reads ++ [(len, s.rest.take len.toNat)]
  short : s.rest.length < len.toNat → ∀ socket, s.socket = some socket →
    x.1 = .error (.tcp socket.ending.exception) ∧ x.2.rest = [] ∧
      x.2.reads = s.reads

/-- Two decoders have ended alike.  A `ReadFull` that fails has taken a part of
the stream too. -/
structure EndsAlike {α : Type} (bytes : List Byte)
    (x y : Except Fault α × TcpReader) : Prop where
  outcome : x.1 = y.1
  rest : x.2.rest = y.2.rest
  reads : x.2.reads = y.2.reads
  requested : ∀ read ∈ x.2.reads, read.2.length = read.1.toNat
  inOrder : ∃ part, x.2.filled ++ part ++ x.2.rest = bytes
  returned : ∀ a, x.1 = .ok a → x.2.filled ++ x.2.rest = bytes

theorem rest_of_socket {self : TcpReader} {socket : Delivery}
    (h : self.socket = some socket) : self.rest = socket.rest := by
  simp [rest, h]

variable {bytes : List Byte} {s t : TcpReader}

theorem SameStream.rest (h : SameStream bytes s t) : s.rest = t.rest := by
  obtain ⟨x, y, hx, hy, hrest, -⟩ := h.sockets
  rw [rest_of_socket hx, rest_of_socket hy, hrest]

theorem SameStream.endsAlike {α : Type} (h : SameStream bytes s t)
    (outcome : Except Fault α) : EndsAlike bytes (outcome, s) (outcome, t) where
  outcome := rfl
  rest := h.rest
  reads := h.reads
  requested := h.requested
  inOrder := ⟨[], by rw [List.append_nil, h.inOrder]⟩
  returned := fun _ _ => h.inOrder

/-- Related failures, of decoders for whatever value. -/
def FailAlike (bytes : List Byte) (x y : Fault × TcpReader) : Prop :=
  EndsAlike (α := Empty) bytes (.error x.1, x.2) (.error y.1, y.2)

theorem readFull_relates (hlen : bytes.length < 2 ^ 31) (len : UInt64) :
    Relates (SameStream bytes) (FailAlike bytes)
      (Packet.readFull len : Decode TcpReader (List Byte)) (Packet.readFull len) := by
  intro s t h
  obtain ⟨x, y, hx, hy, hrest, hending⟩ := h.sockets
  have hbound : x.rest.length < 2 ^ 31 := by
    have hlength := congrArg List.length h.inOrder
    rw [List.length_append, rest_of_socket hx] at hlength
    omega
  have horder : s.filled ++ x.rest = bytes := rest_of_socket hx ▸ h.inOrder
  obtain ⟨calls, hs⟩ := readFull_eq s len hx hbound
  obtain ⟨calls', ht⟩ := readFull_eq t len hy (hrest ▸ hbound)
  rw [← hrest] at ht
  by_cases hle : len.toNat ≤ x.rest.length
  · rw [if_pos hle] at hs ht
    refine .inl ⟨_, _, _, hs, ht, ⟨_, _, rfl, rfl, rfl, hending⟩, ?_, ?_, ?_⟩
    · simp only [h.reads]
    · intro read hmem
      rcases List.mem_append.mp hmem with hmem | hmem
      · exact h.requested read hmem
      · cases List.mem_singleton.mp hmem
        exact List.length_take_of_le hle
    · simp only [filled, rest, List.map_append, List.map_cons, List.map_nil,
        List.flatten_append, List.flatten_cons, List.flatten_nil, List.append_nil,
        List.append_assoc, List.take_append_drop]
      exact horder
  · rw [if_neg hle] at hs ht
    refine .inr ⟨_, _, _, _, hs, ht, ?_, rfl, h.reads, h.requested, ?_, nofun⟩
    · simp only [hending]
    · refine ⟨x.rest, ?_⟩
      simp only [rest, List.append_nil]
      exact horder

theorem readFull_takes (self : TcpReader) (len : UInt64) {socket : Delivery}
    (hsocket : self.socket = some socket) (hrest : socket.rest.length < 2 ^ 31) :
    TakesExactly self len (exec (Packet.readFull len) self) := by
  obtain ⟨calls, heq⟩ := readFull_eq self len hsocket hrest
  rw [heq]
  constructor
  · intro hle
    rw [rest_of_socket hsocket] at hle ⊢
    rw [if_pos hle]
    exact ⟨rfl, rfl, rfl⟩
  · intro hlt socket' hsocket'
    cases hsocket.symm.trans hsocket'
    rw [rest_of_socket hsocket] at hlt
    rw [if_neg (Nat.not_le_of_lt hlt)]
    exact ⟨rfl, rfl, rfl⟩

theorem decodeMessage_endsAlike (z : Gzip) (bytes : List Byte)
    (hlen : bytes.length < 2 ^ 31) (ending : StreamEnd) (counts counts' : Nat → Nat) :
    EndsAlike bytes (exec (decodeMessage z) (start bytes ending counts))
      (exec (decodeMessage z) (start bytes ending counts')) := by
  have hstart : SameStream bytes (start bytes ending counts)
      (start bytes ending counts') :=
    ⟨⟨_, _, rfl, rfl, rfl, rfl⟩, rfl, nofun, rfl⟩
  rcases decodeMessage_relates (readFull_relates hlen)
    (fun e _ _ h => h.endsAlike (.error e)) z _ _ hstart with
    ⟨message, s, t, hs, ht, h⟩ | ⟨e, s, e', t, hs, ht, h⟩
  · rw [hs, ht]
    exact h.endsAlike (.ok message)
  · rw [hs, ht]
    have houtcome : e = e' := by simpa using h.outcome
    exact ⟨by rw [houtcome], h.rest, h.reads, h.requested, h.inOrder,
      fun _ heq => nomatch heq⟩

/-- Over two deliveries of a stream a message is decoded alike, and every `ReadFull`
takes what it was asked for. -/
theorem decodeMessage_any_delivery (z : Gzip) (bytes : List Byte)
    (hlen : bytes.length < 2 ^ 31) (ending : StreamEnd) (counts counts' : Nat → Nat) :
    EndsAlike bytes (exec (decodeMessage z) (start bytes ending counts))
        (exec (decodeMessage z) (start bytes ending counts')) ∧
      ∀ (self : TcpReader) (socket : Delivery) (len : UInt64),
        self.socket = some socket → socket.rest.length < 2 ^ 31 →
          TakesExactly self len (exec (Packet.readFull len) self) :=
  ⟨decodeMessage_endsAlike z bytes hlen ending counts counts',
    fun self _ len hsocket hrest => readFull_takes self len hsocket hrest⟩

def sendReqBytes : List Byte := hiRequestBytes ++ [0x30]

theorem decodeMessage_any_delivery_sendReq :
    let x := exec (decodeMessage sampleGzip) (start sendReqBytes .closed fun _ => 1)
    let y := exec (decodeMessage sampleGzip) (start sendReqBytes .closed fun _ => 40)
    x.1 = .ok hiRequest ∧ x.2.rest = [0x30] ∧
      x.2.reads.map (·.1) = [1, 1, 2, 1, 1, 1, 22] ∧
      EndsAlike sendReqBytes x y ∧
      ∀ (self : TcpReader) (socket : Delivery) (len : UInt64),
        self.socket = some socket → socket.rest.length < 2 ^ 31 →
          TakesExactly self len (exec (Packet.readFull len) self) := by
  intro x y
  refine ⟨?_, ?_, ?_,
    decodeMessage_any_delivery sampleGzip sendReqBytes (by decide) .closed _ _⟩ <;>
      decide +kernel

end TcpReader

end GoSocket.Socket
