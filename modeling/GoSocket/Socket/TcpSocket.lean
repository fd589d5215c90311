import GoSocket.Foundation.Transition
import GoSocket.Packet.Message

/-!
# TcpSocket

What the frames of a session become on their way through `TcpWriter::Write` and
`TcpSocket::Write`.  How much `send` takes of what it is given is the kernel's
choice.
-/

namespace GoSocket.Socket

open GoSocket.Foundation GoSocket.Packet

inductive SendResult where
  | sent (sendLen : Nat)
  | failed (errorNo : Int32)
  deriving DecidableEq, Repr

namespace SendResult

/-- What `send` may answer to that many bytes. -/
def Allowed (len : Nat) : SendResult → Prop
  | sent sendLen => 1 ≤ sendLen ∧ sendLen ≤ len
  | failed _ => True

instance (len : Nat) : (result : SendResult) → Decidable (result.Allowed len)
  | sent sendLen => inferInstanceAs (Decidable (1 ≤ sendLen ∧ sendLen ≤ len))
  | failed _ => inferInstanceAs (Decidable True)

end SendResult

/-- A socket, by the bytes that the kernel has accepted for it, and those it
has received and `recv` has not taken. -/
structure TcpSocket where
  accepted : List Byte := []
  inbound : List Byte := []
  deriving DecidableEq, Repr

/-- `recv` of what is there; `none` while it waits. -/
def TcpSocket.read (self : TcpSocket) (len : Nat) : Option (List Byte × TcpSocket) :=
  if self.inbound = [] then none
  else some (self.inbound.take len, { self with inbound := self.inbound.drop len })

def TcpSocket.write (self : TcpSocket) (buf : List Byte) :
    SendResult → Except TcpException Unit × TcpSocket
  | .sent sendLen =>
      (.ok (), { self with accepted := self.accepted ++ buf.take sendLen })
  | .failed errorNo => (.error { excType := .TcpExcSocketError, errorNo }, self)

structure TcpWriter where
  socket : Option TcpSocket := none
  deriving DecidableEq, Repr

def TcpWriter.write (self : TcpWriter) (buf : List Byte) (result : SendResult) :
    Except TcpException Unit × TcpWriter :=
  match self.socket with
  | none => (.error { excType := .TcpExcInvalidSocket }, self)
  | some socket =>
      let (ret, socket) := socket.write buf result
      (ret, { socket := some socket })

/-! ## The writes of a session -/

/-- A session on a socket: the frames it has begun to write, and whether an
exception has ended it. -/
structure WriteSession where
  writer : TcpWriter := { socket := some {} }
  frames : List (List Byte) := []
  ended : Bool := false
  deriving DecidableEq, Repr

structure WriteAction where
  message : MessageBase
  result : SendResult

namespace WriteSession

def accepted (self : WriteSession) : List Byte :=
  match self.writer.socket with
  | some socket => socket.accepted
  | none => []

/-- `EncodeMessage`; the session is over where it throws. -/
def step (z : Gzip) (self : WriteSession) (action : WriteAction) :
    Option WriteSession :=
  if self.ended then none
  else
    match encodeMessage z action.message with
    | .error _ => some { self with ended := true }
    | .ok (_, bytes) =>
        if action.result.Allowed bytes.length then
          let frames := self.frames ++ [bytes]
          match self.writer.write bytes action.result with
          | (.ok (), writer) => some { self with writer, frames }
          | (.error _, writer) => some { writer, frames, ended := true }
        else none

/-- The kernel has a prefix of the frames, all of them while every write has
returned, and no frame is begun behind an incomplete one. -/
structure InOrder (s : WriteSession) : Prop where
  accepted : s.accepted <+: s.frames.flatten
  returned : s.ended = false → s.accepted = s.frames.flatten
  begun : ∀ earlier frame later, s.frames = earlier ++ frame :: later →
    earlier.flatten <+: s.accepted

/-- `send` takes the whole frame, or fails. -/
def TakenWhole (z : Gzip) (_ : WriteSession) (action : WriteAction) : Prop :=
  ∀ message bytes sendLen,
    encodeMessage z action.message = .ok (message, bytes) →
      action.result = .sent sendLen → sendLen = bytes.length

variable {z : Gzip} {s t : WriteSession}

theorem inOrder_init : InOrder {} := by
  constructor <;> simp [WriteSession.accepted]

/-- How a step of a session with a socket can end. -/
inductive StepCases (z : Gzip) (s : WriteSession) (socket : TcpSocket)
    (action : WriteAction) : WriteSession → Prop
  | encode (e : TcpException) (h : encodeMessage z action.message = .error e) :
      StepCases z s socket action { s with ended := true }
  | sent {message : MessageBase} {bytes : List Byte} (sendLen : Nat)
      (h : encodeMessage z action.message = .ok (message, bytes))
      (hresult : action.result = .sent sendLen) (hle : sendLen ≤ bytes.length) :
      StepCases z s socket action { s with
        writer.socket := some { socket with
          accepted := socket.accepted ++ bytes.take sendLen }
        frames := s.frames ++ [bytes] }
  | failed {message : MessageBase} {bytes : List Byte} (errorNo : Int32)
      (h : encodeMessage z action.message = .ok (message, bytes))
      (hresult : action.result = .failed errorNo) :
      StepCases z s socket action { s with
        frames := s.frames ++ [bytes], ended := true }

theorem step_cases {socket : TcpSocket} {action : WriteAction}
    (hsocket : s.writer.socket = some socket)
    (hstep : s.step z action = some t) :
    s.ended = false ∧ StepCases z s socket action t := by
  unfold step at hstep
  split at hstep
  · cases hstep
  next hended =>
  refine ⟨by simpa using hended, ?_⟩
  split at hstep
  · next e he =>
      cases hstep
      exact .encode e he
  next message bytes hbytes =>
  split at hstep
  case isFalse => cases hstep
  next hallowed =>
  have hwriter : s.writer = { socket := some socket } := by
    cases hs : s.writer
    rw [← hsocket, hs]
  rw [hwriter] at hstep
  cases hresult : action.result with
  | sent sendLen =>
      rw [hresult] at hstep hallowed
      cases hstep
      exact .sent sendLen hbytes hresult hallowed.2
  | failed errorNo =>
      rw [hresult] at hstep
      cases hstep
      rw [← hwriter]
      exact .failed errorNo hbytes hresult

theorem hasSocket_step {action : WriteAction} (h : ∃ x, s.writer.socket = some x)
    (hstep : s.step z action = some t) : ∃ x, t.writer.socket = some x := by
  obtain ⟨socket, hsocket⟩ := h
  obtain ⟨-, hcases⟩ := step_cases hsocket hstep
  cases hcases with
  | encode => exact ⟨socket, hsocket⟩
  | sent => exact ⟨_, rfl⟩
  | failed => exact ⟨socket, hsocket⟩

theorem accepted_eq {socket : TcpSocket} (h : s.writer.socket = some socket) :
    s.accepted = socket.accepted := by
  simp [WriteSession.accepted, h]

private theorem flatten_prefix {frames earlier later : List (List Byte)}
    {bytes frame : List Byte}
    (h : frames ++ [bytes] = earlier ++ frame :: later) :
    earlier.flatten <+: frames.flatten := by
  have hlength := congrArg List.length h
  simp only [List.length_append, List.length_cons, List.length_nil] at hlength
  have hfront : earlier <+: frames :=
    List.prefix_of_prefix_length_le ⟨frame :: later, h.symm⟩ ⟨[bytes], rfl⟩
      (by omega)
  obtain ⟨rest, rfl⟩ := hfront
  exact ⟨rest.flatten, by simp⟩

theorem InOrder.step_iff (h : InOrder s) {action : WriteAction}
    (hsocket : ∃ x, s.writer.socket = some x)
    (hstep : s.step z action = some t) : InOrder t ↔ TakenWhole z s action := by
  obtain ⟨socket, hsocket⟩ := hsocket
  obtain ⟨hended, hcases⟩ := step_cases hsocket hstep
  have haccepted : socket.accepted = s.frames.flatten := by
    rw [← accepted_eq hsocket]
    exact h.returned hended
  cases hcases with
  | encode e he =>
      refine iff_of_true ⟨h.accepted, nofun, h.begun⟩ ?_
      intro message bytes sendLen hbytes
      rw [he] at hbytes
      cases hbytes
  | @sent message bytes sendLen hbytes hresult hle =>
      constructor
      · intro ht message' bytes' sendLen' hbytes' hresult'
        rw [hbytes] at hbytes'
        rw [hresult] at hresult'
        cases hbytes'
        cases hresult'
        have hreturned := ht.returned hended
        rw [accepted_eq rfl, haccepted, List.flatten_append] at hreturned
        have htake := congrArg List.length (List.append_cancel_left hreturned)
        simp only [List.length_take, List.flatten_cons, List.flatten_nil,
          List.append_nil] at htake
        omega
      · intro hwhole
        have htake : bytes.take sendLen = bytes :=
          List.take_of_length_le
            (Nat.le_of_eq (hwhole message bytes sendLen hbytes hresult).symm)
        have hall : socket.accepted ++ bytes.take sendLen =
            (s.frames ++ [bytes]).flatten := by
          simp [htake, haccepted]
        refine ⟨?_, fun _ => ?_, ?_⟩
        · exact hall ▸ List.prefix_refl _
        · exact hall
        · intro earlier frame later heq
          have hfront := flatten_prefix heq
          rw [accepted_eq rfl, haccepted]
          exact hfront.trans (List.prefix_append _ _)
  | @failed message bytes errorNo hbytes hresult =>
      have hsame : s.accepted = s.frames.flatten := h.returned hended
      refine iff_of_true ⟨?_, nofun, ?_⟩ ?_
      · exact h.accepted.trans ⟨bytes, by simp⟩
      · intro earlier frame later heq
        change earlier.flatten <+: s.accepted
        exact hsame ▸ flatten_prefix heq
      · intro _ _ _ _ hresult'
        rw [hresult] at hresult'
        cases hresult'

/-- The bytes are in order throughout a session exactly if `send` takes every
frame whole or fails. -/
theorem inOrder_throughout_iff (z : Gzip) (actions : List WriteAction) :
    Throughout (step z) InOrder {} actions ↔
      Meets (step z) (TakenWhole z) {} actions :=
  throughout_iff_meets (fun _ _ _ => hasSocket_step)
    (fun _ _ _ hsocket h hstep => h.step_iff hsocket hstep) ⟨_, rfl⟩
    inOrder_init actions

def shortWrite : List WriteAction :=
  [{ message := .pingReq {}, result := .sent 1 },
    { message := .pingReq {}, result := .sent 2 }]

theorem shortWrite_breaks_framing :
    ¬ ∀ (z : Gzip) (actions : List WriteAction),
      Throughout (step z) InOrder {} actions := by
  intro hall
  let z : Gzip := { gzipCompress := some, gzipUncompress := some }
  have hrun : run (step z) {} shortWrite = some
      { writer := { socket := some { accepted := [0x30, 0x30, 0] } }
        frames := [[0x30, 0], [0x30, 0]] } := by
    decide +kernel
  have hprefix := ((hall z shortWrite).of_run hrun).accepted
  revert hprefix
  decide

end WriteSession

end GoSocket.Socket
