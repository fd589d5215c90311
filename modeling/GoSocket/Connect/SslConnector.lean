import GoSocket.Connect.TcpConnector
import GoSocket.Foundation.Transition

/-!
# What makes an SSLConnector connected

`AfterSSLSelect` never asks `SSL_connect` again: the readiness it has waited for
counts as the end of the handshake.  A handshake that succeeds at once leaves
the connector where it was, and the next `PreSelect` begins another one.
-/

namespace GoSocket.Connect

open GoSocket.Foundation

inductive ConnectorAction where
  | preSelect (answers : PreAnswers)
  | afterSelect (answers : AfterAnswers)
  | close
  deriving DecidableEq, Repr

namespace TcpConnector

def step (self : TcpConnector) : ConnectorAction → Option TcpConnector
  | .preSelect answers => some (self.callPreSelect answers {}).1
  | .afterSelect answers => some (self.callAfterSelect answers)
  | .close => some self.close.2

/-- `SSL_connect` on the current SSL object has returned success. -/
def HandshakeDone (self : TcpConnector) : Prop :=
  ∃ socket, self.socket = some socket ∧ socket.ssl = some true

structure HandshakeDecides (s : TcpConnector) : Prop where
  connected : s.status = .ConnStatusConnected ↔ s.HandshakeDone
  once : ∀ socket, s.socket = some socket → socket.handshakes ≤ 1

/-- No `SSL_connect` succeeds at once, and the descriptor never gets ready
behind one. -/
def NeverFinishes (self : TcpConnector) : ConnectorAction → Prop
  | .preSelect answers =>
      self.status = .ConnStatusStartSSL → answers.handshake ≠ .success
  | .afterSelect answers => ¬ ReadyInHandshake self answers
  | .close => True

instance (self : TcpConnector) (action : ConnectorAction) :
    Decidable (self.NeverFinishes action) := by
  cases action <;> unfold NeverFinishes <;> infer_instance

/-- What an `SSLConnector` has of the handshake, by its status. -/
structure Handshaking (s : TcpConnector) : Prop where
  isSSLConnector : s.isSSLConnector = true
  isTls : s.addr.isTls = true
  start : s.status = .ConnStatusStart → s.socket = none
  connecting : s.status = .ConnStatusConnecting →
    ∀ socket, s.socket = some socket → socket.ssl = none ∧ socket.handshakes = 0
  startSSL : s.status = .ConnStatusStartSSL →
    ∀ socket, s.socket = some socket →
      socket.ssl = some true ∨ socket.ssl = none ∧ socket.handshakes = 0
  sslConnecting : s.status = .ConnStatusSSLConnecting →
    ∀ socket, s.socket = some socket → socket.ssl = some false
  held : s.status = .ConnStatusStartSSL ∨ s.status = .ConnStatusSSLConnecting →
    s.socket ≠ none

variable {s t : TcpConnector}

theorem handshaking_new {addr : AddrInfo} (hTls : addr.isTls = true)
    (connTimeout : UInt32) : Handshaking (new true addr connTimeout) := by
  constructor <;> simp [new, hTls]

theorem handshakeDecides_new (addr : AddrInfo) (connTimeout : UInt32) :
    HandshakeDecides (new true addr connTimeout) := by
  constructor <;> simp [new, HandshakeDone]

namespace Handshaking

theorem fail (h : Handshaking s) : Handshaking s.fail := by
  constructor <;> simp [TcpConnector.fail, h.isSSLConnector, h.isTls]

theorem pre {answers : PreAnswers} (h : Handshaking s)
    (hs : PreCases s answers t) : Handshaking t := by
  cases hs with
  | same => exact h
  | noSocket => exact h.fail
  | failsEarly hstatus socketFd hfd hearly startConnTime =>
      constructor <;> simp [TcpConnector.fail, h.isSSLConnector, h.isTls]
  | connecting => constructor <;> simp [h.isSSLConnector, h.isTls]
  | handshake hssl hstatus socket hsocket status hnext =>
      cases hhandshake : answers.handshake <;>
        rcases hnext with ⟨hnext, rfl⟩ | ⟨hne, ⟨rfl, hnew⟩ | rfl⟩ <;>
        constructor <;>
        simp_all [ConnSocket.connect, h.isSSLConnector, h.isTls]

theorem after {answers : AfterAnswers} (h : Handshaking s)
    (hs : AfterCases s answers t) : Handshaking t := by
  cases hs with
  | same => exact h
  | failed => exact h.fail
  | startSSL hstatus hsocket =>
      constructor <;>
        simp_all [h.isSSLConnector, h.isTls, h.connecting hstatus]
  | connected hstatus hsocket hTls =>
      rw [h.isTls] at hTls
      cases hTls
  | sslConnected =>
      constructor <;> simp [h.isSSLConnector, h.isTls]

theorem close (h : Handshaking s) : Handshaking s.close.2 := by
  unfold TcpConnector.close
  split
  · exact h
  · constructor <;> simp [h.isSSLConnector, h.isTls]

end Handshaking

theorem handshaking_step {action : ConnectorAction} (h : Handshaking s)
    (hs : s.step action = some t) : Handshaking t := by
  cases action with
  | preSelect answers =>
      cases hs
      exact h.pre (callPreSelect_cases s answers {})
  | afterSelect answers =>
      cases hs
      exact h.after (callAfterSelect_cases s answers)
  | close =>
      cases hs
      exact h.close

/-! ## The handshake decides while it never finishes -/

theorem HandshakeDecides.fail (h : HandshakeDecides s)
    (hstatus : s.status ≠ .ConnStatusConnected) : HandshakeDecides s.fail where
  connected := by
    simp only [TcpConnector.fail, reduceCtorEq, false_iff]
    exact fun hdone => hstatus (h.connected.mpr hdone)
  once := h.once

theorem handshakeDecides_pre {answers : PreAnswers} (hi : Handshaking s)
    (h : HandshakeDecides s) (hs : PreCases s answers t) :
    HandshakeDecides t ↔ NeverFinishes s (.preSelect answers) := by
  have hother (hstatus : s.status ≠ .ConnStatusStartSSL)
      (ht : HandshakeDecides t) :
      HandshakeDecides t ↔ NeverFinishes s (.preSelect answers) :=
    iff_of_true ht fun hstart => absurd hstart hstatus
  cases hs with
  | same hstatus hidle =>
      refine hother (fun hstart => ?_) h
      exact hi.held (.inl hstart) (hidle hi.isSSLConnector hstart)
  | noSocket hstatus =>
      exact hother (by simp [hstatus]) (h.fail (by simp [hstatus]))
  | failsEarly hstatus socketFd hfd hearly startConnTime =>
      refine hother (by simp [hstatus]) ?_
      have hnone := hi.start hstatus
      constructor <;> simp [TcpConnector.fail, HandshakeDone, hnone]
  | connecting hstatus =>
      refine hother (by simp [hstatus]) ?_
      constructor <;> simp [HandshakeDone]
  | handshake hssl hstatus socket hsocket status hnext =>
      have hzero : socket.handshakes = 0 := by
        rcases hi.startSSL hstatus socket hsocket with hdone | ⟨-, hzero⟩
        · have := h.connected.mpr ⟨socket, hsocket, hdone⟩
          rw [hstatus] at this
          cases this
        · exact hzero
      rcases hnext with ⟨hsuccess, rfl⟩ | ⟨hne, hstatus'⟩
      · refine iff_of_false (fun ht => ?_) (fun hok => hok hstatus hsuccess)
        have := ht.connected.mpr ⟨_, rfl, by simp [hsuccess, ConnSocket.connect]⟩
        cases this
      · refine iff_of_true ?_ (fun _ => hne)
        have hstatus : status ≠ .ConnStatusConnected := by
          rcases hstatus' with ⟨rfl, -⟩ | rfl <;> simp
        constructor
        case connected =>
          refine iff_of_false hstatus ?_
          rintro ⟨socket', heq, hdone⟩
          cases heq
          cases hhandshake : answers.handshake <;>
            simp_all [ConnSocket.connect]
        case once =>
          intro socket' heq
          cases heq
          cases answers.handshake <;> simp [ConnSocket.connect, hzero]

theorem handshakeDecides_after {answers : AfterAnswers} (hi : Handshaking s)
    (h : HandshakeDecides s) (hs : AfterCases s answers t) :
    HandshakeDecides t ↔ NeverFinishes s (.afterSelect answers) := by
  cases hs with
  | same hready => exact iff_of_true h hready
  | failed hready hstatus =>
      refine iff_of_true (h.fail ?_) hready
      rcases hstatus with hstatus | hstatus <;> simp [hstatus]
  | startSSL hstatus hsocket hTls =>
      refine iff_of_true ?_ fun hready => ?_
      · constructor
        case connected =>
          refine iff_of_false (by simp) ?_
          rintro ⟨socket, heq, hdone⟩
          rw [(hi.connecting hstatus socket heq).1] at hdone
          cases hdone
        case once => exact h.once
      · have := hready.status
        rw [hstatus] at this
        cases this
  | connected hstatus hsocket hTls =>
      rw [hi.isTls] at hTls
      cases hTls
  | sslConnected hready =>
      refine iff_of_false (fun ht => ?_) (fun hok => hok hready)
      obtain ⟨socket, heq, hdone⟩ := ht.connected.mp rfl
      rw [hi.sslConnecting hready.status socket heq] at hdone
      cases hdone

theorem HandshakeDecides.close (h : HandshakeDecides s) :
    HandshakeDecides s.close.2 := by
  unfold TcpConnector.close
  split
  · exact h
  · constructor <;> simp [HandshakeDone]

theorem handshakeDecides_step {action : ConnectorAction} (hi : Handshaking s)
    (h : HandshakeDecides s) (hs : s.step action = some t) :
    HandshakeDecides t ↔ NeverFinishes s action := by
  cases action with
  | preSelect answers =>
      cases hs
      exact handshakeDecides_pre hi h (callPreSelect_cases s answers {})
  | afterSelect answers =>
      cases hs
      exact handshakeDecides_after hi h (callAfterSelect_cases s answers)
  | close =>
      cases hs
      exact iff_of_true h.close trivial

theorem handshakeDecides_iff {addr : AddrInfo} (hTls : addr.isTls = true)
    (connTimeout : UInt32) (actions : List ConnectorAction) :
    Throughout step HandshakeDecides (new true addr connTimeout) actions ↔
      Meets step NeverFinishes (new true addr connTimeout) actions :=
  throughout_iff_meets (fun _ _ _ => handshaking_step)
    (fun _ _ _ => handshakeDecides_step) (handshaking_new hTls connTimeout)
    (handshakeDecides_new addr connTimeout) actions

def tlsServer : AddrInfo := { ip := "127.0.0.1", port := 443, isTls := true }

def beginHandshake (handshake : Handshake) : List ConnectorAction :=
  [.preSelect { socketFd := some 4 },
    .afterSelect { ready := { writeFdIsSet := true } },
    .preSelect { handshake }]

def wantsRead : Handshake := .fails SSL_ERROR_WANT_READ (by decide)

theorem handshakeDecides_timeout :
    Throughout step HandshakeDecides (new true tlsServer 1000)
      (beginHandshake wantsRead ++ [.afterSelect { tickCount := 1000 }, .close]) := by
  rw [handshakeDecides_iff (by decide) 1000]
  decide +kernel

/-- The server has answered, whatever it was, and the connector is connected;
and a handshake that succeeds at once is begun again, which then fails. -/
theorem connected_without_handshake :
    (run step (new true tlsServer 1000) (beginHandshake wantsRead ++
      [.afterSelect { ready := { readFdIsSet := true } }])).map
        (fun c => (c.status, c.socket.map ConnSocket.ssl)) =
      some (.ConnStatusConnected, some (some false)) ∧
    (run step (new true tlsServer 1000) (beginHandshake .success ++
      [.afterSelect {}])).map
        (fun c => (c.status, c.socket.map ConnSocket.ssl)) =
      some (.ConnStatusStartSSL, some (some true)) ∧
    (run step (new true tlsServer 1000) (beginHandshake .success ++
      [.afterSelect {}, .preSelect { handshake := .fails 1 (by decide) }])).map
        (fun c => (c.status, c.socket.map ConnSocket.handshakes)) =
      some (.ConnStatusError, some 2) := by
  decide +kernel

end TcpConnector

end GoSocket.Connect
